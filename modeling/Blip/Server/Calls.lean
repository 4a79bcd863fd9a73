import Blip.Server.Http

/-!
# Which calls each handler makes

A handler's calls bound what it can do to the state, whatever the answers. Each result names the
calls of one handler; `CallsOnly.mono` turns it into what a proof needs to exclude.
-/

namespace Blip.Server

/-- Every call of the computation is allowed. -/
abbrev CallsOnly {ε α : Type} (allowed : Call → Prop) (effect : Effect ε α) : Prop :=
  Fallible.Avoids (fun c => ¬ allowed c) effect

section

variable {ε α : Type} {allowed allowed' : Call → Prop}

theorem CallsOnly.mono {effect : Effect ε α} (h : CallsOnly allowed effect)
    (hallowed : ∀ c, allowed c → allowed' c) : CallsOnly allowed' effect :=
  Prog.Avoids.mono h fun c hc => mt (hallowed c) hc

/-- A computation that makes allowed calls only makes no forbidden one. -/
theorem CallsOnly.avoids {bad : Call → Prop} {effect : Effect ε α} (h : CallsOnly allowed effect)
    (hbad : ∀ c, allowed c → ¬ bad c) : Fallible.Avoids bad effect :=
  Prog.Avoids.mono h fun c hc hallowed => hbad c hallowed hc

/-- One call. -/
theorem callsOnly_ask {c : Call} (h : allowed c) :
    Prog.Avoids (fun c => ¬ allowed c) (Prog.ask c : Prog Call Call.Answer c.Answer) :=
  ⟨not_not_intro h, fun _ => trivial⟩

theorem callsOnly_succeed {c : Call} (h : allowed c) :
    CallsOnly allowed (Effect.succeed c : Effect ε c.Answer) :=
  ⟨not_not_intro h, fun _ => trivial⟩

theorem callsOnly_decodeStorage (encrypted : String) (h : allowed (.decrypt encrypted)) :
    CallsOnly allowed (decodeStorage encrypted) :=
  .mapError (callsOnly_ask h)

theorem callsOnly_requireOwnedVideo (userId id : String)
    (h : allowed (.findOwnedVideo userId id)) : CallsOnly allowed (requireOwnedVideo userId id) := by
  refine .bind (.mapError (callsOnly_ask h)) fun found => ?_
  cases found with
  | none => exact .throw _
  | some video => exact .pure video

theorem callsOnly_presign (config : StorageConfig) (key : String) (method : PresignMethod)
    (contentType : Option String) (query : List (String × String))
    (h : ∀ request, allowed (.presignUrl request)) :
    CallsOnly allowed (ObjectStorage.presign config key method contentType query) :=
  .mapError (callsOnly_ask (h _))

theorem callsOnly_getVerifiedPasswordHashes (verified : Option (List String))
    (request : HttpServerRequest) (h : ∀ value, allowed (.decryptString value)) :
    CallsOnly allowed (getVerifiedPasswordHashes verified request : Effect ε (List String)) := by
  unfold getVerifiedPasswordHashes
  split
  · exact .pure _
  split
  · exact .pure _
  · exact .pure _
  · exact .bind (.catchAll (callsOnly_ask (h _)) fun _ => .pure _) fun _ => .pure _

end

/-! ## Viewing -/

/-- What viewing calls: it changes nothing. -/
def Call.ofViewing : Call → Prop
  | findVideo _ => True
  | verifySession _ => True
  | decryptString _ => True
  | decrypt _ => True
  | presignUrl _ => True
  | getObject _ _ => True
  | _ => False

private theorem callsOnly_requestIsOwner (request : HttpServerRequest) (video : VideoRecord) :
    CallsOnly Call.ofViewing (requestIsOwner request video) :=
  .bind (callsOnly_succeed trivial) fun _ => .pure _

theorem callsOnly_videoSource (publicOrigin : String) (video : VideoRecord) :
    CallsOnly Call.ofViewing (videoSource publicOrigin video) := by
  refine .bind (callsOnly_decodeStorage _ trivial) fun config => ?_
  split
  · exact .pure _
  · exact .mapError (callsOnly_presign _ _ _ _ _ fun _ => trivial)

theorem callsOnly_view (publicOrigin : String) (verified : Option (List String))
    (request : HttpServerRequest) (id : String) :
    CallsOnly Call.ofViewing (view publicOrigin verified request id) := by
  refine .bind (.mapError (callsOnly_ask trivial)) fun found => ?_
  cases found with
  | none => exact .throw _
  | some video =>
    refine .ite (fun _ => .throw _) fun _ => ?_
    refine .bind (callsOnly_requestIsOwner request video) fun owner => ?_
    refine .ite (fun _ => ?_) fun _ => .ite (fun _ => ?_) fun _ => .pure _
    · exact .bind (callsOnly_videoSource publicOrigin video) fun source => .pure _
    split
    · exact .throw _
    refine .ite (fun _ => .throw _) fun _ => ?_
    refine .bind (callsOnly_getVerifiedPasswordHashes _ _ fun _ => trivial) fun hashes => ?_
    refine .ite (fun _ => ?_) fun _ => .throw _
    exact .bind (callsOnly_videoSource publicOrigin video) fun source => .pure _

theorem callsOnly_rewritePlaylist (config : StorageConfig) (objectKey playlist : String) :
    CallsOnly Call.ofViewing (rewritePlaylist config objectKey playlist) :=
  .bind (.mapM _ fun _ => .mapError (callsOnly_presign _ _ _ _ _ fun _ => trivial)) fun _ => .pure _

theorem callsOnly_playlist (verified : Option (List String)) (request : HttpServerRequest)
    (id : String) : CallsOnly Call.ofViewing (playlist verified request id) := by
  refine .bind (.mapError (callsOnly_ask trivial)) fun found => ?_
  cases found with
  | none => exact .throw _
  | some video =>
    refine .ite (fun _ => .throw _) fun _ => ?_
    refine .bind (callsOnly_requestIsOwner request video) fun owner => .bind ?_ fun authorized => ?_
    · refine .ite (fun _ => .pure _) fun _ => .ite (fun _ => ?_) fun _ => .pure _
      split
      · exact .pure _
      refine .ite (fun _ => .pure _) fun _ => ?_
      exact .bind (callsOnly_getVerifiedPasswordHashes _ _ fun _ => trivial) fun _ => .pure _
    · refine .ite (fun _ => ?_) fun _ => .ite (fun _ => .throw _) fun _ => .throw _
      refine .bind (callsOnly_decodeStorage _ trivial) fun config => .bind ?_ fun text =>
        callsOnly_rewritePlaylist _ _ _
      refine .mapError (.mapError (.bind (callsOnly_ask trivial) fun text => ?_))
      cases text with
      | none => exact .throw _
      | some text => exact .pure _

/-! ## Uploading -/

/-- What signing calls: it changes nothing either. -/
def Call.ofSigning : Call → Prop
  | findOwnedVideo _ _ => True
  | decrypt _ => True
  | presignUrl _ => True
  | _ => False

def Call.ofCompletion : Call → Prop
  | findOwnedVideo _ _ => True
  | decrypt _ => True
  | completeMultipartUpload _ _ _ _ => True
  | headObject _ _ => True
  | markVideoComplete _ => True
  | _ => False

def Call.ofAbortion : Call → Prop
  | findOwnedVideo _ _ => True
  | decrypt _ => True
  | abortMultipartUpload _ _ _ => True
  | deleteVideo _ => True
  | _ => False

/-- A new recording is stored uploading and public. -/
def Call.ofCreation : Call → Prop
  | decrypt _ => True
  | randomUUID => True
  | createMultipartUpload _ _ _ _ => True
  | toISOString => True
  | createVideo video => video.status = .uploading ∧ video.privacy = .«public» ∧
      video.passwordHash = none
  | abortMultipartUpload _ _ _ => True
  | _ => False

theorem callsOnly_signPart (user : CurrentUser) (id uploadId : String) (partNumber : ℕ) :
    CallsOnly Call.ofSigning (signPart user id uploadId partNumber) := by
  refine .bind (callsOnly_requireOwnedVideo _ _ trivial) fun video => ?_
  refine .ite (fun _ => .throw _) fun _ => ?_
  refine .bind (callsOnly_decodeStorage _ trivial) fun config => ?_
  exact .mapError (callsOnly_presign _ _ _ _ _ fun _ => trivial)

theorem callsOnly_signAsset (user : CurrentUser) (id uploadId name : String) :
    CallsOnly Call.ofSigning (signAsset user id uploadId name) := by
  refine .bind (callsOnly_requireOwnedVideo _ _ trivial) fun video => ?_
  refine .ite (fun _ => .throw _) fun _ => ?_
  split
  · exact .throw _
  · refine .bind (callsOnly_decodeStorage _ trivial) fun config => ?_
    exact .bind (.mapError (callsOnly_presign _ _ _ _ _ fun _ => trivial)) fun _ => .pure _

theorem callsOnly_completeOrReconcile (config : StorageConfig) (video : VideoRecord)
    (parts : List Part) :
    CallsOnly Call.ofCompletion (completeOrReconcile config video parts) := by
  refine .catchAll (.mapError (callsOnly_ask trivial)) fun _ => .bind (.mapError ?_) ?_
  · refine .catchAll (.bind (callsOnly_ask trivial) fun _ => .pure _) ?_
    rintro (_ | message)
    · exact .pure _
    · exact .throw _
  · rintro (_ | _)
    · exact .throw _
    · exact .pure _

theorem callsOnly_complete (publicOrigin : String) (user : CurrentUser) (id uploadId : String)
    (parts : List Part) :
    CallsOnly Call.ofCompletion (complete publicOrigin user id uploadId parts) := by
  refine .bind (callsOnly_requireOwnedVideo _ _ trivial) fun video => ?_
  refine .ite (fun _ => .throw _) fun _ => .ite (fun _ => .pure _) fun _ =>
    .ite (fun _ => .throw _) fun _ => ?_
  refine .bind (callsOnly_decodeStorage _ trivial) fun config => ?_
  exact .bind (.mapError (callsOnly_completeOrReconcile config video parts)) fun _ =>
    .bind (.mapError (callsOnly_ask trivial)) fun _ => .pure _

theorem callsOnly_abort (user : CurrentUser) (id uploadId : String) :
    CallsOnly Call.ofAbortion (abort user id uploadId) := by
  refine .bind (callsOnly_requireOwnedVideo _ _ trivial) fun video => ?_
  refine .ite (fun _ => .throw _) fun _ => ?_
  refine .bind (callsOnly_decodeStorage _ trivial) fun config => ?_
  exact .bind (.mapError (.mapError (callsOnly_ask trivial))) fun _ =>
    .mapError (callsOnly_ask trivial)

theorem callsOnly_createUpload (config : StorageConfig) (key contentType : String) :
    CallsOnly Call.ofCreation (ObjectStorage.createUpload config key contentType) := by
  refine .mapError (.bind (callsOnly_ask trivial) fun uploadId => ?_)
  split
  · exact .throw _
  · exact .throw _
  · exact .pure _

theorem callsOnly_saveOrAbort (config : StorageConfig) (video : VideoRecord)
    (h : Call.ofCreation (.createVideo video)) :
    CallsOnly Call.ofCreation (saveOrAbort config video) := by
  refine .catchAll (.mapError (callsOnly_ask h)) fun error => ?_
  exact .bind (.catchAll (.mapError (callsOnly_ask trivial)) fun _ => .pure _) fun _ => .throw _

theorem callsOnly_create (publicOrigin : String) (user : CurrentUser) (payload : CreatePayload) :
    CallsOnly Call.ofCreation (create publicOrigin user payload) := by
  unfold create
  split
  · exact .throw _
  · exact .throw _
  apply Fallible.Avoids.ite
  · exact fun _ => .throw _
  · intro _
    refine .bind (callsOnly_decodeStorage _ trivial) fun config =>
      .bind (callsOnly_succeed trivial) fun id => ?_
    apply Fallible.Avoids.ite
    · exact fun _ => .throw _
    · intro _
      refine .ite (fun _ => .throw _) fun _ => ?_
      exact .bind (.mapError (callsOnly_createUpload _ _ _)) fun uploadId =>
        .bind (callsOnly_succeed trivial) fun createdAt =>
        .bind (callsOnly_saveOrAbort _ _ ⟨rfl, rfl, rfl⟩) fun _ => .pure _

/-! ## Managing -/

/-- What managing a recording calls: a stored privacy is a password's exactly with a hash. -/
def Call.ofManagement : Call → Prop
  | findOwnedVideo _ _ => True
  | setVideoName _ _ => True
  | getRandomValues _ => True
  | setVideoPrivacy _ privacy passwordHash => passwordHash ≠ none ↔ privacy = .password
  | toISOString => True
  | archiveVideo _ _ => True
  | _ => False

theorem callsOnly_rename (user : CurrentUser) (id name : String) :
    CallsOnly Call.ofManagement (rename user id name) := by
  refine .bind (callsOnly_requireOwnedVideo _ _ trivial) fun video => ?_
  dsimp only
  -- The trimmed text matters to no call, and unfolding it is costly.
  generalize trim name = trimmed
  exact .ite (fun _ => .throw _) fun _ =>
    .bind (.mapError (callsOnly_ask trivial)) fun _ => .pure _

theorem callsOnly_archive (user : CurrentUser) (id : String) :
    CallsOnly Call.ofManagement (archive user id) :=
  .bind (callsOnly_requireOwnedVideo _ _ trivial) fun _ =>
    .bind (callsOnly_succeed trivial) fun _ => .mapError (callsOnly_ask trivial)

theorem callsOnly_privacy (derivePassword : String → List UInt8 → List UInt8) (user : CurrentUser)
    (id : String) (payload : PrivacyPayload) :
    CallsOnly Call.ofManagement (privacy derivePassword user id payload) := by
  refine .bind (callsOnly_requireOwnedVideo _ _ trivial) fun video => ?_
  split
  · exact .throw _
  · refine .bind ?_ fun passwordHash => ?_
    · unfold passwordHashFor
      split
      · exact .pure _
      exact .ite (fun _ => .throw _) fun _ =>
        .bind (.bind (callsOnly_succeed trivial) fun _ => .pure _) fun _ => .pure _
    · refine .ite (fun _ => .throw _) fun hhash => ?_
      refine .bind (.mapError (callsOnly_ask ?_)) fun _ => .pure _
      simpa [Call.ofManagement] using mt .inl hhash
  · next setting hsetting _ =>
    refine .bind (.mapError (callsOnly_ask ?_)) fun _ => .pure _
    simp only [Call.ofManagement, ne_eq, not_true_eq_false, false_iff]
    exact fun h => hsetting (by simp [h])

end Blip.Server
