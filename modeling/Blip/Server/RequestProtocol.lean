import Blip.Server.Calls
import Blip.Server.Tenants

/-!
# What a request may do

What a request may call in each phase of its work, and that every handler keeps to it: a request of a
user looks for that user's recordings only, and what it then changes in the database or asks of the
storage is the recording it has found, under the configuration stored with it. A new recording is
stored under the id that was drawn for it, with the upload that was started for it.
-/

namespace Blip.Server

/-! ## The protocol -/

/-- How far a request has come: before it has found a recording, with an id drawn for a new one, with
the upload of the new one started, with a recording found or stored, or past a failed start. -/
inductive Phase
  | idle
  | drawn (id : String)
  | started (id : String) (config : StorageConfig) (key uploadId : String)
  | holding (video : VideoRecord)
  | failed

/-- The id that is drawn and not yet stored. -/
def Phase.pending : Phase → Option String
  | drawn id => some id
  | started id _ _ _ => some id
  | _ => none

/-- The phase after a call. -/
def Phase.next (phase : Phase) : (c : Call) → c.Answer → Phase
  | .findOwnedVideo _ _, .ok (some video) => holding video
  | .findVideo _, .ok (some video) => holding video
  | .randomUUID, id => drawn id
  | .createMultipartUpload config key _ _, .ok (some uploadId) =>
    match phase with
    | drawn id => started id config key uploadId
    | _ => failed
  | .createMultipartUpload _ _ _ _, _ => failed
  | .createVideo video, _ => holding video
  | _, _ => phase

/-- The user a request is authenticated as. -/
def TenantRequest.userId : TenantRequest → Option String
  | user identity _ => some identity.id
  | view _ _ => none
  | playlist _ _ => none

/-- The recording a request names. -/
def TenantRequest.recordId : TenantRequest → Option String
  | user _ (.signPart id _ _) => some id
  | user _ (.signAsset id _ _) => some id
  | user _ (.complete id _ _) => some id
  | user _ (.abort id _) => some id
  | user _ (.rename id _) => some id
  | user _ (.privacy id _) => some id
  | user _ (.archive id) => some id
  | user _ _ => none
  | view _ id => some id
  | playlist _ id => some id

section

variable (storageConfigOf : String → Option StorageConfig) (request : TenantRequest)

/-- The request holds the recording of this id, and it is its user's. -/
def Changes (phase : Phase) (id : String) : Prop :=
  ∃ video, phase = .holding video ∧ video.id = id ∧ request.userId = some video.userId

/-- The request holds a recording, the one it names if it names one, and asks for an object of it
under the configuration stored with it. -/
def Touches (phase : Phase) (config : StorageConfig) (key : String) : Prop :=
  ∃ video, phase = .holding video ∧ (∀ id, request.recordId = some id → video.id = id) ∧
    storageConfigOf video.storageConfig = some config ∧ key ∈ video.keys

/-- The calls of the handlers that a request may make. -/
def Call.allowed (phase : Phase) : Call → Prop
  | findOwnedVideo userId id =>
    phase = .idle ∧ request.userId = some userId ∧ request.recordId = some id
  | findVideo id => phase = .idle ∧ request.userId = none ∧ request.recordId = some id
  | createVideo video => request.userId = some video.userId ∧
      (∃ hls, video.objectKey = recordingKey video.userId video.id hls) ∧
      ∃ config, phase = .started video.id config video.objectKey video.uploadId ∧
        storageConfigOf video.storageConfig = some config
  | setVideoName id _ => Changes request phase id
  | setVideoPrivacy id _ _ => Changes request phase id
  | archiveVideo id _ => Changes request phase id
  | markVideoComplete id => Changes request phase id
  | deleteVideo id => Changes request phase id
  | createMultipartUpload _ key _ _ => request.recordId = none ∧ ∃ userId id hls,
      request.userId = some userId ∧ phase = .drawn id ∧ key = recordingKey userId id hls
  | completeMultipartUpload config key _ _ => Touches storageConfigOf request phase config key
  | abortMultipartUpload config key _ => Touches storageConfigOf request phase config key
  | headObject config key => Touches storageConfigOf request phase config key
  | getObject config key => Touches storageConfigOf request phase config key
  | presignUrl asked => Touches storageConfigOf request phase asked.config asked.key
  | randomUUID => phase = .idle
  | _ => True

/-- The calls of the user's own that a request may make. -/
def UserCall.allowed : UserCall → Prop
  | upsertUser id _ _ => request.userId = some id
  | selectUser id => request.userId = some id
  | setStorageConfig userId _ => request.userId = some userId
  | listOwnedVideos userId => request.userId = some userId
  | createTestUpload _ key => request.recordId = none ∧ '/' ∉ key.toList
  | abortTestUpload _ key _ => request.recordId = none ∧ '/' ∉ key.toList
  | encrypt _ => True

/-- The protocol of a request. -/
def isolation : Protocol TenantCall TenantAnswer Phase where
  allowed phase
    | .inl c => c.allowed storageConfigOf request phase
    | .inr c => c.allowed request
  after phase
    | .inl c, answer => phase.next c answer
    | .inr _, _ => phase

/-- What the answers tell: a recording that is found is the one asked for, a configuration is the one
stored, and the ids drawn are UUIDs. -/
def Tells : (c : TenantCall) → TenantAnswer c → Prop
  | .inl (.findOwnedVideo userId id), answer =>
    ∀ video, answer = .ok (some video) → video.id = id ∧ video.userId = userId
  | .inl (.findVideo id), answer => ∀ video, answer = .ok (some video) → video.id = id
  | .inl (.decrypt value), answer => ∀ config, answer = .ok config → storageConfigOf value = some config
  | .inl .randomUUID, id => IsUuid id
  | _, _ => True

end

/-! ## The handlers keep to it -/

section

variable {storageConfigOf : String → Option StorageConfig} {request : TenantRequest} {ε α β : Type}

variable (storageConfigOf request) in
/-- From a phase, a computation of the handlers makes allowed calls only, and succeeds with `Q`. -/
abbrev Keeps (phase : Phase) (effect : Effect ε α) (Q : α → Phase → Prop)
    (E : ε → Phase → Prop) : Prop :=
  Fallible.Follows (fun c answer => Tells storageConfigOf (.inl c) answer)
    (isolation storageConfigOf request).left phase effect Q E

/-- Nothing is asked of a failure. -/
abbrev anyway : ε → Phase → Prop := fun _ _ => True

/-- A call that any request may make at any time. -/
def Call.isFree : Call → Prop
  | decrypt _ => True
  | encryptString _ => True
  | decryptString _ => True
  | verifySession _ => True
  | getRandomValues _ => True
  | toISOString => True
  | _ => False

theorem keeps_of_callsOnly {phase : Phase} {effect : Effect ε α} (h : CallsOnly Call.isFree effect) :
    Keeps storageConfigOf request phase effect (fun _ phase' => phase' = phase)
      (fun _ phase' => phase' = phase) := by
  refine (Prog.Follows.of_avoids h (fun c hc => ?_) fun c answer hc => ?_).weaken ?_
  · cases c <;> first | trivial | exact absurd hc (not_not_intro id)
  · cases c <;> first | rfl | exact absurd hc (not_not_intro id)
  · rintro (e | a) phase' hphase
    · exact hphase
    · exact hphase

theorem keeps_succeed {phase : Phase} {c : Call} {Q : c.Answer → Phase → Prop}
    {E : ε → Phase → Prop} (hallowed : c.allowed storageConfigOf request phase)
    (h : ∀ answer, Tells storageConfigOf (.inl c) answer → Q answer (phase.next c answer)) :
    Keeps storageConfigOf request phase (Effect.succeed c) Q E := ⟨hallowed, h⟩

theorem keeps_decodeStorage (phase : Phase) (encrypted : String) :
    Keeps storageConfigOf request phase (decodeStorage encrypted)
      (fun config phase' => phase' = phase ∧ storageConfigOf encrypted = some config) anyway := by
  refine .mapError (.ask trivial ?_)
  rintro (e | config) htells
  · trivial
  · exact ⟨rfl, htells config rfl⟩

theorem keeps_requireOwnedVideo {userId id : String} (huser : request.userId = some userId)
    (hid : request.recordId = some id) :
    Keeps storageConfigOf request .idle (requireOwnedVideo userId id)
      (fun video phase => phase = .holding video ∧ video.id = id ∧ video.userId = userId) anyway := by
  refine .bind (M := fun found phase => ∀ video, found = some video →
    phase = .holding video ∧ video.id = id ∧ video.userId = userId)
    (.mapError (.ask ⟨rfl, huser, hid⟩ ?_)) fun found phase h => ?_
  · rintro (e | found) htells
    · trivial
    · rintro video rfl
      exact ⟨rfl, htells video rfl⟩
  · cases found with
    | none => exact .throw trivial
    | some video => exact .pure (h video rfl)

theorem keeps_presign {phase : Phase} {config : StorageConfig} {key : String}
    (h : Touches storageConfigOf request phase config key) (method : PresignMethod)
    (contentType : Option String) (query : List (String × String)) :
    Keeps storageConfigOf request phase (ObjectStorage.presign config key method contentType query)
      (fun _ phase' => phase' = phase) anyway := by
  refine .mapError (.ask h ?_)
  rintro (e | url) -
  · trivial
  · exact rfl

theorem touches_found {video : VideoRecord} {id key : String} {config : StorageConfig}
    (hid : request.recordId = some id) (hvideo : video.id = id)
    (hconfig : storageConfigOf video.storageConfig = some config) (hkey : key ∈ video.keys) :
    Touches storageConfigOf request (.holding video) config key := by
  refine ⟨video, rfl, fun id' hid' => ?_, hconfig, hkey⟩
  rw [hid] at hid'
  exact hvideo.trans (Option.some.inj hid')

theorem objectKey_mem (video : VideoRecord) : video.objectKey ∈ video.keys := .inl rfl

theorem asset_mem {video : VideoRecord} (hhls : isHls video.objectKey = true) {name : String}
    (hname : AssetName name.toList) : keyPrefix video.objectKey ++ name ∈ video.keys :=
  .inr ⟨hhls, name, hname, rfl⟩

/-! ### Uploading -/

section

variable {user : CurrentUser} {id : String} (huser : request.userId = some user.id)
  (hid : request.recordId = some id)
include huser hid

theorem keeps_signPart (uploadId : String) (partNumber : ℕ) :
    Keeps storageConfigOf request .idle (signPart user id uploadId partNumber)
      (fun _ _ => True) anyway := by
  refine (keeps_requireOwnedVideo huser hid).bind ?_
  rintro video _ ⟨rfl, hvideo, -⟩
  refine .ite (fun _ => .throw trivial) fun _ => ?_
  refine (keeps_decodeStorage _ _).bind ?_
  rintro config _ ⟨rfl, hconfig⟩
  have htouches := touches_found hid hvideo hconfig (objectKey_mem video)
  exact .mapError ((keeps_presign htouches _ _ _).weaken (fun _ _ _ => trivial) fun _ _ _ => trivial)

theorem keeps_signAsset (uploadId name : String) :
    Keeps storageConfigOf request .idle (signAsset user id uploadId name)
      (fun _ _ => True) anyway := by
  refine (keeps_requireOwnedVideo huser hid).bind ?_
  rintro video _ ⟨rfl, hvideo, -⟩
  refine .ite (fun _ => .throw trivial) fun hsession => ?_
  split
  · exact .throw trivial
  · rename_i contentType hname
    have hhls : isHls video.objectKey = true := by
      by_contra hhls
      exact hsession (.inr (.inr hhls))
    refine (keeps_decodeStorage _ _).bind ?_
    rintro config _ ⟨rfl, hconfig⟩
    have htouches := touches_found hid hvideo hconfig
      (asset_mem hhls ((assetContentType_isSome_iff name).1 ⟨_, hname⟩))
    exact Fallible.Follows.bind (.mapError (keeps_presign htouches _ _ _)) fun _ _ _ => .pure trivial

theorem keeps_complete (publicOrigin uploadId : String) (parts : List Part) :
    Keeps storageConfigOf request .idle (complete publicOrigin user id uploadId parts)
      (fun _ _ => True) anyway := by
  refine (keeps_requireOwnedVideo huser hid).bind ?_
  rintro video _ ⟨rfl, hvideo, howner⟩
  refine .ite (fun _ => .throw trivial) fun _ => .ite (fun _ => .pure trivial) fun _ =>
    .ite (fun _ => .throw trivial) fun _ => ?_
  refine (keeps_decodeStorage _ _).bind ?_
  rintro config _ ⟨rfl, hconfig⟩
  have htouches := touches_found hid hvideo hconfig (objectKey_mem video)
  have hchanges : Changes request (.holding video) video.id := ⟨video, rfl, rfl, howner ▸ huser⟩
  refine Fallible.Follows.bind (M := fun _ phase => phase = .holding video) (.mapError ?_) ?_
  · -- The reconciliation asks for the same object.
    refine .catchAll (M := fun _ phase => phase = .holding video) (.mapError (.ask htouches ?_)) ?_
    · rintro (e | ⟨⟩) -
      · exact rfl
      · exact rfl
    · rintro failure _ rfl
      refine Fallible.Follows.bind (M := fun _ phase => phase = .holding video) (.mapError ?_) ?_
      · refine .catchAll (M := fun _ phase => phase = .holding video)
          (Fallible.Follows.bind (M := fun _ phase => phase = .holding video)
            (.ask htouches ?_) fun _ _ h => .pure h) ?_
        · rintro (e | ⟨⟩) -
          · exact rfl
          · exact rfl
        · rintro (_ | message) _ rfl
          · exact .pure rfl
          · exact .throw trivial
      · rintro found _ rfl
        exact .ite (fun _ => .pure rfl) fun _ => .throw trivial
  · rintro _ _ rfl
    refine Fallible.Follows.bind (M := fun _ _ => True) (.mapError (.ask hchanges ?_))
      fun _ _ _ => .pure trivial
    rintro (e | ⟨⟩) -
    · trivial
    · trivial

theorem keeps_abort (uploadId : String) :
    Keeps storageConfigOf request .idle (abort user id uploadId) (fun _ _ => True) anyway := by
  refine (keeps_requireOwnedVideo huser hid).bind ?_
  rintro video _ ⟨rfl, hvideo, howner⟩
  refine .ite (fun _ => .throw trivial) fun _ => ?_
  refine (keeps_decodeStorage _ _).bind ?_
  rintro config _ ⟨rfl, hconfig⟩
  have htouches := touches_found hid hvideo hconfig (objectKey_mem video)
  have hchanges : Changes request (.holding video) video.id := ⟨video, rfl, rfl, howner ▸ huser⟩
  refine Fallible.Follows.bind (M := fun _ phase => phase = .holding video)
    (.mapError (.mapError (.ask htouches ?_))) ?_
  · rintro (e | ⟨⟩) -
    · trivial
    · exact rfl
  · rintro _ _ rfl
    refine .mapError (.ask hchanges ?_)
    rintro (e | ⟨⟩) -
    · trivial
    · trivial

/-! ### Managing -/

theorem keeps_rename (name : String) :
    Keeps storageConfigOf request .idle (rename user id name) (fun _ _ => True) anyway := by
  refine (keeps_requireOwnedVideo huser hid).bind fun video phase h => ?_
  dsimp only
  -- The trimmed text matters to no call, and unfolding it is costly.
  generalize trim name = trimmed
  obtain ⟨rfl, -, howner⟩ := h
  refine .ite (fun _ => .throw trivial) fun _ => ?_
  refine Fallible.Follows.bind (M := fun _ _ => True)
    (.mapError (.ask ⟨video, rfl, rfl, howner ▸ huser⟩ ?_)) fun _ _ _ => .pure trivial
  rintro (e | ⟨⟩) -
  · trivial
  · trivial

theorem keeps_archive :
    Keeps storageConfigOf request .idle (archive user id) (fun _ _ => True) anyway := by
  refine (keeps_requireOwnedVideo huser hid).bind ?_
  rintro video _ ⟨rfl, -, howner⟩
  refine Fallible.Follows.bind (M := fun _ phase => phase = .holding video)
    (keeps_succeed trivial fun _ _ => rfl) ?_
  rintro archivedAt _ rfl
  refine .mapError (.ask ⟨video, rfl, rfl, howner ▸ huser⟩ ?_)
  rintro (e | ⟨⟩) -
  · trivial
  · trivial

theorem keeps_privacy (derivePassword : String → List UInt8 → List UInt8) (payload : PrivacyPayload) :
    Keeps storageConfigOf request .idle (privacy derivePassword user id payload)
      (fun _ _ => True) anyway := by
  refine (keeps_requireOwnedVideo huser hid).bind ?_
  rintro video _ ⟨rfl, -, howner⟩
  have hset : ∀ setting passwordHash, Keeps storageConfigOf request (.holding video)
      (internal (Repository.setVideoPrivacy video.id setting passwordHash))
      (fun _ _ => True) anyway := by
    intro setting passwordHash
    refine .mapError (.ask ⟨video, rfl, rfl, howner ▸ huser⟩ ?_)
    rintro (e | ⟨⟩) -
    · trivial
    · trivial
  split
  · exact .throw trivial
  · have hhash : CallsOnly Call.isFree (passwordHashFor derivePassword video payload.password) := by
      unfold passwordHashFor
      split
      · exact .pure _
      · exact .ite (fun _ => .throw _) fun _ =>
          .bind (.bind (callsOnly_succeed trivial) fun _ => .pure _) fun _ => .pure _
    refine Fallible.Follows.bind (M := fun _ phase => phase = .holding video)
      ((keeps_of_callsOnly hhash).weaken (fun _ _ h => h) fun _ _ _ => trivial) ?_
    rintro passwordHash _ rfl
    refine .ite (fun _ => .throw trivial) fun _ => ?_
    exact (hset _ _).bind fun _ _ _ => .pure trivial
  · exact (hset _ _).bind fun _ _ _ => .pure trivial

end

/-! ### Creating -/

theorem keeps_create {user : CurrentUser} (huser : request.userId = some user.id)
    (hid : request.recordId = none) (publicOrigin : String) (payload : CreatePayload) :
    Keeps storageConfigOf request .idle (create publicOrigin user payload)
      (fun _ _ => True) anyway := by
  unfold create
  split
  · exact .throw trivial
  · exact .throw trivial
  rename_i storageConfig _ _
  refine .ite (fun _ => .throw trivial) fun _ => ?_
  refine (keeps_decodeStorage _ _).bind ?_
  rintro config _ ⟨rfl, hconfig⟩
  -- the id is drawn before anything is asked of the storage
  refine Fallible.Follows.bind (M := fun id phase => phase = .drawn id) (keeps_succeed rfl fun id _ => rfl) ?_
  rintro id _ rfl
  refine .ite (fun _ => .throw trivial) fun _ => ?_
  dsimp only
  generalize recordingName payload.filename = name
  refine .ite (fun _ => .throw trivial) fun _ => ?_
  have hkey : (if payload.format = some "hls" then
      "users/" ++ user.id ++ "/recordings/" ++ id ++ "/playlist.m3u8"
      else "users/" ++ user.id ++ "/recordings/" ++ id ++ ".mp4") =
        recordingKey user.id id (decide (payload.format = some "hls")) := by
    unfold recordingKey
    by_cases hls : payload.format = some "hls"
    · rw [if_pos hls, decide_eq_true hls, if_pos rfl]
    · rw [if_neg hls, decide_eq_false hls, if_neg Bool.false_ne_true]
  rw [hkey]
  generalize hobject : recordingKey user.id id _ = objectKey
  generalize (if payload.format = some "hls" then _ else _ : String) = contentType
  refine Fallible.Follows.bind
    (M := fun uploadId phase => phase = .started id config objectKey uploadId) (.mapError ?_) ?_
  · -- the storage's answer has to start an upload, or the request fails
    refine .mapError (Fallible.Follows.bind (M := fun answer phase => ∀ uploadId,
      answer = some uploadId → phase = .started id config objectKey uploadId)
      (.ask ⟨hid, _, _, _, huser, rfl, hobject.symm⟩ ?_) ?_)
    · rintro (e | answer) -
      · trivial
      · rintro uploadId rfl
        rfl
    · intro answer phase hphase
      split
      · exact .throw trivial
      · exact .throw trivial
      · exact .pure (hphase _ rfl)
  rintro uploadId _ rfl
  refine Fallible.Follows.bind
    (M := fun _ phase => phase = .started id config objectKey uploadId)
    (keeps_succeed trivial fun _ _ => rfl) ?_
  rintro createdAt _ rfl
  refine Fallible.Follows.bind (M := fun _ _ => True) ?_ fun _ _ _ => .pure trivial
  let video : VideoRecord :=
    { id
      userId := user.id
      name
      createdAt
      objectKey
      uploadId
      storageConfig
      status := .uploading
      privacy := .«public»
      passwordHash := none }
  refine .catchAll (M := fun _ phase => phase = .holding video)
    (.mapError (.ask ⟨huser, ⟨_, hobject.symm⟩, config, rfl, hconfig⟩ ?_)) ?_
  · rintro (e | ⟨⟩) -
    · exact rfl
    · trivial
  · rintro error _ rfl
    -- the upload of a record that could not be stored is aborted, as its own object
    have htouches : Touches storageConfigOf request (.holding video) config objectKey := by
      refine ⟨video, rfl, fun id' hid' => ?_, hconfig, objectKey_mem video⟩
      rw [hid] at hid'
      cases hid'
    refine Fallible.Follows.bind (M := fun _ _ => True)
      (.catchAll (M := fun _ _ => True) (.mapError (.ask htouches ?_)) fun _ _ _ => .pure trivial)
      fun _ _ _ => .throw trivial
    rintro (e | ⟨⟩) -
    · trivial
    · trivial

/-! ### Viewing -/

section

variable {id : String} (huser : request.userId = none) (hid : request.recordId = some id)
include huser hid

theorem keeps_findVideo : Keeps storageConfigOf request .idle (internal (Repository.findVideo id))
    (fun found phase => ∀ video, found = some video → phase = .holding video ∧ video.id = id)
    anyway := by
  refine .mapError (.ask ⟨rfl, huser, hid⟩ ?_)
  rintro (e | found) htells
  · trivial
  · rintro video rfl
    exact ⟨rfl, htells video rfl⟩

omit huser hid in
theorem keeps_requestIsOwner (phase : Phase) (headers : HttpServerRequest) (video : VideoRecord) :
    Keeps storageConfigOf request phase (requestIsOwner headers video)
      (fun _ phase' => phase' = phase) anyway :=
  Fallible.Follows.bind (M := fun _ phase' => phase' = phase) (keeps_succeed trivial fun _ _ => rfl)
    fun _ _ h => .pure h

omit huser hid in
theorem keeps_getVerifiedPasswordHashes (phase : Phase) (verified : Option (List String))
    (headers : HttpServerRequest) :
    Keeps storageConfigOf request phase
      (getVerifiedPasswordHashes verified headers : Effect ε (List String))
      (fun _ phase' => phase' = phase) anyway :=
  (keeps_of_callsOnly (callsOnly_getVerifiedPasswordHashes verified headers fun _ => trivial)).weaken
    (fun _ _ h => h) fun _ _ _ => trivial

omit huser in
theorem keeps_videoSource (publicOrigin : String) {video : VideoRecord} (hvideo : video.id = id) :
    Keeps storageConfigOf request (.holding video) (videoSource publicOrigin video)
      (fun _ _ => True) anyway := by
  refine (keeps_decodeStorage _ _).bind ?_
  rintro config _ ⟨rfl, hconfig⟩
  split
  · exact .pure trivial
  · have htouches := touches_found hid hvideo hconfig (objectKey_mem video)
    exact .mapError ((keeps_presign htouches _ _ _).weaken (fun _ _ _ => trivial)
      fun _ _ _ => trivial)

theorem keeps_view (publicOrigin : String) (verified : Option (List String))
    (headers : HttpServerRequest) :
    Keeps storageConfigOf request .idle (view publicOrigin verified headers id)
      (fun _ _ => True) anyway := by
  refine (keeps_findVideo huser hid).bind fun found phase h => ?_
  cases found with
  | none => exact .throw trivial
  | some video =>
    obtain ⟨rfl, hvideo⟩ := h video rfl
    refine .ite (fun _ => .throw trivial) fun _ => ?_
    refine (keeps_requestIsOwner _ headers video).bind ?_
    rintro owner _ rfl
    refine .ite (fun _ => ?_) fun _ => .ite (fun _ => ?_) fun _ => .pure trivial
    · exact (keeps_videoSource hid publicOrigin hvideo).bind fun _ _ _ => .pure trivial
    split
    · exact .throw trivial
    refine .ite (fun _ => .throw trivial) fun _ => ?_
    refine (keeps_getVerifiedPasswordHashes _ verified headers).bind ?_
    rintro hashes _ rfl
    refine .ite (fun _ => ?_) fun _ => .throw trivial
    exact (keeps_videoSource hid publicOrigin hvideo).bind fun _ _ _ => .pure trivial

omit huser in
/-- Whatever text the playlist is, the objects it makes the server sign are the recording's own. -/
theorem keeps_rewritePlaylist {video : VideoRecord} {config : StorageConfig} (hvideo : video.id = id)
    (hconfig : storageConfigOf video.storageConfig = some config)
    (hhls : isHls video.objectKey = true) (text : String) :
    Keeps storageConfigOf request (.holding video) (rewritePlaylist config video.objectKey text)
      (fun _ _ => True) anyway := by
  refine Fallible.Follows.bind (.mapM _ fun name hname => .mapError ?_) fun _ _ _ => .pure trivial
  have hkey : keyPrefix video.objectKey ++ String.ofList name ∈ video.keys :=
    asset_mem hhls (String.toList_ofList.symm ▸ assetName_of_mem hname)
  exact keeps_presign (touches_found hid hvideo hconfig hkey) _ _ _

theorem keeps_playlist (verified : Option (List String)) (headers : HttpServerRequest) :
    Keeps storageConfigOf request .idle (playlist verified headers id)
      (fun _ _ => True) anyway := by
  refine (keeps_findVideo huser hid).bind fun found phase h => ?_
  cases found with
  | none => exact .throw trivial
  | some video =>
    obtain ⟨rfl, hvideo⟩ := h video rfl
    refine .ite (fun _ => .throw trivial) fun hserved => ?_
    have hhls : isHls video.objectKey = true := by
      by_contra hhls
      exact hserved (.inr hhls)
    refine (keeps_requestIsOwner _ headers video).bind ?_
    rintro owner _ rfl
    refine Fallible.Follows.bind (M := fun _ phase => phase = .holding video) ?_ ?_
    · refine .ite (fun _ => .pure rfl) fun _ => .ite (fun _ => ?_) fun _ => .pure rfl
      split
      · exact .pure rfl
      refine .ite (fun _ => .pure rfl) fun _ => ?_
      exact (keeps_getVerifiedPasswordHashes _ verified headers).bind fun _ _ h => .pure h
    rintro authorized _ rfl
    refine .ite (fun _ => ?_) fun _ => .ite (fun _ => .throw trivial) fun _ => .throw trivial
    refine (keeps_decodeStorage _ _).bind ?_
    rintro config _ ⟨rfl, hconfig⟩
    have htouches := touches_found hid hvideo hconfig (objectKey_mem video)
    refine Fallible.Follows.bind (M := fun _ phase => phase = .holding video)
      (.mapError (.mapError (Fallible.Follows.bind (M := fun _ phase => phase = .holding video)
        (.ask htouches ?_) fun text phase hphase => ?_))) ?_
    · rintro (e | text) -
      · trivial
      · exact rfl
    · cases text with
      | none => exact .throw trivial
      | some text => exact .pure hphase
    · rintro text _ rfl
      exact keeps_rewritePlaylist hid hvideo hconfig hhls text

end

/-! ### Requests -/

variable (storageConfigOf request) in
/-- From a phase, a computation of a request makes allowed calls only. -/
abbrev TenantKeeps (phase : Phase) (effect : TenantEffect ε α) (Q : α → Phase → Prop) : Prop :=
  Fallible.Follows (Tells storageConfigOf) (isolation storageConfigOf request) phase effect Q anyway

theorem tenantKeeps_inl {phase : Phase} {effect : Effect ε α} {Q : α → Phase → Prop}
    (h : Keeps storageConfigOf request phase effect Q anyway) :
    TenantKeeps storageConfigOf request phase effect.inl Q := Prog.Follows.inl h

theorem tenantKeeps_map {phase : Phase} {effect : TenantEffect ε α} {Q : α → Phase → Prop}
    (h : TenantKeeps storageConfigOf request phase effect Q) (f : α → β) :
    TenantKeeps storageConfigOf request phase (f <$> effect) fun _ _ => True := by
  rw [map_eq_pure_bind]
  exact h.bind fun _ _ _ => .pure trivial

theorem tenantKeeps_list {user : CurrentUser} (huser : request.userId = some user.id)
    (publicOrigin : String) :
    TenantKeeps storageConfigOf request .idle (list publicOrigin user) fun _ _ => True := by
  refine Fallible.Follows.bind (M := fun _ _ => True) (.mapError (.ask huser ?_))
    fun _ _ _ => .pure trivial
  rintro (e | videos) -
  · trivial
  · trivial

theorem tenantKeeps_getStorage (user : CurrentUser) :
    TenantKeeps storageConfigOf request .idle (getStorage user) fun _ _ => True := by
  unfold getStorage
  split
  · exact .throw trivial
  · exact .throw trivial
  · exact (tenantKeeps_inl (keeps_decodeStorage _ _)).bind fun _ _ _ => .pure trivial

theorem tenantKeeps_setStorageConfig {user : CurrentUser} (huser : request.userId = some user.id)
    (phase : Phase) (storageConfig : Option String) :
    TenantKeeps storageConfigOf request phase
      ((Repository.setStorageConfig user.id storageConfig).mapError internalError)
      fun _ _ => True := by
  refine .mapError (.ask huser ?_)
  rintro (e | ⟨⟩) -
  · trivial
  · trivial

/-- The object of a storage test lies outside every directory. -/
theorem slash_not_mem_test {id : String} (h : IsUuid id) :
    '/' ∉ (".blip-connection-test-" ++ id).toList := by
  rw [String.toList_append, List.mem_append, not_or]
  exact ⟨by decide, h.slash_not_mem⟩

theorem tenantKeeps_test (hid : request.recordId = none) (config : StorageConfig) :
    TenantKeeps storageConfigOf request .idle (ObjectStorage.test config) fun _ _ => True := by
  refine .mapError ?_
  refine Fallible.Follows.bind (M := fun id _ => IsUuid id)
    (tenantKeeps_inl (keeps_succeed rfl fun id huuid => huuid)) fun id phase huuid => ?_
  have hkey := slash_not_mem_test huuid
  dsimp only
  generalize ".blip-connection-test-" ++ id = key at hkey
  refine Fallible.Follows.bind (M := fun _ _ => True) (.ask ⟨hid, hkey⟩ ?_) fun answer phase _ => ?_
  · rintro (e | answer) -
    · trivial
    · trivial
  split
  · exact .throw trivial
  · exact .throw trivial
  · refine .ask ⟨hid, hkey⟩ ?_
    rintro (e | ⟨⟩) -
    · trivial
    · trivial

theorem tenantKeeps_setStorage {user : CurrentUser} (huser : request.userId = some user.id)
    (hid : request.recordId = none) (parseUrl : String → Option (String × String)) (payload : StorageConfig) :
    TenantKeeps storageConfigOf request .idle (setStorage parseUrl user payload)
      fun _ _ => True := by
  unfold setStorage
  split
  · exact .throw trivial
  refine .ite (fun _ => .throw trivial) fun _ => ?_
  refine Fallible.Follows.bind (.mapError (tenantKeeps_test hid payload)) fun _ _ _ => ?_
  refine Fallible.Follows.bind (M := fun _ _ => True) (.mapError (.ask trivial ?_)) fun _ _ _ => ?_
  · rintro (e | encrypted) -
    · trivial
    · trivial
  exact (tenantKeeps_setStorageConfig huser _ _).bind fun _ _ _ => .pure trivial

section

variable (publicOrigin : String) (derivePassword : String → List UInt8 → List UInt8)
  (parseUrl : String → Option (String × String)) (verified : Option (List String))

theorem tenantKeeps_user {identity : AuthIdentity} {user : CurrentUser} (huser : user.id = identity.id)
    (asked : UserRequest) :
    TenantKeeps storageConfigOf (.user identity asked) .idle
      (asked.handle publicOrigin derivePassword parseUrl user) fun _ _ => True := by
  have huser : (TenantRequest.user identity asked).userId = some user.id := congrArg some huser.symm
  cases asked with
  | list => exact tenantKeeps_map (tenantKeeps_list huser publicOrigin) _
  | create payload =>
    exact tenantKeeps_map (tenantKeeps_inl (keeps_create huser rfl publicOrigin payload)) _
  | signPart id uploadId partNumber =>
    exact tenantKeeps_map (tenantKeeps_inl (keeps_signPart huser rfl uploadId partNumber)) _
  | signAsset id uploadId name =>
    exact tenantKeeps_map (tenantKeeps_inl (keeps_signAsset huser rfl uploadId name)) _
  | complete id uploadId parts =>
    exact tenantKeeps_map (tenantKeeps_inl (keeps_complete huser rfl publicOrigin uploadId parts)) _
  | abort id uploadId => exact tenantKeeps_map (tenantKeeps_inl (keeps_abort huser rfl uploadId)) _
  | rename id name => exact tenantKeeps_map (tenantKeeps_inl (keeps_rename huser rfl name)) _
  | privacy id payload =>
    exact tenantKeeps_map (tenantKeeps_inl (keeps_privacy huser rfl derivePassword payload)) _
  | archive id => exact tenantKeeps_map (tenantKeeps_inl (keeps_archive huser rfl)) _
  | getStorage => exact tenantKeeps_map (tenantKeeps_getStorage user) _
  | setStorage payload => exact tenantKeeps_map (tenantKeeps_setStorage huser rfl parseUrl payload) _
  | removeStorage => exact tenantKeeps_map (tenantKeeps_setStorageConfig huser _ none) _

/-- Every request follows the protocol. -/
theorem tenantKeeps_handle (request : TenantRequest) :
    TenantKeeps storageConfigOf request .idle
      (request.handle publicOrigin derivePassword parseUrl verified) fun _ _ => True := by
  cases request with
  | user identity asked =>
    refine Fallible.Follows.bind (M := fun _ phase => phase = .idle)
      (tenantKeeps_inl (keeps_succeed trivial fun _ _ => rfl)) ?_
    rintro createdAt _ rfl
    refine Fallible.Follows.bind (M := fun _ phase => phase = .idle)
      (.mapError (Fallible.Follows.bind (M := fun _ phase => phase = .idle) (.ask rfl ?_) ?_)) ?_
    · rintro (e | ⟨⟩) -
      · trivial
      · exact rfl
    · rintro _ _ rfl
      refine .ask rfl ?_
      rintro (e | row) -
      · trivial
      · exact rfl
    · rintro row _ rfl
      cases row with
      | none => exact .throw trivial
      | some row => exact tenantKeeps_user publicOrigin derivePassword parseUrl rfl asked
  | view headers id =>
    exact tenantKeeps_map (tenantKeeps_inl (keeps_view rfl rfl publicOrigin verified headers)) _
  | playlist headers id =>
    exact tenantKeeps_map (tenantKeeps_inl (keeps_playlist rfl rfl verified headers)) _

end

end

end Blip.Server
