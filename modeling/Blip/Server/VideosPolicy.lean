import Blip.Server.World

/-!
# Who may view a recording

`VideosPolicy.canView` of `packages/blip-server-app/src/server/VideosPolicy.ts`, and the rule that it shares
with `view` and `playlist`. Each of the three reads the recording once and changes nothing, so what it
answers is what the rule says of the recording in the state it started from, unless a service fails.
-/

namespace Blip.Server

variable {ε α β : Type}

/-- What a policy fails with. -/
inductive PolicyError
  | repository (failure : Failure)
  | passwordRequired (message : String)
  | policyDenied (message : String)
deriving DecidableEq, Repr

namespace VideosPolicy

/-- `publicPolicy`, for a predicate that never fails with `DenyAccess`. -/
def publicPolicy (user : Option CurrentUser) (predicate : Option CurrentUser → Effect PolicyError Bool) :
    Effect PolicyError Unit := do
  let result ← predicate user
  if result then pure () else throw (.policyDenied "Access denied by policy")

/-- `verified` is the optional `VerifiedPasswordHashes` service. -/
def canView (verified : Option (List String)) (user : Option CurrentUser) (videoId : String) :
    Effect PolicyError Unit :=
  publicPolicy user fun user => do
    match ← (Repository.findVideo videoId).mapError PolicyError.repository with
    | none => pure true
    | some video =>
      if video.status ≠ .complete then pure true
      else if user.map (·.id) = some video.userId then pure true
      else if video.privacy = .«public» then pure true
      else if video.privacy = .password then
        match video.passwordHash with
        | none => pure false
        | some hash =>
          if hash = "" then pure false
          else if hash ∈ verified.getD [] then pure true
          else throw (.passwordRequired "This recording requires a password")
      else pure false

end VideosPolicy

/-- The rule: its owner, everyone while it is public, and under a password whoever has verified its hash. -/
def VideoRecord.ViewableBy (video : VideoRecord) (userId : Option String) (hashes : List String) : Prop :=
  userId = some video.userId ∨ video.privacy = .«public» ∨
    video.privacy = .password ∧ ∃ hash ∈ hashes, hash ≠ "" ∧ video.passwordHash = some hash

/-! ## What an answer grants -/

/-- The error says that access is denied; the others are a service's failure. -/
def HttpError.denies : HttpError → Bool
  | .storageUnavailable _ | .internalError _ | .defect => false
  | _ => true

def PolicyError.denies : PolicyError → Bool
  | .repository _ => false
  | _ => true

/-- Whether an answer grants media; none after a service's failure. -/
def granted (denies : ε → Bool) (media : α → Bool) : Except ε α → Option Bool
  | .ok a => some (media a)
  | .error e => if denies e then some false else none

def viewGrants : Except HttpError VideoView → Option Bool :=
  granted HttpError.denies (·.source.isSome)

def playlistGrants : Except HttpError String → Option Bool :=
  granted HttpError.denies fun _ => true

def canViewGrants : Except PolicyError Unit → Option Bool :=
  granted PolicyError.denies fun _ => true

/-! ## The state that is read -/

namespace World

variable (s : World)

/-- `findVideo` finds the recording. -/
def Finds (id : String) (video : VideoRecord) : Prop :=
  ((s.videos id).filter (·.archivedAt = none)).map VideoRow.toVideoRecord = some video

/-- Whose session the request is in. -/
def userId (request : HttpServerRequest) : Option String := (s.sessions request.headers).map (·.id)

/-- The request's cookie contains the hash. -/
def Carries (request : HttpServerRequest) (hash : String) : Prop :=
  ∃ value plaintext, request.cookies.lookup passwordCookie = some value ∧ (value, plaintext) ∈ s.tokens ∧
    hash ∈ parseHashes plaintext

/-- The hashes that a request may be taken to have verified: those of the service, or some of its cookie's
(none if the vault fails). -/
def Verified (verified : Option (List String)) (request : HttpServerRequest) (hashes : List String) : Prop :=
  match verified with
  | some known => hashes = known
  | none => ∀ hash ∈ hashes, s.Carries request hash

/-- The rule on the recording there is, as far as the hashes are known. -/
def Decides (id : String) (userId : Option String) (known : List String → Prop) (allowed : Bool) : Prop :=
  ∃ video hashes, s.Finds id video ∧ video.status = .complete ∧ known hashes ∧
    (allowed = true ↔ video.ViewableBy userId hashes)

end World

/-! ## Reading alone -/

section

variable {storageConfigOf : String → Option StorageConfig} {s : World}

variable (storageConfigOf s) in
/-- From a state and alone, the computation answers or fails as described. -/
abbrev Alone (effect : Effect ε α) (Q : α → World → Prop) (E : ε → World → Prop) : Prop :=
  Fallible.Valid (Call.exec storageConfigOf) (fun _ => True) Eq (fun _ _ => True) (· = s) effect Q E

variable (storageConfigOf s) in
/-- It also leaves the state as it is. -/
abbrev Views (effect : Effect ε α) (Q : α → Prop) (E : ε → Prop) : Prop :=
  Alone storageConfigOf s effect (fun a s' => s' = s ∧ Q a) fun e s' => s' = s ∧ E e

theorem stable_eq (P : World → Prop) : Stable (fun _ => True) Eq P := fun _ _ _ _ heq h => heq ▸ h

theorem Views.bind {p : Effect ε α} {f : α → Effect ε β} {M : α → Prop} {Q : β → Prop} {E : ε → Prop}
    (h : Views storageConfigOf s p M E) (hf : ∀ a, M a → Views storageConfigOf s (f a) Q E) :
    Views storageConfigOf s (p >>= f) Q E := by
  refine Fallible.Valid.bind h fun a => ?_
  exact (Fallible.Valid.assume (hf a)).weaken (fun _ _ h => ⟨h.2, h.1⟩) (fun _ _ _ h => h) fun _ _ _ h => h

theorem Views.pure {a : α} {Q : α → Prop} {E : ε → Prop} (h : Q a) :
    Views storageConfigOf s (Pure.pure a : Effect ε α) Q E :=
  Fallible.Valid.pure fun _ _ heq => ⟨heq, h⟩

theorem Views.throw {e : ε} {Q : α → Prop} {E : ε → Prop} (h : E e) :
    Views storageConfigOf s (MonadExcept.throw e : Effect ε α) Q E :=
  Fallible.Valid.throw fun _ _ heq => ⟨heq, h⟩

theorem Views.mono {p : Effect ε α} {Q Q' : α → Prop} {E E' : ε → Prop} (h : Views storageConfigOf s p Q E)
    (hQ : ∀ a, Q a → Q' a) (hE : ∀ e, E e → E' e) : Views storageConfigOf s p Q' E' :=
  Fallible.Valid.weaken h (fun _ _ h => h) (fun a _ _ h => h.imp_right (hQ a)) fun e _ _ h =>
    h.imp_right (hE e)

theorem Views.ite {c : Prop} [Decidable c] {p q : Effect ε α} {Q : α → Prop} {E : ε → Prop}
    (hp : c → Views storageConfigOf s p Q E) (hq : ¬ c → Views storageConfigOf s q Q E) :
    Views storageConfigOf s (if c then p else q) Q E :=
  Fallible.Valid.ite hp hq

theorem Views.mapError {ε' : Type} {p : Effect ε α} {f : ε → ε'} {Q : α → Prop} {E : ε' → Prop}
    (h : Views storageConfigOf s p Q fun e => E (f e)) : Views storageConfigOf s (p.mapError f) Q E :=
  Fallible.Valid.mapError h

/-- Whatever error a service fails with, the caller makes it one of its own. -/
theorem Views.service {ε' : Type} {p : Effect ε α} {f : ε → ε'} {Q : α → Prop} {E : ε' → Prop}
    (h : Views storageConfigOf s p Q fun _ => True) (hf : ∀ e, E (f e)) :
    Views storageConfigOf s (p.mapError f) Q E :=
  .mapError (h.mono (fun _ h => h) fun e _ => hf e)

/-! ### The calls -/

theorem views_findVideo (id : String) :
    Views storageConfigOf s (Repository.findVideo id)
      (fun found => found = ((s.videos id).filter (·.archivedAt = none)).map VideoRow.toVideoRecord)
      fun _ => True := by
  refine Valid.ask (fun _ => stable_eq _) ?_
  rintro _ answer s' - rfl ⟨rfl, hvalue⟩
  rcases answer with e | found
  · exact ⟨trivial, trivial, rfl, trivial⟩
  · exact ⟨trivial, trivial, rfl, hvalue found rfl⟩

theorem views_requestIsOwner (request : HttpServerRequest) (video : VideoRecord) {E : HttpError → Prop} :
    Views storageConfigOf s (requestIsOwner request video)
      (fun owner => owner = true ↔ s.userId request = some video.userId) E := by
  have hsession : Views storageConfigOf s
      (Effect.succeed (.verifySession request.headers) : Effect HttpError (Option AuthIdentity))
      (fun identity => identity = s.sessions request.headers) E := by
    refine Valid.ask (fun _ => stable_eq _) ?_
    rintro _ answer s' - rfl ⟨rfl, rfl⟩
    exact ⟨trivial, trivial, rfl, rfl⟩
  refine hsession.bind fun identity hidentity => .pure ?_
  rw [hidentity, World.userId]
  exact beq_iff_eq

theorem views_decodeStorage (encrypted : String) {E : HttpError → Prop}
    (hE : ∀ message, E (.internalError message)) :
    Views storageConfigOf s (decodeStorage encrypted) (fun _ => True) E := by
  refine .service ?_ fun _ => hE _
  refine Valid.ask (fun _ => stable_eq _) ?_
  rintro _ answer s' - rfl ⟨rfl, -⟩
  rcases answer with e | config <;> exact ⟨trivial, trivial, rfl, trivial⟩

theorem views_signView (config : StorageConfig) (key : String) {E : HttpError → Prop}
    (hE : ∀ message, E (.storageUnavailable message)) :
    Views storageConfigOf s (unavailable (ObjectStorage.signView config key)) (· ≠ "") E := by
  refine .service (.service ?_ fun _ => trivial) fun _ => hE _
  refine Valid.ask (fun _ => stable_eq _) ?_
  rintro _ answer s' - rfl ⟨rfl, hvalue⟩
  rcases answer with e | url
  · exact ⟨trivial, trivial, rfl, trivial⟩
  · exact ⟨trivial, trivial, rfl, hvalue url rfl⟩

theorem views_readText (config : StorageConfig) (key : String) {E : HttpError → Prop}
    (hE : ∀ message, E (.storageUnavailable message)) :
    Views storageConfigOf s (unavailable (ObjectStorage.readText config key)) (fun _ => True) E := by
  refine .service (.service (Views.bind (M := fun _ => True) ?_ fun text _ => ?_) fun _ => trivial)
    fun _ => hE _
  · refine Valid.ask (fun _ => stable_eq _) ?_
    rintro _ answer s' - rfl rfl
    rcases answer with e | text <;> exact ⟨trivial, trivial, rfl, trivial⟩
  · cases text with
    | none => exact .throw trivial
    | some text => exact .pure trivial

/-- The hashes of the service, or those that the cookie carries. -/
theorem views_getVerifiedPasswordHashes (verified : Option (List String)) (request : HttpServerRequest)
    {E : ε → Prop} : Views storageConfigOf s
      (getVerifiedPasswordHashes verified request : Effect ε (List String))
      (s.Verified verified request) E := by
  have hnone : ∀ hash ∈ ([] : List String), s.Carries request hash := fun hash h => absurd h List.not_mem_nil
  unfold getVerifiedPasswordHashes
  cases verified with
  | some hashes => exact .pure rfl
  | none =>
    dsimp only
    split
    · exact .pure hnone
    · exact .pure hnone
    · rename_i cookieValue _ hcookie
      have hdecrypted : Views storageConfigOf s
          ((Vault.decryptString cookieValue).catchAll fun _ => pure "[]" : Effect ε String)
          (fun decrypted => (cookieValue, decrypted) ∈ s.tokens ∨ decrypted = "[]") E := by
        refine Fallible.Valid.catchAll (M := fun _ s' => s' = s) ?_ fun e =>
          Fallible.Valid.pure fun s' _ heq => ⟨heq, .inr rfl⟩
        refine Valid.ask (fun _ => stable_eq _) ?_
        rintro _ answer s' - rfl ⟨rfl, hvalue⟩
        rcases answer with e | plaintext
        · exact ⟨trivial, trivial, rfl⟩
        · exact ⟨trivial, trivial, rfl, .inl (hvalue plaintext rfl)⟩
      refine hdecrypted.bind fun decrypted hvalue => .pure fun hash hmem => ?_
      rcases hvalue with htoken | rfl
      · exact ⟨cookieValue, decrypted, hcookie, htoken, hmem⟩
      · have hparsed : parseHashes "[]" = [] := parseHashes_stringifyHashes []
        rw [hparsed] at hmem
        cases hmem

/-! ## The three readings of the rule -/

/-- There is a recording to decide about. -/
def World.Available (s : World) (id : String) : Prop := ∃ video, s.Finds id video ∧ video.status = .complete

theorem not_available_of_none {id : String}
    (h : none = ((s.videos id).filter (·.archivedAt = none)).map VideoRow.toVideoRecord) :
    ¬ s.Available id := by
  rintro ⟨video, hfinds, -⟩
  rw [World.Finds, ← h] at hfinds
  cases hfinds

theorem not_available_of_status {id : String} {video : VideoRecord} (h : s.Finds id video)
    (hstatus : video.status ≠ .complete) : ¬ s.Available id := by
  rintro ⟨other, hfinds, hcomplete⟩
  obtain rfl := Option.some.inj (h.symm.trans hfinds)
  exact hstatus hcomplete

theorem verified_getD (verified : Option (List String)) (request : HttpServerRequest) :
    s.Verified verified request (verified.getD []) := by
  cases verified with
  | none => exact fun hash h => absurd h List.not_mem_nil
  | some hashes => rfl

/-- What the hash of a recording under a password decides. -/
theorem viewableBy_password {video : VideoRecord} {userId : Option String} {hashes : List String}
    (howner : userId ≠ some video.userId) (hprivacy : video.privacy = .password) {hash : String}
    (hhash : video.passwordHash = some hash) (hne : hash ≠ "") :
    video.ViewableBy userId hashes ↔ hash ∈ hashes := by
  constructor
  · rintro (h | h | ⟨-, other, hmem, -, hother⟩)
    · exact absurd h howner
    · rw [hprivacy] at h
      cases h
    · obtain rfl := Option.some.inj (hhash.symm.trans hother)
      exact hmem
  · exact fun hmem => .inr (.inr ⟨hprivacy, hash, hmem, hne, hhash⟩)

/-- Without a hash nobody but the owner has what it takes. -/
theorem not_viewableBy_of_unset {video : VideoRecord} {userId : Option String} {hashes : List String}
    (howner : userId ≠ some video.userId) (hprivacy : video.privacy ≠ .«public»)
    (hhash : video.privacy = .password → video.passwordHash = none ∨ video.passwordHash = some "") :
    ¬ video.ViewableBy userId hashes := by
  rintro (h | h | ⟨hpassword, hash, -, hne, hsome⟩)
  · exact howner h
  · exact hprivacy h
  · rcases hhash hpassword with hnone | hempty
    · rw [hnone] at hsome
      cases hsome
    · exact hne (Option.some.inj (hsome.symm.trans hempty))

theorem views_videoSource (publicOrigin : String) (video : VideoRecord) {E : HttpError → Prop}
    (hE : ∀ error : HttpError, error.denies = false → E error) :
    Views storageConfigOf s (videoSource publicOrigin video) (· ≠ "") E := by
  refine (views_decodeStorage _ fun _ => hE _ rfl).bind fun config _ => .ite (fun _ => .pure ?_) fun _ => ?_
  · intro h
    have hlength := congrArg (fun text => text.toList.length) h
    simp [playlistUrl, viewerUrl] at hlength
  · exact views_signView config _ fun _ => hE _ rfl

theorem views_rewritePlaylist (config : StorageConfig) (objectKey text : String) {E : HttpError → Prop}
    (hE : ∀ error : HttpError, error.denies = false → E error) :
    Views storageConfigOf s (rewritePlaylist config objectKey text) (fun _ => True) E := by
  refine Views.bind (M := fun _ => True) ?_ fun _ _ => .pure trivial
  refine Fallible.Valid.weaken (Fallible.Valid.mapM (P := (· = s)) _ fun name => ?_) (fun _ _ h => h)
    (fun _ _ _ h => ⟨h, trivial⟩) fun _ _ _ h => h
  exact Fallible.Valid.weaken (views_signView config _ fun _ => hE _ rfl) (fun _ _ h => h)
    (fun _ _ _ h => h.1) fun _ _ _ h => h

/-- `view` answers what the rule decides. -/
theorem views_view (publicOrigin : String) (verified : Option (List String)) (request : HttpServerRequest)
    (id : String) : Views storageConfigOf s (view publicOrigin verified request id)
      (fun answer => s.Decides id (s.userId request) (s.Verified verified request) answer.source.isSome)
      fun error => error.denies = true → ¬ s.Available id ∨
        s.Decides id (s.userId request) (s.Verified verified request) false := by
  refine Views.bind (.service (views_findVideo id) fun _ => by rintro ⟨⟩) fun found hfound => ?_
  cases found with
  | none => exact .throw fun _ => .inl (not_available_of_none hfound)
  | some video =>
    refine .ite (fun hstatus => .throw fun _ => .inl (not_available_of_status hfound.symm hstatus))
      fun hstatus => ?_
    have hcomplete : video.status = .complete := not_not.mp hstatus
    -- whoever the rule allows gets a source
    have hsource : ∀ {hashes : List String} (answer : String → VideoView),
        (∀ source, source ≠ "" → (answer source).source.isSome = true) →
        s.Verified verified request hashes → video.ViewableBy (s.userId request) hashes →
        Views storageConfigOf s (do
            let source ← videoSource publicOrigin video
            pure (answer source) : Effect HttpError VideoView)
          (fun answer => s.Decides id (s.userId request) (s.Verified verified request) answer.source.isSome)
          fun error => error.denies = true → ¬ s.Available id ∨
            s.Decides id (s.userId request) (s.Verified verified request) false := by
      intro hashes answer hanswer hknown hviewable
      refine (views_videoSource publicOrigin video fun error h => ?_).bind fun source hsource => .pure ?_
      · intro hdenies
        rw [h] at hdenies
        cases hdenies
      · exact ⟨video, hashes, hfound.symm, hcomplete, hknown, iff_of_true (hanswer source hsource) hviewable⟩
    have hdenied : ∀ {hashes : List String}, s.Verified verified request hashes →
        -- whoever it does not allow is denied
        ¬ video.ViewableBy (s.userId request) hashes →
        s.Decides id (s.userId request) (s.Verified verified request) false :=
      fun hknown hviewable => ⟨video, _, hfound.symm, hcomplete, hknown, by simpa using hviewable⟩
    refine (views_requestIsOwner request video).bind fun owner howner => ?_
    refine .ite (fun hopen => ?_) fun hclosed => ?_
    · refine hsource _ (fun source h => ?_) (verified_getD verified request) (hopen.imp howner.mp .inl)
      simp [h]
    obtain ⟨hother, hprivacy⟩ := not_or.mp hclosed
    have hstranger : s.userId request ≠ some video.userId := mt howner.mpr hother
    -- from here on the request is not the owner's, and the recording not open
    refine .ite (fun hpassword => ?_) fun hprivate => ?_
    · split
      · rename_i hhash
        exact .throw fun _ => .inr (hdenied (verified_getD verified request)
          (not_viewableBy_of_unset hstranger hprivacy fun _ => .inl hhash))
      · rename_i hash hhash
        refine .ite (fun hempty => .throw fun _ => .inr (hdenied (verified_getD verified request)
          (not_viewableBy_of_unset hstranger hprivacy fun _ => .inr (hempty ▸ hhash)))) fun hne => ?_
        refine (views_getVerifiedPasswordHashes verified request).bind fun hashes hknown => ?_
        have hiff : video.ViewableBy (s.userId request) hashes ↔ hash ∈ hashes :=
          viewableBy_password hstranger hpassword hhash hne
        refine .ite (fun hmem => ?_) fun hmem => ?_
        · refine hsource _ (fun source h => ?_) hknown (hiff.mpr hmem)
          simp [h]
        · exact .throw fun _ => .inr (hdenied hknown (mt hiff.mp hmem))
    · exact .pure (hdenied (verified_getD verified request)
        (not_viewableBy_of_unset hstranger hprivacy fun h => absurd h hprivate))

/-- `playlist` serves an HLS recording to whoever the rule allows. -/
theorem views_playlist (verified : Option (List String)) (request : HttpServerRequest) (id : String) :
    Views storageConfigOf s (playlist verified request id)
      (fun _ => (∃ video, s.Finds id video ∧ isHls video.objectKey = true) ∧
        s.Decides id (s.userId request) (s.Verified verified request) true)
      fun error => error.denies = true → ¬ s.Available id ∨
        (∃ video, s.Finds id video ∧ isHls video.objectKey = false) ∨
        s.Decides id (s.userId request) (s.Verified verified request) false := by
  refine Views.bind (.service (views_findVideo id) fun _ => by rintro ⟨⟩) fun found hfound => ?_
  cases found with
  | none => exact .throw fun _ => .inl (not_available_of_none hfound)
  | some video =>
    refine .ite (fun hmissing => .throw fun _ => ?_) fun hserved => ?_
    · rcases hmissing with hstatus | hmp4
      · exact .inl (not_available_of_status hfound.symm hstatus)
      · exact .inr (.inl ⟨video, hfound.symm, Bool.not_eq_true _ ▸ hmp4⟩)
    obtain ⟨hstatus, hhls⟩ := not_or.mp hserved
    have hcomplete : video.status = .complete := not_not.mp hstatus
    refine (views_requestIsOwner request video).bind fun owner howner => ?_
    -- whichever way the rule is asked, the answer is the rule's
    have hdecided : ∀ {hashes : List String} {authorized : Bool}, s.Verified verified request hashes →
        (authorized = true ↔ video.ViewableBy (s.userId request) hashes) →
        s.Decides id (s.userId request) (s.Verified verified request) authorized :=
      fun hknown hiff => ⟨video, _, hfound.symm, hcomplete, hknown, hiff⟩
    refine Views.bind (M := fun authorized => s.Decides id (s.userId request)
      (s.Verified verified request) authorized) ?_ fun authorized hauthorized => ?_
    · refine .ite (fun hopen => .pure ?_) fun hclosed => ?_
      · exact hdecided (verified_getD verified request) (iff_of_true rfl (hopen.imp howner.mp .inl))
      obtain ⟨hother, hprivacy⟩ := not_or.mp hclosed
      have hstranger : s.userId request ≠ some video.userId := mt howner.mpr hother
      refine .ite (fun hpassword => ?_) fun hprivate => .pure ?_
      · split
        · rename_i hhash
          exact .pure (hdecided (verified_getD verified request) (by
            simpa using not_viewableBy_of_unset hstranger hprivacy fun _ => .inl hhash))
        · rename_i hash hhash
          refine .ite (fun hempty => .pure ?_) fun hne => ?_
          · exact hdecided (verified_getD verified request) (by
              simpa using not_viewableBy_of_unset hstranger hprivacy fun _ => .inr (hempty ▸ hhash))
          · refine (views_getVerifiedPasswordHashes verified request).bind fun hashes hknown => .pure ?_
            exact hdecided hknown (decide_eq_true_iff.trans
              (viewableBy_password hstranger hpassword hhash hne).symm)
      · exact hdecided (verified_getD verified request) (by
          simpa using not_viewableBy_of_unset hstranger hprivacy fun h => absurd h hprivate)
    have hservice : ∀ error : HttpError, error.denies = false → error.denies = true → ¬ s.Available id ∨
        (∃ video, s.Finds id video ∧ isHls video.objectKey = false) ∨
        s.Decides id (s.userId request) (s.Verified verified request) false := by
      intro error h hdenies
      rw [h] at hdenies
      cases hdenies
    refine .ite (fun htrue => ?_) fun hfalse => ?_
    · refine (views_decodeStorage _ fun _ => hservice _ rfl).bind fun config _ => ?_
      refine (views_readText config _ fun _ => hservice _ rfl).bind fun text _ => ?_
      refine (views_rewritePlaylist config _ text hservice).mono (fun _ _ => ⟨?_, ?_⟩) fun _ h => h
      · exact ⟨video, hfound.symm, not_not.mp hhls⟩
      · rwa [htrue] at hauthorized
    · rw [Bool.not_eq_true] at hfalse
      rw [hfalse] at hauthorized
      exact .ite (fun _ => .throw fun _ => .inr (.inr hauthorized)) fun _ =>
        .throw fun _ => .inr (.inr hauthorized)

/-- `canView` lets through whoever the rule allows, and everyone where there is nothing to view. -/
theorem views_canView (verified : Option (List String)) (user : Option CurrentUser) (id : String) :
    Views storageConfigOf s (VideosPolicy.canView verified user id)
      (fun _ => ¬ s.Available id ∨
        s.Decides id (user.map (·.id)) (· = verified.getD []) true)
      fun error => error.denies = true →
        s.Decides id (user.map (·.id)) (· = verified.getD []) false := by
  refine Views.bind (M := fun result => (result = true ∧ ¬ s.Available id) ∨
    s.Decides id (user.map (·.id)) (· = verified.getD []) result) ?_ fun result hresult => ?_
  · refine Views.bind (.service (views_findVideo id) fun _ => by rintro ⟨⟩) fun found hfound => ?_
    cases found with
    | none => exact .pure (.inl ⟨rfl, not_available_of_none hfound⟩)
    | some video =>
      refine .ite (fun hstatus => .pure (.inl ⟨rfl, not_available_of_status hfound.symm hstatus⟩))
        fun hstatus => ?_
      have hdecided : ∀ {result : Bool},
          (result = true ↔ video.ViewableBy (user.map (·.id)) (verified.getD [])) →
          s.Decides id (user.map (·.id)) (· = verified.getD []) result :=
        fun hiff => ⟨video, _, hfound.symm, not_not.mp hstatus, rfl, hiff⟩
      refine .ite (fun howner => .pure (.inr (hdecided ?_))) fun hstranger => ?_
      · exact iff_of_true rfl (.inl howner)
      refine .ite (fun hpublic => .pure (.inr (hdecided ?_))) fun hprivacy => ?_
      · exact iff_of_true rfl (.inr (.inl hpublic))
      refine .ite (fun hpassword => ?_) fun hprivate => .pure (.inr (hdecided ?_))
      · split
        · rename_i hhash
          exact .pure (.inr (hdecided (by
            simpa using not_viewableBy_of_unset hstranger hprivacy fun _ => .inl hhash)))
        · rename_i hash hhash
          refine .ite (fun hempty => .pure (.inr (hdecided ?_))) fun hne => ?_
          · simpa using not_viewableBy_of_unset hstranger hprivacy fun _ => .inr (hempty ▸ hhash)
          have hiff : video.ViewableBy (user.map (·.id)) (verified.getD []) ↔ hash ∈ verified.getD [] :=
            viewableBy_password hstranger hpassword hhash hne
          refine .ite (fun hmem => .pure (.inr (hdecided ?_))) fun hmem => .throw fun _ => hdecided ?_
          · exact iff_of_true rfl (hiff.mpr hmem)
          · simpa using mt hiff.mp hmem
      · simpa using not_viewableBy_of_unset hstranger hprivacy fun h => absurd h hprivate
  · refine .ite (fun htrue => .pure ?_) fun hfalse => .throw fun _ => ?_
    · rcases hresult with ⟨-, hmissing⟩ | hdecides
      · exact .inl hmissing
      · exact .inr (htrue ▸ hdecides)
    · rcases hresult with ⟨htrue, -⟩ | hdecides
      · exact absurd htrue hfalse
      · exact (Bool.not_eq_true _ ▸ hfalse : result = false) ▸ hdecides

/-! ## They agree -/

theorem Views.exec {p : Effect ε α} {Q : α → Prop} {E : ε → Prop} (h : Views storageConfigOf s p Q E)
    {result : Except ε α} {s' : World} (hexec : Exec (Call.exec storageConfigOf) s p.run result s') :
    s' = s ∧ (∀ a, result = .ok a → Q a) ∧ ∀ e, result = .error e → E e := by
  have hpost := (Valid.alone h trivial rfl hexec).2
  rcases result with e | a
  · exact ⟨hpost.1, by rintro _ ⟨⟩, by rintro _ ⟨⟩; exact hpost.2⟩
  · exact ⟨hpost.1, by rintro _ ⟨⟩; exact hpost.2, by rintro _ ⟨⟩⟩

/-- What is decided about a recording that is there, when the hashes are known. -/
theorem World.Decides.iff {id : String} {userId : Option String} {hashes : List String} {allowed : Bool}
    (h : s.Decides id userId (· = hashes) allowed) {video : VideoRecord} (hfinds : s.Finds id video) :
    allowed = true ↔ video.ViewableBy userId hashes := by
  obtain ⟨other, known, hother, -, rfl, hiff⟩ := h
  obtain rfl := Option.some.inj (hfinds.symm.trans hother)
  exact hiff

variable {video : VideoRecord} {id : String} {hashes : List String}

theorem view_agrees {publicOrigin : String} {request : HttpServerRequest} (hfinds : s.Finds id video)
    (hcomplete : video.status = .complete) {result : Except HttpError VideoView} {s' : World}
    (hexec : Exec (Call.exec storageConfigOf) s (view publicOrigin (some hashes) request id).run result s')
    {allowed : Bool} (hgrants : viewGrants result = some allowed) :
    allowed = true ↔ video.ViewableBy (s.userId request) hashes := by
  obtain ⟨-, hok, herror⟩ := (views_view publicOrigin (some hashes) request id).exec hexec
  rcases result with error | answer
  · obtain ⟨hdenies, hfalse⟩ := Option.ite_none_right_eq_some.mp hgrants
    obtain rfl := Option.some.inj hfalse
    rcases herror error rfl hdenies with hmissing | hdecides
    · exact absurd ⟨video, hfinds, hcomplete⟩ hmissing
    · exact hdecides.iff hfinds
  · obtain rfl := Option.some.inj hgrants
    exact (hok answer rfl).iff hfinds

theorem playlist_agrees {request : HttpServerRequest} (hfinds : s.Finds id video)
    (hcomplete : video.status = .complete) {result : Except HttpError String} {s' : World}
    (hexec : Exec (Call.exec storageConfigOf) s (playlist (some hashes) request id).run result s')
    {allowed : Bool} (hgrants : playlistGrants result = some allowed) :
    allowed = true ↔ isHls video.objectKey = true ∧ video.ViewableBy (s.userId request) hashes := by
  obtain ⟨-, hok, herror⟩ := (views_playlist (some hashes) request id).exec hexec
  rcases result with error | body
  · obtain ⟨hdenies, hfalse⟩ := Option.ite_none_right_eq_some.mp hgrants
    obtain rfl := Option.some.inj hfalse
    rcases herror error rfl hdenies with hmissing | ⟨other, hother, hmp4⟩ | hdecides
    · exact absurd ⟨video, hfinds, hcomplete⟩ hmissing
    · obtain rfl := Option.some.inj (hfinds.symm.trans hother)
      simp [hmp4]
    · have hiff := hdecides.iff hfinds
      exact iff_of_false (by simp) fun h => absurd (hiff.mpr h.2) (by simp)
  · obtain rfl := Option.some.inj hgrants
    obtain ⟨⟨other, hother, hhls⟩, hdecides⟩ := hok body rfl
    obtain rfl := Option.some.inj (hfinds.symm.trans hother)
    exact iff_of_true rfl ⟨hhls, (hdecides.iff hfinds).mp rfl⟩

theorem canView_agrees {user : Option CurrentUser} (hfinds : s.Finds id video)
    (hcomplete : video.status = .complete) {result : Except PolicyError Unit} {s' : World}
    (hexec : Exec (Call.exec storageConfigOf) s (VideosPolicy.canView (some hashes) user id).run result s')
    {allowed : Bool} (hgrants : canViewGrants result = some allowed) :
    allowed = true ↔ video.ViewableBy (user.map (·.id)) hashes := by
  obtain ⟨-, hok, herror⟩ := (views_canView (some hashes) user id).exec hexec
  rcases result with error | ⟨⟩
  · obtain ⟨hdenies, hfalse⟩ := Option.ite_none_right_eq_some.mp hgrants
    obtain rfl := Option.some.inj hfalse
    exact (herror error rfl hdenies).iff hfinds
  · obtain rfl := Option.some.inj hgrants
    rcases hok () rfl with hmissing | hdecides
    · exact absurd ⟨video, hfinds, hcomplete⟩ hmissing
    · exact hdecides.iff hfinds

end

end Blip.Server
