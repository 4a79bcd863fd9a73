import Blip.Server.PrivacyRevocation
import Blip.Server.TenantIsolation
import Blip.Server.VideosPolicy

/-!
# Histories of privacy settings, unlocks and views

Requests are served one after another: an owner's, which may change what is stored, and those of any number
of clients, who view, ask for the playlist and unlock. A client sends any cookie but one that the vault made
for another client, which nobody can guess. Each request of the history may fail at any of its calls.
-/

namespace Blip.Server

variable {Client : Type}

/-- A request of a user who has signed in. -/
inductive OwnerRequest
  | create (payload : CreatePayload)
  | complete (id uploadId : String) (parts : List Part)
  | privacy (id : String) (payload : PrivacyPayload)
  | rename (id name : String)
  | archive (id : String)
  | abort (id uploadId : String)

/-- An unlock that succeeded: whose it was, the password, and the hash that was stored then. -/
structure Unlock (Client : Type) where
  client : Client
  password : String
  hash : Option String

/-- The server, the cookies that its clients were sent, and their unlocks. -/
structure AccessHistory (Client : Type) where
  world : World
  issued : List (Client × String)
  unlocks : List (Unlock Client)

inductive AccessStep (Client : Type)
  | owner (user : CurrentUser) (request : OwnerRequest)
  | view (client : Client) (request : HttpServerRequest) (id : String) (result : Except HttpError VideoView)
  | playlist (client : Client) (request : HttpServerRequest) (id : String) (result : Except HttpError String)
  | unlock (client : Client) (request : HttpServerRequest) (id password : String)
      (result : Except HttpError SetCookie)
  | sessions (sessions : List (String × String) → Option AuthIdentity)

section

variable (storageConfigOf : String → Option StorageConfig)
  (derivePassword : String → List UInt8 → List UInt8) (publicOrigin : String)

def OwnerRequest.handle (user : CurrentUser) : OwnerRequest → Effect HttpError Unit
  | .create payload => (fun _ => ()) <$> Blip.Server.create publicOrigin user payload
  | .complete id uploadId parts => (fun _ => ()) <$> Blip.Server.complete publicOrigin user id uploadId parts
  | .privacy id payload => (fun _ => ()) <$> Blip.Server.privacy derivePassword user id payload
  | .rename id name => (fun _ => ()) <$> Blip.Server.rename user id name
  | .archive id => Blip.Server.archive user id
  | .abort id uploadId => Blip.Server.abort user id uploadId

namespace AccessHistory

variable (s : AccessHistory Client)

/-- The request's cookie is not one that the vault made for somebody else. -/
def Sends (client : Client) (request : HttpServerRequest) : Prop :=
  ∀ value, request.cookies.lookup passwordCookie = some value →
    (∃ plaintext, (value, plaintext) ∈ s.world.tokens) → (client, value) ∈ s.issued

/-- The client has unlocked with a password that verifies against the hash, while that was stored. -/
def Unlocked (client : Client) (hash : String) : Prop :=
  ∃ unlock ∈ s.unlocks, unlock.client = client ∧ unlock.hash = some hash ∧
    verifyPassword derivePassword unlock.password hash = true

/-- What a client has got after its unlock. -/
def unlocked (world : World) (client : Client) (id password : String) :
    Except HttpError SetCookie → AccessHistory Client
  | .ok cookie =>
    { world
      issued := (client, cookie.value) :: s.issued
      unlocks := {
        client
        password
        hash := storedHash s.world id } :: s.unlocks }
  | .error _ => { s with world }

def step : AccessStep Client → AccessHistory Client → Prop
  | .owner user request, s' => ∃ result world, s' = { s with world } ∧
      Exec (Call.exec storageConfigOf) s.world (request.handle derivePassword publicOrigin user).run
        result world
  | .view client request id result, s' => s.Sends client request ∧ ∃ world, s' = { s with world } ∧
      Exec (Call.exec storageConfigOf) s.world (Blip.Server.view publicOrigin none request id).run
        result world
  | .playlist client request id result, s' => s.Sends client request ∧ ∃ world, s' = { s with world } ∧
      Exec (Call.exec storageConfigOf) s.world (Blip.Server.playlist none request id).run result world
  | .unlock client request id password result, s' => s.Sends client request ∧ ∃ world,
      s' = s.unlocked world client id password result ∧
      Exec (Call.exec storageConfigOf) s.world
        (Blip.Server.unlock derivePassword none request id password).run result world
  | .sessions sessions, s' => s' = { s with world := { s.world with sessions } }

end AccessHistory

/-- The histories of a server that begins with no recordings and no cookies. -/
def accessHistories (Client : Type) : System (AccessHistory Client) (AccessStep Client) where
  init s := (∀ id, s.world.videos id = none) ∧ s.world.tokens = [] ∧ s.issued = [] ∧ s.unlocks = []
  step s label s' := s.step storageConfigOf derivePassword publicOrigin label s'

end

/-- The media that a request was given: whose request it was, and of which recording. -/
def AccessStep.obtains : AccessStep Client → Option (Client × HttpServerRequest × String)
  | .view client request id (.ok answer) => if answer.source.isSome then some (client, request, id) else none
  | .playlist client request id (.ok _) => some (client, request, id)
  | _ => none

/-! ## What is stored -/

/-- A hash is stored exactly under a password. -/
def World.PrivacyStored (s : World) : Prop :=
  ∀ id row, s.videos id = some row → (row.passwordHash ≠ none ↔ row.privacy = .password)

/-- What an owner's requests call: no cookie is made, and a hash is stored exactly under a password. -/
def Call.storesPrivacy : Call → Prop
  | createVideo video => video.passwordHash ≠ none ↔ video.privacy = .password
  | setVideoPrivacy _ privacy passwordHash => passwordHash ≠ none ↔ privacy = .password
  | encryptString _ => False
  | _ => True

theorem storesPrivacy_of_creation {c : Call} (h : c.ofCreation) : c.storesPrivacy := by
  cases c with
  | createVideo video =>
    obtain ⟨-, hprivacy, hhash⟩ := h
    simp [Call.storesPrivacy, hprivacy, hhash]
  | setVideoPrivacy _ _ _ => exact h.elim
  | encryptString _ => exact h.elim
  | _ => trivial

theorem storesPrivacy_of_management {c : Call} (h : c.ofManagement) : c.storesPrivacy := by
  cases c with
  | createVideo _ => exact h.elim
  | setVideoPrivacy _ _ _ => exact h
  | encryptString _ => exact h.elim
  | _ => trivial

theorem storesPrivacy_of_completion {c : Call} (h : c.ofCompletion) : c.storesPrivacy := by
  cases c with
  | createVideo _ => exact h.elim
  | setVideoPrivacy _ _ _ => exact h.elim
  | encryptString _ => exact h.elim
  | _ => trivial

theorem storesPrivacy_of_abortion {c : Call} (h : c.ofAbortion) : c.storesPrivacy := by
  cases c with
  | createVideo _ => exact h.elim
  | setVideoPrivacy _ _ _ => exact h.elim
  | encryptString _ => exact h.elim
  | _ => trivial

variable {storageConfigOf : String → Option StorageConfig}
  {derivePassword : String → List UInt8 → List UInt8} {publicOrigin : String}

/-- Only the vault's own call makes a cookie. -/
theorem exec_tokens {s s' : World} {c : Call} {answer : c.Answer} (h : c.exec storageConfigOf s answer s')
    (hc : ∀ value, c ≠ .encryptString value) : s'.tokens = s.tokens := by
  cases c with
  | createVideo video =>
    rw [Call.exec] at h
    split at h
    · rcases h with rfl | ⟨rfl, -⟩ <;> rfl
    · rw [h.1]
  | setVideoName _ _ | setVideoPrivacy _ _ _ | archiveVideo _ _ | markVideoComplete _ | deleteVideo _ =>
    rcases h with rfl | ⟨rfl, -⟩ <;> rfl
  | createMultipartUpload _ _ _ _ =>
    rcases h with ⟨uploadId, -, rfl, -⟩ | ⟨rfl, -⟩ <;> rfl
  | completeMultipartUpload config key uploadId _ =>
    rw [Call.exec] at h
    split at h
    · rcases h with rfl | ⟨rfl, -⟩ <;> rfl
    · rw [h]
    · rw [h.1]
  | abortMultipartUpload config key uploadId =>
    rw [Call.exec] at h
    split at h
    · rcases h with rfl | ⟨rfl, -⟩ <;> rfl
    · rw [h.1]
    · rw [h]
  | encryptString value => exact absurd rfl (hc value)
  | getRandomValues _ => rw [h.2.2]
  | getObject _ _ => exact congrArg World.tokens h
  | randomUUID => exact congrArg World.tokens h
  | toISOString => exact congrArg World.tokens h
  | _ => exact congrArg World.tokens h.1

theorem exec_privacyStored {s s' : World} {c : Call} {answer : c.Answer}
    (h : c.exec storageConfigOf s answer s') (hc : c.storesPrivacy) (hs : s.PrivacyStored) :
    s'.PrivacyStored := by
  intro id row hrow
  rcases exec_row h id with heq | ⟨-, heq⟩
  · exact hs id row (heq.symm.trans hrow)
  · rw [heq] at hrow
    -- a row that is changed keeps both columns, or gets them from the call
    have hmap : ∀ f : VideoRow → VideoRow, (s.videos id).map f = some row →
        (∀ before, ((f before).passwordHash ≠ none ↔ (f before).privacy = .password) ∨
          (f before).passwordHash = before.passwordHash ∧ (f before).privacy = before.privacy) →
        (row.passwordHash ≠ none ↔ row.privacy = .password) := by
      intro f hsome hf
      obtain ⟨before, hbefore, rfl⟩ := Option.map_eq_some_iff.mp hsome
      rcases hf before with hiff | ⟨hhash, hprivacy⟩
      · exact hiff
      · rw [hhash, hprivacy]
        exact hs id before hbefore
    cases c with
    | createVideo video =>
      cases hfound : s.videos id with
      | none =>
        rw [hfound] at hrow
        obtain rfl := Option.some.inj hrow
        exact hc
      | some before =>
        rw [hfound] at hrow
        obtain rfl := Option.some.inj hrow
        exact hs id before hfound
    | setVideoName _ _ => exact hmap _ hrow fun _ => .inr ⟨rfl, rfl⟩
    | setVideoPrivacy _ _ _ => exact hmap _ hrow fun _ => .inl hc
    | archiveVideo _ _ => exact hmap _ hrow fun _ => .inr ⟨rfl, rfl⟩
    | markVideoComplete _ => exact hmap _ hrow fun _ => .inr ⟨rfl, rfl⟩
    | deleteVideo _ => cases hrow
    | _ => exact hs id row hrow

/-- An owner's request makes no cookie and leaves a hash exactly under a password. -/
theorem owner_keeps {s s' : World} {user : CurrentUser} {request : OwnerRequest}
    {result : Except HttpError Unit} (hs : s.PrivacyStored)
    (hexec : Exec (Call.exec storageConfigOf) s (request.handle derivePassword publicOrigin user).run
      result s') : s'.PrivacyStored ∧ s'.tokens = s.tokens := by
  have hcalls : CallsOnly Call.storesPrivacy (request.handle derivePassword publicOrigin user) := by
    cases request with
    | create payload =>
      exact .bind ((callsOnly_create _ _ _).mono fun _ => storesPrivacy_of_creation) fun _ => .pure _
    | complete id uploadId parts =>
      exact .bind ((callsOnly_complete _ _ _ _ _).mono fun _ => storesPrivacy_of_completion) fun _ => .pure _
    | privacy id payload =>
      exact .bind ((callsOnly_privacy _ _ _ _).mono fun _ => storesPrivacy_of_management) fun _ => .pure _
    | rename id name =>
      exact .bind ((callsOnly_rename _ _ _).mono fun _ => storesPrivacy_of_management) fun _ => .pure _
    | archive id => exact (callsOnly_archive _ _).mono fun _ => storesPrivacy_of_management
    | abort id uploadId => exact (callsOnly_abort _ _ _).mono fun _ => storesPrivacy_of_abortion
  have hvalid : Valid (Call.exec storageConfigOf) (fun w => w.PrivacyStored ∧ w.tokens = s.tokens)
      (fun _ _ => True) (fun _ _ => True) (fun _ => True)
      (request.handle derivePassword publicOrigin user).run fun _ _ => True := by
    refine Valid.of_avoids hcalls fun w c answer w' hc hw hcall => ⟨⟨?_, ?_⟩, trivial⟩
    · exact exec_privacyStored hcall (not_not.mp hc) hw.1
    · refine (exec_tokens hcall ?_).trans hw.2
      rintro value rfl
      exact not_not.mp hc
  exact (hvalid.alone ⟨hs, rfl⟩ trivial hexec).1

end Blip.Server
