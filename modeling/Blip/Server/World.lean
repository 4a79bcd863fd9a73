import Blip.Server.Http
import Mathlib.Data.Option.Basic

/-!
# What the calls do

The shared state behind the services, and each call's possible outcomes. A call can fail before or
after it takes effect, at the environment's choice. The storage keeps completing and aborting one
upload apart, the vault decrypts only what it has encrypted, and random values do not repeat.
-/

namespace Blip.Server

/-- A row of `videos`. -/
structure VideoRow extends VideoRecord where
  archivedAt : Option String
deriving DecidableEq, Repr

/-- How far a multipart upload has come. -/
inductive UploadPhase
  | started
  | completed
  | aborted
deriving DecidableEq, Repr

/-- The database, the object storage, the vault's ciphertexts and the runtime's random values. -/
structure World where
  videos : String → Option VideoRow
  uploads : StorageConfig → String → String → Option UploadPhase
  /-- The ciphertexts of `encryptString`, with their plaintexts. -/
  tokens : List (String × String)
  /-- The random values drawn so far. -/
  drawn : List (List UInt8)
  /-- Whose session each set of headers is. -/
  sessions : List (String × String) → Option AuthIdentity

namespace World

/-- Change the row of an id, if there is one. -/
def updateVideo (s : World) (id : String) (f : VideoRow → VideoRow) : World :=
  { s with videos := fun key => if key = id then (s.videos key).map f else s.videos key }

def deleteVideo (s : World) (id : String) : World :=
  { s with videos := fun key => if key = id then none else s.videos key }

def insertVideo (s : World) (row : VideoRow) : World :=
  { s with videos := fun key => if key = row.id then some row else s.videos key }

def setUpload (s : World) (config : StorageConfig) (key uploadId : String) (phase : UploadPhase) :
    World :=
  { s with
    uploads := fun config' key' uploadId' =>
      if config' = config ∧ key' = key ∧ uploadId' = uploadId then some phase
      else s.uploads config' key' uploadId' }

/-- There is an object at a key: an upload to it has been completed. -/
def HasObject (s : World) (config : StorageConfig) (key : String) : Prop :=
  ∃ uploadId, s.uploads config key uploadId = some .completed

end World

section

variable {ε α : Type}

/-- A call that only reads: it may fail, and a value it answers has the property. -/
def Reads (value : α → Prop) (s : World) (answer : Except ε α) (s' : World) : Prop :=
  s' = s ∧ ∀ a, answer = .ok a → value a

/-- A call that takes effect when it succeeds, and possibly when it fails. -/
def Writes (effect : World → World) (s : World) (answer : Except ε Unit) (s' : World) : Prop :=
  s' = effect s ∨ s' = s ∧ ∃ e, answer = .error e

end

/-- The outcomes of a call. `storageConfigOf` is what the vault reads from a stored configuration. -/
def Call.exec (storageConfigOf : String → Option StorageConfig) (s : World) :
    (c : Call) → c.Answer → World → Prop
  | findOwnedVideo userId id, answer, s' =>
    Reads (fun video => video =
      ((s.videos id).filter (·.userId = userId)).map VideoRow.toVideoRecord) s answer s'
  | findVideo id, answer, s' =>
    Reads (fun video => video =
      ((s.videos id).filter (·.archivedAt = none)).map VideoRow.toVideoRecord) s answer s'
  | createVideo video, answer, s' =>
    if s.videos video.id = none then
      Writes (·.insertVideo { toVideoRecord := video, archivedAt := none }) s answer s'
    else s' = s ∧ ∃ e, answer = .error e
  | setVideoName id name, answer, s' =>
    Writes (·.updateVideo id fun row => { row with name }) s answer s'
  | setVideoPrivacy id privacy passwordHash, answer, s' =>
    Writes (·.updateVideo id fun row => { row with privacy, passwordHash }) s answer s'
  | archiveVideo id archivedAt, answer, s' =>
    Writes (·.updateVideo id fun row => { row with archivedAt := some archivedAt }) s answer s'
  | markVideoComplete id, answer, s' =>
    Writes (·.updateVideo id fun row => { row with status := .complete }) s answer s'
  | .deleteVideo id, answer, s' => Writes (·.deleteVideo id) s answer s'
  | createMultipartUpload config key _ _, answer, s' =>
    (∃ uploadId, s.uploads config key uploadId = none ∧
      s' = s.setUpload config key uploadId .started ∧
        ∀ uploadId', answer = .ok (some uploadId') → uploadId' = uploadId) ∨
      s' = s ∧ ∀ uploadId, answer ≠ .ok (some uploadId)
  | completeMultipartUpload config key uploadId _, answer, s' =>
    match s.uploads config key uploadId with
    | some .started => Writes (·.setUpload config key uploadId .completed) s answer s'
    | some .completed => s' = s
    | _ => s' = s ∧ ∃ e, answer = .error e
  | abortMultipartUpload config key uploadId, answer, s' =>
    match s.uploads config key uploadId with
    | some .started => Writes (·.setUpload config key uploadId .aborted) s answer s'
    | some .completed => s' = s ∧ ∃ e, answer = .error e
    | _ => s' = s
  | headObject config key, answer, s' =>
    s' = s ∧ (answer = .ok () → s.HasObject config key) ∧
      (answer = .error .notFound → ¬ s.HasObject config key)
  | getObject _ _, _, s' => s' = s
  | presignUrl _, answer, s' => s' = s ∧ ∀ url, answer = .ok url → url ≠ ""
  | decrypt value, answer, s' => Reads (fun config => storageConfigOf value = some config) s answer s'
  | encryptString value, answer, s' =>
    match answer with
    | .ok token => (∀ plaintext, (token, plaintext) ∈ s.tokens → plaintext = value) ∧
        s' = { s with tokens := (token, value) :: s.tokens }
    | .error _ => s' = s
  | decryptString value, answer, s' =>
    Reads (fun plaintext => (value, plaintext) ∈ s.tokens) s answer s'
  | verifySession headers, answer, s' => s' = s ∧ answer = s.sessions headers
  | randomUUID, _, s' => s' = s
  | getRandomValues count, answer, s' =>
    answer.length = count ∧ answer ∉ s.drawn ∧ s' = { s with drawn := answer :: s.drawn }
  | toISOString, _, s' => s' = s

end Blip.Server
