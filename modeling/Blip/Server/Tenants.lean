import Blip.Common.Protocol
import Blip.Server.RecordKeys
import Blip.Server.World

/-!
# The requests of many users

Every request of the server that reads or changes recordings, as a user or a viewer makes it: the
authentication of `userAuthLayer` in front of the upload handlers, and the handlers of the user's
storage configuration and of the list of recordings, which need calls of their own. Requests run
concurrently on one world. Beside it the state keeps a history of what has been drawn, created and
asked of the storage, which no handler reads.
-/

namespace Blip.Server

/-! ## Calls -/

/-- A row of `users`. -/
structure UserRow where
  name : String
  storageConfig : Option String
deriving DecidableEq, Repr

/-- What `listOwnedVideos` selects of a recording. -/
structure ListedVideo where
  id : String
  name : String
  objectKey : String
  status : VideoStatus
  createdAt : String
  privacy : VideoPrivacy
deriving DecidableEq, Repr

/-- The calls of the authentication and of the handlers of a user's own settings. The first two are the
statements of `ensureUser`, the last two those of the storage test. -/
inductive UserCall
  | upsertUser (id name createdAt : String)
  | selectUser (id : String)
  | setStorageConfig (userId : String) (storageConfig : Option String)
  | listOwnedVideos (userId : String)
  | encrypt (config : StorageConfig)
  | createTestUpload (config : StorageConfig) (key : String)
  | abortTestUpload (config : StorageConfig) (key uploadId : String)

def UserCall.Answer : UserCall → Type
  | upsertUser _ _ _ => Except Failure Unit
  | selectUser _ => Except Failure (Option UserRow)
  | setStorageConfig _ _ => Except Failure Unit
  | listOwnedVideos _ => Except Failure (List ListedVideo)
  | encrypt _ => Except Failure String
  | createTestUpload _ _ => Except S3Error (Option String)
  | abortTestUpload _ _ _ => Except S3Error Unit

/-- All the calls of a request. -/
abbrev TenantCall := Call ⊕ UserCall

abbrev TenantAnswer : TenantCall → Type := Sum.elim Call.Answer UserCall.Answer

abbrev TenantEffect (ε α : Type) := Fallible TenantCall TenantAnswer ε α

/-- A computation of the upload and system handlers. -/
def Effect.inl {ε α : Type} (effect : Effect ε α) : TenantEffect ε α := ExceptT.mk effect.run.inl

/-- A call of the user's own. -/
def UserCall.ask (c : UserCall) : Prog TenantCall TenantAnswer c.Answer := Prog.ask (Sum.inr c)

namespace Repository

def ensureUser (id name createdAt : String) : TenantEffect Failure (Option UserRow) := do
  (ExceptT.mk (UserCall.ask (.upsertUser id name createdAt)) : TenantEffect Failure Unit)
  ExceptT.mk (UserCall.ask (.selectUser id))

def setStorageConfig (userId : String) (storageConfig : Option String) : TenantEffect Failure Unit :=
  ExceptT.mk (UserCall.ask (.setStorageConfig userId storageConfig))

def listOwnedVideos (userId : String) : TenantEffect Failure (List ListedVideo) :=
  ExceptT.mk (UserCall.ask (.listOwnedVideos userId))

end Repository

def Vault.encrypt (config : StorageConfig) : TenantEffect Failure String :=
  ExceptT.mk (UserCall.ask (.encrypt config))

/-- A failed request, as `run` reports it. -/
def S3Error.failure : S3Error → Failure
  | .notFound => ⟨"NotFound"⟩
  | .other message => ⟨message⟩

/-- A test upload is started and abandoned. -/
def ObjectStorage.test (config : StorageConfig) : TenantEffect Failure Unit :=
  Fallible.mapError S3Error.failure (do
    let id : String ← (Effect.succeed .randomUUID : Effect S3Error String).inl
    let key := ".blip-connection-test-" ++ id
    match ← (ExceptT.mk (UserCall.ask (.createTestUpload config key)) :
        TenantEffect S3Error (Option String)) with
    | none => throw (.other "Storage did not return an upload ID")
    | some "" => throw (.other "Storage did not return an upload ID")
    | some uploadId => ExceptT.mk (UserCall.ask (.abortTestUpload config key uploadId)))

/-! ## Handlers -/

/-- `storageSummary`: the configuration without its secret. -/
structure StorageSummary where
  endpoint : String
  region : String
  bucket : String
  accessKeyId : String
  forcePathStyle : Bool
deriving DecidableEq, Repr

def storageSummary (config : StorageConfig) : StorageSummary where
  endpoint := config.endpoint
  region := config.region
  bucket := config.bucket
  accessKeyId := config.accessKeyId
  forcePathStyle := config.forcePathStyle

/-- What `list` answers of a recording. -/
structure ListedUpload where
  id : String
  name : String
  status : VideoStatus
  format : String
  createdAt : String
  viewerUrl : String
  privacy : VideoPrivacy
deriving DecidableEq, Repr

/-- A repository or vault failure as an internal error. -/
def internalError (failure : Failure) : HttpError :=
  .internalError ("Internal server error: " ++ failure.message)

/-- A storage failure as an unavailable storage service. -/
def storageUnavailable (failure : Failure) : HttpError :=
  .storageUnavailable ("Storage service unavailable: " ++ failure.message)

section

variable (publicOrigin : String)

/-- `list`. -/
def list (user : CurrentUser) : TenantEffect HttpError (List ListedUpload) := do
  let videos ← (Repository.listOwnedVideos user.id).mapError internalError
  pure (videos.map fun video =>
    { id := video.id
      name := video.name
      status := video.status
      format := if isHls video.objectKey then "hls" else "mp4"
      createdAt := video.createdAt
      viewerUrl := viewerUrl publicOrigin video.id
      privacy := video.privacy })

/-- `get` of the storage handlers. -/
def getStorage (user : CurrentUser) : TenantEffect HttpError StorageSummary :=
  match user.storageConfig with
  | none => throw (.notFound "Storage is not configured")
  | some "" => throw (.notFound "Storage is not configured")
  | some storageConfig => do
    let config ← (decodeStorage storageConfig).inl
    pure (storageSummary config)

/-- `set` of the storage handlers. `parseUrl` is what `new URL` reads of an endpoint: its protocol
and its host name. -/
def setStorage (parseUrl : String → Option (String × String)) (user : CurrentUser)
    (payload : StorageConfig) : TenantEffect HttpError StorageSummary := do
  match parseUrl payload.endpoint with
  | none => throw (.invalidRequest "Storage endpoint must be a valid URL")
  | some (protocol, hostname) =>
    if protocol ≠ "https:" ∧ hostname ≠ "localhost" then
      throw (.invalidRequest "Storage endpoint must use HTTPS")
    else do
      (ObjectStorage.test payload).mapError storageUnavailable
      let encrypted ← (Vault.encrypt payload).mapError internalError
      (Repository.setStorageConfig user.id (some encrypted)).mapError internalError
      pure (storageSummary payload)

/-- `remove` of the storage handlers. -/
def removeStorage (user : CurrentUser) : TenantEffect HttpError Unit :=
  (Repository.setStorageConfig user.id none).mapError internalError

/-! ## Requests -/

/-- A request of an authenticated user. -/
inductive UserRequest
  | list
  | create (payload : CreatePayload)
  | signPart (id uploadId : String) (partNumber : ℕ)
  | signAsset (id uploadId name : String)
  | complete (id uploadId : String) (parts : List Part)
  | abort (id uploadId : String)
  | rename (id name : String)
  | privacy (id : String) (payload : PrivacyPayload)
  | archive (id : String)
  | getStorage
  | setStorage (payload : StorageConfig)
  | removeStorage

/-- A request of a user, or of anyone for a recording. -/
inductive TenantRequest
  | user (identity : AuthIdentity) (request : UserRequest)
  | view (request : HttpServerRequest) (id : String)
  | playlist (request : HttpServerRequest) (id : String)

inductive Response
  | listed (uploads : List ListedUpload)
  | created (upload : UploadCreated)
  | signedPart (url : String)
  | signedAsset (url contentType : String)
  | completed (viewerUrl : String)
  | aborted
  | renamed (name : String)
  | privacySet (privacy : VideoPrivacy)
  | archived
  | storage (summary : StorageSummary)
  | storageRemoved
  | viewed (view : VideoView)
  | served (playlist : String)

variable (derivePassword : String → List UInt8 → List UInt8)
  (parseUrl : String → Option (String × String)) (verified : Option (List String))

def UserRequest.handle (user : CurrentUser) : UserRequest → TenantEffect HttpError Response
  | list => Response.listed <$> Blip.Server.list publicOrigin user
  | create payload => Response.created <$> (Blip.Server.create publicOrigin user payload).inl
  | signPart id uploadId partNumber =>
    Response.signedPart <$> (Blip.Server.signPart user id uploadId partNumber).inl
  | signAsset id uploadId name =>
    (fun signed => Response.signedAsset signed.1 signed.2) <$>
      (Blip.Server.signAsset user id uploadId name).inl
  | complete id uploadId parts =>
    Response.completed <$> (Blip.Server.complete publicOrigin user id uploadId parts).inl
  | abort id uploadId => (fun _ => Response.aborted) <$> (Blip.Server.abort user id uploadId).inl
  | rename id name => Response.renamed <$> (Blip.Server.rename user id name).inl
  | privacy id payload =>
    Response.privacySet <$> (Blip.Server.privacy derivePassword user id payload).inl
  | archive id => (fun _ => Response.archived) <$> (Blip.Server.archive user id).inl
  | getStorage => Response.storage <$> Blip.Server.getStorage user
  | setStorage payload => Response.storage <$> Blip.Server.setStorage parseUrl user payload
  | removeStorage => (fun _ => Response.storageRemoved) <$> Blip.Server.removeStorage user

/-- `userAuthLayer`, after the key or the session has been verified. -/
def authenticated (identity : AuthIdentity) (handler : CurrentUser → TenantEffect HttpError Response) :
    TenantEffect HttpError Response := do
  let createdAt : String ← (Effect.succeed .toISOString : Effect HttpError String).inl
  -- A failure of the repository is a defect, and so is a user that is gone again.
  match ← (Repository.ensureUser identity.id identity.name createdAt).mapError fun _ => .defect with
  | none => throw .defect
  | some row =>
    handler
      { id := identity.id
        name := row.name
        storageConfig := row.storageConfig }

def TenantRequest.handle : TenantRequest → TenantEffect HttpError Response
  | user identity request => authenticated identity fun user =>
      request.handle publicOrigin derivePassword parseUrl user
  | view request id => Response.viewed <$> (Blip.Server.view publicOrigin verified request id).inl
  | playlist request id => Response.served <$> (Blip.Server.playlist verified request id).inl

end

/-! ## What the calls do -/

/-- What the server's requests share, with the history that isolation is about: the ids drawn, the
records that a request has tried to store, and the requests to the storage, each with the
configuration and the key it names. -/
structure Tenants where
  world : World
  users : String → Option UserRow
  ids : List String
  created : List VideoRecord
  operations : List (StorageConfig × String)

/-- The ids a call has drawn. -/
def Call.drawn : (c : Call) → c.Answer → List String
  | randomUUID, id => [id]
  | _, _ => []

/-- The record a call stores. -/
def Call.stored : Call → List VideoRecord
  | createVideo video => [video]
  | _ => []

/-- The configuration and the key a call uses in the storage. -/
def Call.storage : Call → List (StorageConfig × String)
  | createMultipartUpload config key _ _ => [(config, key)]
  | completeMultipartUpload config key _ _ => [(config, key)]
  | abortMultipartUpload config key _ => [(config, key)]
  | headObject config key => [(config, key)]
  | getObject config key => [(config, key)]
  | presignUrl request => [(request.config, request.key)]
  | _ => []

def UserCall.storage : UserCall → List (StorageConfig × String)
  | createTestUpload config key => [(config, key)]
  | abortTestUpload config key _ => [(config, key)]
  | _ => []

/-- What the list of a user's recordings tells of one. -/
def VideoRow.listed (row : VideoRow) : ListedVideo where
  id := row.id
  name := row.name
  objectKey := row.objectKey
  status := row.status
  createdAt := row.createdAt
  privacy := row.privacy

def Tenants.setUser (s : Tenants) (id : String) (row : UserRow) : Tenants :=
  { s with users := fun key => if key = id then some row else s.users key }

/-- The outcomes of a call of the user's own. -/
def UserCall.exec (storageConfigOf : String → Option StorageConfig) (s : Tenants) :
    (c : UserCall) → c.Answer → Tenants → Prop
  | upsertUser id name _, answer, s' =>
    s' = s.setUser id ⟨name, (s.users id).bind (·.storageConfig)⟩ ∨ s' = s ∧ ∃ e, answer = .error e
  | selectUser id, answer, s' => s' = s ∧ ∀ row, answer = .ok row → row = s.users id
  | .setStorageConfig userId storageConfig, answer, s' =>
    s' = { s with
      users := fun key =>
        if key = userId then (s.users key).map fun row => { row with storageConfig }
        else s.users key } ∨ s' = s ∧ ∃ e, answer = .error e
  | .listOwnedVideos userId, answer, s' => s' = s ∧ ∀ videos, answer = .ok videos →
      videos.Pairwise (fun left right => right.createdAt ≤ left.createdAt) ∧ videos.Nodup ∧
        ∀ video, video ∈ videos ↔ ∃ id row, s.world.videos id = some row ∧
          row.userId = userId ∧ row.archivedAt = none ∧ video = row.listed
  | encrypt config, answer, s' =>
    s' = s ∧ ∀ value, answer = .ok value → storageConfigOf value = some config
  | createTestUpload config key, _, s' =>
    s' = { s with operations := s.operations ++ (createTestUpload config key).storage }
  | abortTestUpload config key uploadId, _, s' =>
    s' = { s with operations := s.operations ++ (abortTestUpload config key uploadId).storage }

/-- The outcomes of a call. Ids that are drawn have not been drawn before. -/
def TenantCall.exec (storageConfigOf : String → Option StorageConfig) (s : Tenants) :
    (c : TenantCall) → TenantAnswer c → Tenants → Prop
  | .inl c, answer, s' => (∀ id ∈ c.drawn answer, IsUuid id ∧ id ∉ s.ids) ∧
      ∃ world, c.exec storageConfigOf s.world answer world ∧
        s' = { world
               users := s.users
               ids := s.ids ++ c.drawn answer
               created := s.created ++ c.stored
               operations := s.operations ++ c.storage }
  | .inr c, answer, s' => c.exec storageConfigOf s answer s'

/-- The server before its first request. -/
structure Tenants.Initial (s : Tenants) : Prop where
  videos : ∀ id, s.world.videos id = none
  ids : s.ids = []
  created : s.created = []
  operations : s.operations = []

/-- The requests of any number of users, concurrently. -/
def tenancy (publicOrigin : String) (derivePassword : String → List UInt8 → List UInt8)
    (parseUrl : String → Option (String × String)) (verified : Option (List String))
    (storageConfigOf : String → Option StorageConfig) :=
  pool (TenantCall.exec storageConfigOf)
    (fun request : TenantRequest =>
      (request.handle publicOrigin derivePassword parseUrl verified).run) Tenants.Initial

end Blip.Server
