import Blip.Common.Program
import Mathlib.Data.Finset.Basic

/-!
# The server's records, services and errors

The data of `packages/blip-server-domain`, and the calls the handlers make on the database, the
object storage, the vault and the runtime. A call's answer is the environment's: a service can fail
at any call. Services that only log, or that no handler here uses, are left out.
-/

namespace Blip.Server

/-- `VideoRecord["status"]`. -/
inductive VideoStatus
  | uploading
  | complete
deriving DecidableEq, Repr

/-- `VideoPrivacy`. -/
inductive VideoPrivacy
  | «public»
  | password
  | «private»
deriving DecidableEq, Repr

/-- The privacy settings a request can name. -/
def VideoPrivacy.ofString? : String → Option VideoPrivacy
  | "public" => some .«public»
  | "password" => some .password
  | "private" => some .«private»
  | _ => none

structure StorageConfig where
  endpoint : String
  region : String
  bucket : String
  accessKeyId : String
  secretAccessKey : String
  forcePathStyle : Bool
deriving DecidableEq, Repr

/-- A recording as the handlers read it. -/
structure VideoRecord where
  id : String
  userId : String
  name : String
  createdAt : String
  objectKey : String
  uploadId : String
  storageConfig : String
  status : VideoStatus
  privacy : VideoPrivacy
  passwordHash : Option String
deriving DecidableEq, Repr

/-- `CurrentUser`, which the authentication middleware provides. -/
structure CurrentUser where
  id : String
  name : String
  storageConfig : Option String
deriving DecidableEq, Repr

structure AuthIdentity where
  id : String
  name : String
deriving DecidableEq, Repr

/-- The part of a request the handlers read. `protocol` is that of the URL, when it parses. -/
structure HttpServerRequest where
  headers : List (String × String)
  cookies : List (String × String)
  protocol : Option String
deriving DecidableEq, Repr

/-- One uploaded part, as the client names it. -/
structure Part where
  partNumber : ℕ
  etag : String
deriving DecidableEq, Repr

/-- A service's failure, with the message it is reported by: its own, or that of its cause. -/
structure Failure where
  message : String
deriving DecidableEq, Repr

/-- What a handler fails with. A defect is an error no handler declares. -/
inductive HttpError
  | unauthorized (message : String)
  | notFound (message : String)
  | invalidRequest (message : String)
  | storageUnavailable (message : String)
  | passwordRequired (message : String)
  | internalError (message : String)
  | policyDenied (message : String)
  | defect
deriving DecidableEq, Repr

/-- How an S3 request fails. -/
inductive S3Error
  | notFound
  | other (message : String)
deriving DecidableEq, Repr

inductive PresignMethod
  | get
  | put
deriving DecidableEq, Repr

/-- A request to sign, for the object at a key. -/
structure PresignRequest where
  method : PresignMethod
  config : StorageConfig
  key : String
  contentType : Option String
  query : List (String × String)
  expiresIn : ℕ
deriving DecidableEq, Repr

/-- The calls the handlers make. -/
inductive Call
  | findOwnedVideo (userId id : String)
  | findVideo (id : String)
  | createVideo (video : VideoRecord)
  | setVideoName (id name : String)
  | setVideoPrivacy (id : String) (privacy : VideoPrivacy) (passwordHash : Option String)
  | archiveVideo (id archivedAt : String)
  | markVideoComplete (id : String)
  | deleteVideo (id : String)
  | createMultipartUpload (config : StorageConfig) (key contentType cacheControl : String)
  | completeMultipartUpload (config : StorageConfig) (key uploadId : String) (parts : List Part)
  | abortMultipartUpload (config : StorageConfig) (key uploadId : String)
  | headObject (config : StorageConfig) (key : String)
  | getObject (config : StorageConfig) (key : String)
  | presignUrl (request : PresignRequest)
  | decrypt (value : String)
  | encryptString (value : String)
  | decryptString (value : String)
  | verifySession (headers : List (String × String))
  | randomUUID
  | getRandomValues (count : ℕ)
  | toISOString
deriving DecidableEq

/-- What each call answers. -/
def Call.Answer : Call → Type
  | findOwnedVideo _ _ => Except Failure (Option VideoRecord)
  | findVideo _ => Except Failure (Option VideoRecord)
  | createVideo _ => Except Failure Unit
  | setVideoName _ _ => Except Failure Unit
  | setVideoPrivacy _ _ _ => Except Failure Unit
  | archiveVideo _ _ => Except Failure Unit
  | markVideoComplete _ => Except Failure Unit
  | deleteVideo _ => Except Failure Unit
  | createMultipartUpload _ _ _ _ => Except S3Error (Option String)
  | completeMultipartUpload _ _ _ _ => Except S3Error Unit
  | abortMultipartUpload _ _ _ => Except S3Error Unit
  | headObject _ _ => Except S3Error Unit
  | getObject _ _ => Except S3Error (Option String)
  | presignUrl _ => Except S3Error String
  | decrypt _ => Except Failure StorageConfig
  | encryptString _ => Except Failure String
  | decryptString _ => Except Failure String
  | verifySession _ => Option AuthIdentity
  | randomUUID => String
  | getRandomValues _ => List UInt8
  | toISOString => String

/-- A computation on the services. -/
abbrev Effect (ε α : Type) := Fallible Call Call.Answer ε α

namespace Effect

variable {ε α : Type}

/-- A call that cannot fail. -/
def succeed (c : Call) : Effect ε c.Answer := ExceptT.lift (Prog.ask c)

end Effect

/-! ## Services -/

namespace Repository

def findOwnedVideo (userId id : String) : Effect Failure (Option VideoRecord) :=
  ExceptT.mk (Prog.ask (Call.findOwnedVideo userId id))

def findVideo (id : String) : Effect Failure (Option VideoRecord) :=
  ExceptT.mk (Prog.ask (Call.findVideo id))

def createVideo (video : VideoRecord) : Effect Failure Unit :=
  ExceptT.mk (Prog.ask (Call.createVideo video))

def setVideoName (id name : String) : Effect Failure Unit :=
  ExceptT.mk (Prog.ask (Call.setVideoName id name))

def setVideoPrivacy (id : String) (privacy : VideoPrivacy) (passwordHash : Option String) :
    Effect Failure Unit :=
  ExceptT.mk (Prog.ask (Call.setVideoPrivacy id privacy passwordHash))

def archiveVideo (id archivedAt : String) : Effect Failure Unit :=
  ExceptT.mk (Prog.ask (Call.archiveVideo id archivedAt))

def markVideoComplete (id : String) : Effect Failure Unit :=
  ExceptT.mk (Prog.ask (Call.markVideoComplete id))

def deleteVideo (id : String) : Effect Failure Unit := ExceptT.mk (Prog.ask (Call.deleteVideo id))

end Repository

namespace Vault

def decrypt (value : String) : Effect Failure StorageConfig := ExceptT.mk (Prog.ask (Call.decrypt value))

def encryptString (value : String) : Effect Failure String :=
  ExceptT.mk (Prog.ask (Call.encryptString value))

def decryptString (value : String) : Effect Failure String :=
  ExceptT.mk (Prog.ask (Call.decryptString value))

end Vault

/-! ## Object storage -/

namespace ObjectStorage

/-- `UPLOAD_URL_TTL_SECONDS`. -/
def uploadUrlTtlSeconds : ℕ := 15 * 60

/-- `VIEW_URL_TTL_SECONDS`. -/
def viewUrlTtlSeconds : ℕ := 60 * 60

/-- `run`: any failure becomes an `ObjectStorageError` with the failure as its cause. -/
def run {α : Type} (effect : Effect S3Error α) : Effect Failure α :=
  effect.mapError fun
    | .notFound => ⟨"NotFound"⟩
    | .other message => ⟨message⟩

def presign (config : StorageConfig) (key : String) (method : PresignMethod)
    (contentType : Option String) (query : List (String × String)) : Effect Failure String :=
  run (ExceptT.mk (Prog.ask (Call.presignUrl
    { method, config, key, contentType, query,
      expiresIn := if method = .get then viewUrlTtlSeconds else uploadUrlTtlSeconds })))

/-- `normalizeEtag`, given the trimmed text. -/
def quoteEtag (value : String) : String :=
  if value.startsWith "\"" && value.endsWith "\"" then value else "\"" ++ value ++ "\""

def createUpload (config : StorageConfig) (key contentType : String) : Effect Failure String :=
  run do
    match ← (ExceptT.mk (Prog.ask
        (Call.createMultipartUpload config key contentType "private, max-age=0")) :
          Effect S3Error (Option String)) with
    | none => throw (.other "Storage did not return an upload ID")
    | some "" => throw (.other "Storage did not return an upload ID")
    | some uploadId => pure uploadId

def signPart (config : StorageConfig) (key uploadId : String) (partNumber : ℕ) :
    Effect Failure String :=
  presign config key .put none [("uploadId", uploadId), ("partNumber", toString partNumber)]

def abortUpload (config : StorageConfig) (key uploadId : String) : Effect Failure Unit :=
  run (ExceptT.mk (Prog.ask (Call.abortMultipartUpload config key uploadId)))

/-- A missing object is no failure here. -/
def objectExists (config : StorageConfig) (key : String) : Effect Failure Bool :=
  run (((do ExceptT.mk (Prog.ask (Call.headObject config key)); pure true) :
      Effect S3Error Bool).catchAll fun
    | .notFound => pure false
    | .other message => throw (.other message))

def signView (config : StorageConfig) (key : String) : Effect Failure String :=
  presign config key .get none []

def signPut (config : StorageConfig) (key contentType : String) : Effect Failure String :=
  presign config key .put (some contentType) []

def readText (config : StorageConfig) (key : String) : Effect Failure String :=
  run do
    match ← (ExceptT.mk (Prog.ask (Call.getObject config key)) : Effect S3Error (Option String)) with
    | none => throw (.other "Storage returned an empty object")
    | some text => pure text

end ObjectStorage

end Blip.Server
