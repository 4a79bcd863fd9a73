import Blip.Server.Password
import Mathlib.Data.Finset.Card

/-!
# The request handlers

The handlers of `packages/blip-server-app/src/server/Http.ts` for viewing, uploading and managing
recordings, with the errors they fail with. `derivePassword`, the public origin and the optional
`VerifiedPasswordHashes` service are parameters. Authentication has already happened: a handler that
needs a user is given one.
-/

namespace Blip.Server

/-- `PART_SIZE`. -/
def partSize : ℕ := 8 * 1024 * 1024

/-- `MAX_RECORDING_SIZE`. -/
def maxRecordingSize : ℕ := partSize * 10000

/-- A repository or vault failure as an internal error. -/
def internal {α : Type} (effect : Effect Failure α) : Effect HttpError α :=
  effect.mapError fun failure => .internalError ("Internal server error: " ++ failure.message)

/-- A storage failure as an unavailable storage service. -/
def unavailable {α : Type} (effect : Effect Failure α) : Effect HttpError α :=
  effect.mapError fun failure =>
    .storageUnavailable ("Storage service unavailable: " ++ failure.message)

def decodeStorage (encrypted : String) : Effect HttpError StorageConfig :=
  internal (Vault.decrypt encrypted)

def requestIsOwner (request : HttpServerRequest) (video : VideoRecord) : Effect HttpError Bool := do
  let identity ← Effect.succeed (.verifySession request.headers)
  pure (identity.map (·.id) == some video.userId)

def requireOwnedVideo (userId id : String) : Effect HttpError VideoRecord := do
  match ← internal (Repository.findOwnedVideo userId id) with
  | some video => pure video
  | none => throw (.notFound "Recording not found")

/-! ## Viewing -/

/-- What `view` answers. -/
structure VideoView where
  id : String
  name : Option String
  createdAt : Option String
  privacy : VideoPrivacy
  owner : Bool
  source : Option String
deriving DecidableEq, Repr

section

variable (derivePassword : String → List UInt8 → List UInt8) (publicOrigin : String)
  (verified : Option (List String))

/-- Where a granted viewer finds the media. -/
def videoSource (video : VideoRecord) : Effect HttpError String := do
  let config ← decodeStorage video.storageConfig
  if isHls video.objectKey then pure (playlistUrl publicOrigin video.id)
  else unavailable (ObjectStorage.signView config video.objectKey)

def view (request : HttpServerRequest) (id : String) : Effect HttpError VideoView := do
  match ← internal (Repository.findVideo id) with
  | none => throw (.notFound "Recording not found")
  | some video =>
    if video.status ≠ .complete then throw (.notFound "Recording not found")
    else do
      let owner ← requestIsOwner request video
      let answer (source : Option String) : VideoView :=
        { id := video.id
          name := if owner then some video.name else none
          createdAt := if owner then some video.createdAt else none
          privacy := video.privacy
          owner
          source := source.filter (· ≠ "") }
      if owner ∨ video.privacy = .«public» then do
        let source ← videoSource publicOrigin video
        pure (answer (some source))
      else if video.privacy = .password then
        match video.passwordHash with
        | none => throw (.passwordRequired "This recording requires a password")
        | some hash => do
          if hash = "" then throw (.passwordRequired "This recording requires a password")
          else do
            let hashes ← getVerifiedPasswordHashes verified request
            if hash ∈ hashes then do
              let source ← videoSource publicOrigin video
              pure (answer (some source))
            else throw (.passwordRequired "This recording requires a password")
      else pure (answer none)

/-- The playlist with every asset name replaced by its signed URL. -/
def rewritePlaylist (config : StorageConfig) (objectKey : String) (playlist : String) :
    Effect HttpError String := do
  let names := assetNames playlist.toList
  let urls ← names.mapM fun name =>
    unavailable (ObjectStorage.signView config (keyPrefix objectKey ++ String.ofList name))
  pure (String.ofList ((names.zip urls).foldl
    (fun value entry => replaceAll value entry.1 entry.2.toList) playlist.toList))

def playlist (request : HttpServerRequest) (id : String) : Effect HttpError String := do
  match ← internal (Repository.findVideo id) with
  | none => throw (.notFound "Recording not found")
  | some video =>
    if video.status ≠ .complete ∨ ¬ isHls video.objectKey then
      throw (.notFound "Recording not found")
    else do
      let owner ← requestIsOwner request video
      let authorized ← (if owner ∨ video.privacy = .«public» then pure true
        else if video.privacy = .password then
          match video.passwordHash with
          | none => pure false
          | some hash =>
            if hash = "" then pure false
            else do
              let hashes ← getVerifiedPasswordHashes verified request
              pure (decide (hash ∈ hashes))
        else pure false : Effect HttpError Bool)
      if authorized then do
        let config ← decodeStorage video.storageConfig
        let playlist ← unavailable (ObjectStorage.readText config video.objectKey)
        rewritePlaylist config video.objectKey playlist
      else if video.privacy = .password then
        throw (.passwordRequired "This recording requires a password")
      else throw (.notFound "Recording not found")

/-- `unlock`, which answers `{ ok: true }` and sets this cookie. -/
def unlock (request : HttpServerRequest) (id password : String) : Effect HttpError SetCookie := do
  match ← internal (Repository.findVideo id) with
  | none => throw (.notFound "Recording not found")
  | some video =>
    if video.status ≠ .complete ∨ video.privacy ≠ .password then
      throw (.notFound "Recording not found")
    else
      match video.passwordHash with
      | none => throw (.notFound "Recording not found")
      | some hash =>
        if hash = "" then throw (.notFound "Recording not found")
        else if ¬ verifyPassword derivePassword password hash then
          throw (.unauthorized "Incorrect password")
        else setVerifiedPasswordCookie verified request hash

/-! ## Uploading -/

structure CreatePayload where
  filename : String
  size : Option ℤ
  format : Option String
deriving DecidableEq, Repr

structure UploadCreated where
  id : String
  uploadId : String
  partSize : ℕ
  viewerUrl : String
deriving DecidableEq, Repr

/-- The save that a new upload needs; when it fails the upload is aborted, and the save's failure
stands whatever that does. -/
def saveOrAbort (config : StorageConfig) (video : VideoRecord) : Effect HttpError Unit :=
  (internal (Repository.createVideo video)).catchAll fun error => do
    (ObjectStorage.abortUpload config video.objectKey video.uploadId).catchAll fun _ => pure ()
    throw error

def create (user : CurrentUser) (payload : CreatePayload) : Effect HttpError UploadCreated := do
  match user.storageConfig with
  | none => throw (.notFound "Storage is not configured")
  | some "" => throw (.notFound "Storage is not configured")
  | some storageConfig =>
    if payload.size.any fun (size : ℤ) => size ≤ 0 ∨ (maxRecordingSize : ℤ) < size then
      throw (.invalidRequest "Recording size is outside the supported range")
    else do
      let config ← decodeStorage storageConfig
      let id : String ← Effect.succeed .randomUUID
      if payload.format.any fun format => format ≠ "mp4" ∧ format ≠ "hls" then
        throw (.invalidRequest "Recording format must be MP4 or HLS")
      else
        let name := recordingName payload.filename
        if name = "" then throw (.invalidRequest "Recording name is required")
        else do
          let hls := payload.format = some "hls"
          let objectKey :=
            if hls then "users/" ++ user.id ++ "/recordings/" ++ id ++ "/playlist.m3u8"
            else "users/" ++ user.id ++ "/recordings/" ++ id ++ ".mp4"
          let uploadId ← unavailable (ObjectStorage.createUpload config objectKey
            (if hls then "application/vnd.apple.mpegurl" else "video/mp4"))
          let createdAt : String ← Effect.succeed .toISOString
          saveOrAbort config
            { id
              userId := user.id
              name
              createdAt
              objectKey
              uploadId
              storageConfig
              status := .uploading
              privacy := .«public»
              passwordHash := none }
          pure { id, uploadId, partSize, viewerUrl := viewerUrl publicOrigin id }

def signPart (user : CurrentUser) (id uploadId : String) (partNumber : ℕ) :
    Effect HttpError String := do
  let video ← requireOwnedVideo user.id id
  if video.uploadId ≠ uploadId ∨ video.status ≠ .uploading then
    throw (.invalidRequest "Invalid upload session")
  else do
    let config ← decodeStorage video.storageConfig
    unavailable (ObjectStorage.signPart config video.objectKey video.uploadId partNumber)

/-- The content type an asset is signed for, when its name is one of the server's. -/
def assetContentType (name : String) : Option String :=
  if name = "init.mp4" then some "video/mp4"
  else if isSegmentName name then some "video/iso.segment"
  else none

def signAsset (user : CurrentUser) (id uploadId name : String) :
    Effect HttpError (String × String) := do
  let video ← requireOwnedVideo user.id id
  if video.uploadId ≠ uploadId ∨ video.status ≠ .uploading ∨ ¬ isHls video.objectKey then
    throw (.invalidRequest "Invalid HLS upload session")
  else
    match assetContentType name with
    | none => throw (.invalidRequest "Invalid HLS asset name")
    | some contentType => do
      let config ← decodeStorage video.storageConfig
      let url ← unavailable (ObjectStorage.signPut config (keyPrefix video.objectKey ++ name)
        contentType)
      pure (url, contentType)

/-- `completeUpload` sends the parts in the order of their numbers, with quoted tags. -/
def completedParts (parts : List Part) : List Part :=
  (parts.mergeSort fun left right => left.partNumber ≤ right.partNumber).map fun part =>
    { part with etag := ObjectStorage.quoteEtag (trim part.etag) }

def completeUpload (config : StorageConfig) (key uploadId : String) (parts : List Part) :
    Effect Failure Unit :=
  ObjectStorage.run (ExceptT.mk (Prog.ask
    (Call.completeMultipartUpload config key uploadId (completedParts parts))))

/-- A failed completion still counts when the object turns out to exist. -/
def completeOrReconcile (config : StorageConfig) (video : VideoRecord) (parts : List Part) :
    Effect Failure Unit :=
  (completeUpload config video.objectKey video.uploadId parts).catchAll fun _ => do
    let found ← ObjectStorage.objectExists config video.objectKey
    if found then pure () else throw ⟨"Storage service unavailable"⟩

def complete (user : CurrentUser) (id uploadId : String) (parts : List Part) :
    Effect HttpError String := do
  let video ← requireOwnedVideo user.id id
  if video.uploadId ≠ uploadId then throw (.invalidRequest "Invalid upload session")
  else if video.status = .complete then pure (viewerUrl publicOrigin video.id)
  else if parts.length = 0 ∨ (parts.map (·.partNumber)).toFinset.card ≠ parts.length then
    throw (.invalidRequest "Parts must be non-empty and unique")
  else do
    let config ← decodeStorage video.storageConfig
    unavailable (completeOrReconcile config video parts)
    internal (Repository.markVideoComplete video.id)
    pure (viewerUrl publicOrigin video.id)

def abort (user : CurrentUser) (id uploadId : String) : Effect HttpError Unit := do
  let video ← requireOwnedVideo user.id id
  if video.uploadId ≠ uploadId ∨ video.status ≠ .uploading then
    throw (.invalidRequest "Invalid upload session")
  else do
    let config ← decodeStorage video.storageConfig
    unavailable (ObjectStorage.abortUpload config video.objectKey video.uploadId)
    internal (Repository.deleteVideo video.id)

/-! ## Managing -/

def rename (user : CurrentUser) (id name : String) : Effect HttpError String := do
  let video ← requireOwnedVideo user.id id
  let name := trim name
  if textLength name = 0 ∨ 256 < textLength name then
    throw (.invalidRequest "Recording name must be between 1 and 256 characters")
  else do
    internal (Repository.setVideoName video.id name)
    pure name

structure PrivacyPayload where
  privacy : String
  password : Option String
deriving DecidableEq, Repr

/-- The hash to store under a password setting: of the password given, or the one stored. -/
def passwordHashFor (video : VideoRecord) (password : Option String) :
    Effect HttpError (Option String) :=
  match password with
  | none => pure video.passwordHash
  | some password =>
    if textLength password < 4 ∨ 256 < textLength password then
      throw (.invalidRequest "Password must be between 4 and 256 characters")
    else do
      let hash ← hashPassword derivePassword password
      pure (some hash)

def privacy (user : CurrentUser) (id : String) (payload : PrivacyPayload) :
    Effect HttpError VideoPrivacy := do
  let video ← requireOwnedVideo user.id id
  match VideoPrivacy.ofString? payload.privacy with
  | none => throw (.invalidRequest "Invalid recording privacy setting")
  | some .password => do
    let passwordHash ← passwordHashFor derivePassword video payload.password
    if passwordHash = none ∨ passwordHash = some "" then
      throw (.invalidRequest "Enter a password for this recording")
    else do
      internal (Repository.setVideoPrivacy video.id .password passwordHash)
      pure .password
  | some setting => do
    internal (Repository.setVideoPrivacy video.id setting none)
    pure setting

def archive (user : CurrentUser) (id : String) : Effect HttpError Unit := do
  let video ← requireOwnedVideo user.id id
  let archivedAt ← Effect.succeed .toISOString
  internal (Repository.archiveVideo video.id archivedAt)

end

end Blip.Server
