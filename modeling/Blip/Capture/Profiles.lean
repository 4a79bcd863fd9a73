import Blip.Capture.BundleFiles
import Blip.Capture.Recording

/-!
# Recording profiles

The profiles a recording is made with, from `profiles.rs`: how they are stored, what loading makes of a
file that is missing or broken, and how the URL of a server is imported. URLs are those of a library
that is given.
-/

namespace Blip.Capture

/-! ## Text -/

/-- `char::is_whitespace`. -/
def isWhitespace (c : Char) : Bool :=
  c.toNat ∈ [9, 10, 11, 12, 13, 32, 0x85, 0xA0, 0x1680, 0x2028, 0x2029, 0x202F, 0x205F, 0x3000] ||
    0x2000 ≤ c.toNat && c.toNat ≤ 0x200A

/-- `str::trim`. -/
def trim (text : String) : String :=
  String.ofList ((text.toList.dropWhile isWhitespace).reverse.dropWhile isWhitespace).reverse

/-- `Path::join` of a name. -/
def joinPath (base name : String) : String :=
  if base = "" ∨ base.toList.getLast? = some '/' then base ++ name else base ++ "/" ++ name

/-! ## URLs -/

/-- The URL library. -/
structure UrlLibrary (Url : Type) where
  parse : String → Option Url
  text : Url → String
  scheme : Url → String
  hostStr : Url → Option String
  queryPairs : Url → List (String × String)
  fragment : Url → Option String
  setFragment : Option String → Url → Url
  toFilePath : Url → Option String

section

variable {Url : Type} (urls : UrlLibrary Url)

/-- A server's URL and its token. -/
def splitServerUrl (value : String) : String × String :=
  match urls.parse (trim value) with
  | none => (trim value, "")
  | some url => (urls.text (urls.setFragment none url), (urls.fragment url).getD "")

def joinServerUrl (serverUrl token : String) : String :=
  match urls.parse (trim serverUrl) with
  | none => trim serverUrl ++ "#" ++ trim token
  | some url => urls.text (urls.setFragment (some (trim token)) url)

end

/-! ## Profiles -/

inductive RecordingTarget
  | «local» (folder : String)
  | remote (serverUrl : String)
deriving DecidableEq, Repr

inductive CompletionAction
  | reveal
  | copyToClipboard
  | none
deriving DecidableEq, Repr

structure RecordingProfile where
  id : String
  name : String
  target : RecordingTarget
  format : RecordingFormat
  completionAction : CompletionAction
deriving DecidableEq, Repr

structure RecordingProfiles where
  profiles : List RecordingProfile
  selectedProfileId : String
deriving DecidableEq, Repr

/-- `new_profile_id`, at a reading of the clock. -/
def newProfileId (nanos : ℕ) : String := "profile-" ++ toString nanos

namespace RecordingProfile

def ofFolder (id name folder : String) (completionAction : CompletionAction) : RecordingProfile where
  id
  name
  target := .local folder
  format := .mp4
  completionAction

def newLocal (nanos : ℕ) (folder : String) : RecordingProfile :=
  ofFolder (newProfileId nanos) "New profile" folder .reveal

def newRemote (nanos : ℕ) (name serverUrl : String) : RecordingProfile where
  id := newProfileId nanos
  name
  target := .remote serverUrl
  format := .mp4
  completionAction := .none

def duplicate (profile : RecordingProfile) (nanos : ℕ) : RecordingProfile :=
  { profile with
    id := newProfileId nanos
    name := profile.name ++ " copy" }

def validate {Url : Type} (urls : UrlLibrary Url) (profile : RecordingProfile) : Except String Unit :=
  if trim profile.name = "" then .error "Profile name cannot be empty"
  else
    match profile.target with
    | .local folder =>
      if profile.format = .hls then .error "Local recordings must use MP4 or Blip Bundle"
      else if folder = "" then .error "Choose a local recording folder"
      else .ok ()
    | .remote serverUrl =>
      if profile.format = .blipBundle then .error "Blip server recordings must use HLS or MP4"
      else
        match urls.parse (trim serverUrl) with
        | none => .error "Enter a valid Blip server URL"
        | some url =>
          if urls.scheme url ≠ "https" ∧
              ¬ (urls.scheme url = "http" ∧ urls.hostStr url = some "localhost") then
            .error "The Blip server URL must use HTTPS"
          else if (urls.fragment url).getD "" = "" then
            .error "The Blip server URL must include its access token"
          else .ok ()

end RecordingProfile

/-! ## As JSON -/

def RecordingFormat.codec : Codec RecordingFormat :=
  .enumeration [(.mp4, "mp4"), (.hls, "hls"), (.blipBundle, "blip_bundle")]
    fun value => by cases value <;> rfl

def CompletionAction.codec : Codec CompletionAction :=
  .enumeration [(.reveal, "reveal"), (.copyToClipboard, "copy_to_clipboard"), (.none, "none")]
    fun value => by cases value <;> rfl

/-- What is read of a target, by the name of its variant. -/
def RecordingTarget.variant : String → Option (Json → Option RecordingTarget)
  | "local" => some <| Codec.readRecord ["folder"] fun fields =>
    (Codec.string.required "folder" fields).map .local
  | "remote" => some <| Codec.readRecord ["server_url"] fun fields =>
    (Codec.string.required "server_url" fields).map .remote
  | _ => none

def RecordingTarget.codec : Codec RecordingTarget where
  encode
    | .local folder => .obj [("type", .str "local"), ("folder", Codec.string.encode folder)]
    | .remote serverUrl =>
      .obj [("type", .str "remote"), ("server_url", Codec.string.encode serverUrl)]
  decode := Codec.readTagged "type" variant
  decode_encode target := by cases target <;> rfl

def RecordingProfile.codec : Codec RecordingProfile :=
  .record ["id", "name", "target", "format", "completion_action"]
    (fun profile => [
      ("id", Codec.string.encode profile.id),
      ("name", Codec.string.encode profile.name),
      ("target", RecordingTarget.codec.encode profile.target),
      ("format", RecordingFormat.codec.encode profile.format),
      ("completion_action", CompletionAction.codec.encode profile.completionAction)])
    (fun fields => do
      let id ← Codec.string.required "id" fields
      let name ← Codec.string.required "name" fields
      let target ← RecordingTarget.codec.required "target" fields
      let format ← RecordingFormat.codec.required "format" fields
      let completionAction ← CompletionAction.codec.required "completion_action" fields
      pure {
        id
        name
        target
        format
        completionAction })
    (by decide) (fun _ => .refl _) (fun _ => by simp)

def RecordingProfiles.codec : Codec RecordingProfiles :=
  .record ["profiles", "selected_profile_id"]
    (fun settings => [
      ("profiles", (Codec.list RecordingProfile.codec).encode settings.profiles),
      ("selected_profile_id", Codec.string.encode settings.selectedProfileId)])
    (fun fields => do
      let profiles ← (Codec.list RecordingProfile.codec).required "profiles" fields
      let selectedProfileId ← Codec.string.required "selected_profile_id" fields
      pure {
        profiles
        selectedProfileId })
    (by decide) (fun _ => .refl _) (fun _ => by simp)

/-! ## The stored profiles -/

namespace RecordingProfiles

/-- The profiles there are before any are saved. -/
def default (home tempDir : String) : RecordingProfiles where
  profiles := [
    .ofFolder "desktop" "Desktop" (joinPath home "Desktop") .reveal,
    .ofFolder "documents" "Documents" (joinPath home "Documents") .reveal,
    .ofFolder "downloads" "Downloads" (joinPath home "Downloads") .reveal,
    .ofFolder "clipboard" "Clipboard" (joinPath tempDir "blip-capture") .copyToClipboard]
  selectedProfileId := "desktop"

/-- What loading makes of stored profiles: a selection that is not there becomes the first profile. -/
def loaded (home tempDir : String) (settings : RecordingProfiles) : RecordingProfiles :=
  match settings.profiles with
  | [] => default home tempDir
  | profile :: _ =>
    if settings.profiles.any (·.id = settings.selectedProfileId) then settings
    else { settings with selectedProfileId := profile.id }

/-- The name of the file in the folder of the application. -/
def fileName : String := "recording-profiles.json"

section

variable {Byte : Type} (serde : JsonText Byte)

def load (home tempDir : String) (files : Files String Byte) : RecordingProfiles :=
  match readToString serde files fileName with
  | .error _ => default home tempDir
  | .ok contents =>
    match serde.fromText RecordingProfiles.codec.decode contents with
    | .error _ => default home tempDir
    | .ok settings => settings.loaded home tempDir

/-- The file operations of a save. -/
def save (settings : RecordingProfiles) : List (FileOp String Byte) :=
  [.write fileName (serde.print (RecordingProfiles.codec.encode settings))]

variable {serde} in
/-- Saved profiles are loaded. -/
theorem load_save {home tempDir : String} {files : Files String Byte} (settings : RecordingProfiles) :
    load serde home tempDir (files.after (settings.save serde)) = settings.loaded home tempDir := by
  have hfile : files.after (settings.save serde) fileName =
      some (serde.print (RecordingProfiles.codec.encode settings)) := by
    simp only [save, Files.after, List.foldl_cons, List.foldl_nil, FileOp.apply,
      Function.update_self]
  rw [load, readToString_print serde hfile]
  dsimp only
  rw [serde.fromText_print (Codec.decode_encode _ _)]

end

def selectedIndex (settings : RecordingProfiles) : ℕ :=
  (settings.profiles.findIdx? (·.id = settings.selectedProfileId)).getD 0

def selected (settings : RecordingProfiles) : Option RecordingProfile :=
  settings.profiles[settings.selectedIndex]?

/-! ## Importing a server -/

section

variable {Url : Type} (urls : UrlLibrary Url)

/-- A profile that records to the server. -/
def ofServer (baseUrl : String) (profile : RecordingProfile) : Bool :=
  match profile.target with
  | .remote serverUrl => (splitServerUrl urls serverUrl).1 = baseUrl
  | .local _ => false

/-- `import_url`, at a reading of the clock. -/
def importUrl (nanos : ℕ) (settings : RecordingProfiles) (value : String) :
    Except String RecordingProfiles :=
  match urls.parse value with
  | none => .error "invalid Blip Capture URL"
  | some importUrl =>
    if urls.scheme importUrl ≠ "blip-capture" ∨ urls.hostStr importUrl ≠ some "add-profile" then
      .error "unsupported Blip Capture URL"
    else
      match (urls.queryPairs importUrl).lookup "url" with
      | none => .error "Blip Capture URL is missing its server URL"
      | some serverUrl =>
        let baseUrl := (splitServerUrl urls serverUrl).1
        match settings.profiles.findIdx? (ofServer urls baseUrl) with
        | some index =>
          .ok {
            profiles := settings.profiles.modify index fun profile =>
              { profile with target := .remote serverUrl }
            selectedProfileId := (settings.profiles[index]?.map RecordingProfile.id).getD "" }
        | none =>
          match urls.parse serverUrl with
          | none => .error "invalid Blip server URL"
          | some server =>
            let name := (urls.hostStr server).getD "Blip server"
            let profile := RecordingProfile.newRemote nanos name serverUrl
            match profile.validate urls with
            | .error message => .error message
            | .ok () =>
              .ok {
                profiles := settings.profiles ++ [profile]
                selectedProfileId := profile.id }

end

end RecordingProfiles

end Blip.Capture
