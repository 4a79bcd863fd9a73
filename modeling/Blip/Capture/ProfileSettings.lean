import Blip.Capture.Profiles
import Blip.Common.System

/-!
# The holders of the recording profiles

The profiles are in a file, in the toolbar and, while it is open, in the settings window, which works
on a copy of the toolbar's. An import reads the file; a selection in the toolbar's menu and a save of
the window write all of what they hold.
-/

namespace Blip.Capture

/-! ## URLs that open a bundle -/

/-- `Path::file_name`. -/
def pathFileName (path : List Char) : Option (List Char) :=
  match ((path.splitOn '/').filter fun part => part ≠ [] ∧ part ≠ ['.']).getLast? with
  | none => none
  | some name => if name = ['.', '.'] then none else some name

/-- `Path::extension`. -/
def pathExtension (path : String) : Option String := do
  let name ← pathFileName path.toList
  match (name.splitOn '.').reverse with
  | extension :: part :: parts =>
    if part = [] ∧ parts = [] then none else some (String.ofList extension)
  | _ => none

/-- A URL that opens an editor and imports no profile. -/
def opensBundle {Url : Type} (urls : UrlLibrary Url) (url : String) : Bool :=
  ((urls.parse url).any fun parsed =>
      urls.scheme parsed = "file" ∧
        ((urls.toFilePath parsed).any fun path => pathExtension path = some "blip")) ||
    pathExtension url = some "blip"

/-! ## The settings window -/

structure ProfileSettings where
  profiles : RecordingProfiles
  selected : ℕ
  nameInput : String
  destinationInput : String
  tokenInput : String
  error : Option String

namespace ProfileSettings

variable {Url : Type} (urls : UrlLibrary Url) (home : String)

/-- What a profile is with the texts of the three inputs. -/
def committed (name destination token : String) (profile : RecordingProfile) : RecordingProfile :=
  { profile with
    name := trim name
    target :=
      match profile.target with
      | .local _ => .local (trim destination)
      | .remote _ => .remote (joinServerUrl urls (trim destination) (trim token)) }

def commitInputs (settings : ProfileSettings) : ProfileSettings :=
  { settings with
    profiles.profiles := settings.profiles.profiles.modify settings.selected
      (committed urls settings.nameInput settings.destinationInput settings.tokenInput) }

/-- The destination and the token that are shown of a profile. -/
def shown (profile : RecordingProfile) : String × String :=
  match profile.target with
  | .local folder => (folder, "")
  | .remote serverUrl => splitServerUrl urls serverUrl

def loadInputs (settings : ProfileSettings) : ProfileSettings :=
  match settings.profiles.profiles[settings.selected]? with
  | none => settings
  | some profile =>
    { settings with
      nameInput := profile.name
      destinationInput := (shown urls profile).1
      tokenInput := (shown urls profile).2 }

/-- `ProfileSettings::new`. -/
def ofProfiles (profiles : RecordingProfiles) : ProfileSettings :=
  loadInputs urls {
    profiles
    selected := profiles.selectedIndex
    nameInput := ""
    destinationInput := ""
    tokenInput := ""
    error := none }

def select (settings : ProfileSettings) (index : ℕ) : ProfileSettings :=
  let settings := settings.commitInputs urls
  if settings.profiles.profiles[index]? = none then settings
  else
    loadInputs urls { settings with
      selected := index
      error := none }

/-- A profile is added at the end and selected. -/
def push (settings : ProfileSettings) (profile : RecordingProfile) : ProfileSettings :=
  let profiles := settings.profiles.profiles ++ [profile]
  loadInputs urls { settings with
    profiles.profiles := profiles
    selected := profiles.length - 1
    error := none }

def add (settings : ProfileSettings) (nanos : ℕ) : ProfileSettings :=
  (settings.commitInputs urls).push urls (.newLocal nanos (joinPath home "Desktop"))

def duplicate (settings : ProfileSettings) (nanos : ℕ) : ProfileSettings :=
  let settings := settings.commitInputs urls
  match settings.profiles.profiles[settings.selected]? with
  | none => settings
  | some profile => settings.push urls (profile.duplicate nanos)

def delete (settings : ProfileSettings) : ProfileSettings :=
  if settings.profiles.profiles.length = 1 then
    { settings with error := some "At least one recording profile is required" }
  else
    match settings.profiles.profiles[settings.selected]? with
    | none => settings
    | some removed =>
      let profiles := settings.profiles.profiles.eraseIdx settings.selected
      loadInputs urls { settings with
        profiles := {
          profiles
          selectedProfileId :=
            if settings.profiles.selectedProfileId = removed.id then
              profiles.head?.elim settings.profiles.selectedProfileId RecordingProfile.id
            else settings.profiles.selectedProfileId }
        selected := min settings.selected (profiles.length - 1)
        error := none }

/-- The target that a profile has after the user chooses a kind of target. -/
def retargeted (remote : Bool) (profile : RecordingProfile) : RecordingProfile :=
  match remote, profile.target with
  | true, .local _ =>
    { profile with
      target := .remote "https://blip.brendonovich.dev/"
      format := .mp4
      completionAction := .none }
  | false, .remote _ =>
    { profile with
      target := .local (joinPath home "Desktop")
      format := .mp4
      completionAction := .reveal }
  | _, _ => profile

def setRemote (settings : ProfileSettings) (remote : Bool) : ProfileSettings :=
  let settings := settings.commitInputs urls
  if settings.profiles.profiles[settings.selected]? = none then settings
  else
    loadInputs urls { settings with
      profiles.profiles :=
        settings.profiles.profiles.modify settings.selected (retargeted home remote)
      error := none }

def setCompletionAction (settings : ProfileSettings) (action : CompletionAction) : ProfileSettings :=
  { settings with
    profiles.profiles := settings.profiles.profiles.modify settings.selected fun profile =>
      { profile with completionAction := action } }

def setFormat (settings : ProfileSettings) (format : RecordingFormat) : ProfileSettings :=
  { settings with
    profiles.profiles := settings.profiles.profiles.modify settings.selected fun profile =>
      { profile with format } }

/-- The message of the first profile that is not valid. -/
def firstError (profiles : List RecordingProfile) : Option String :=
  profiles.findSome? fun profile =>
    match profile.validate urls with
    | .ok () => none
    | .error error => some (profile.name ++ ": " ++ error)

end ProfileSettings

end Blip.Capture
