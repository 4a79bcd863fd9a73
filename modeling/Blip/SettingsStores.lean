import Blip.Capture.BundleFrame
import Blip.Capture.Profiles
import Blip.Studio.ProjectFile

/-!
# Saves of the settings that do not complete

The files of a bundle, of the capture application's profiles and of the studio's project, saved and
loaded in any order. A save that stops half-way leaves the studio's project as it was. The other stores
write their file in place: once the file is emptied, loading a bundle fails, and loading the profiles
gives the defaults.
-/

namespace Blip

open Capture (StoredBundle ProjectConfig RecordingProfiles readToString readToString_print
  PROJECT_CONFIG_FILE MANIFEST_FILE)
open Studio (Project ProjectText)

/-- A text that is cut off inside an object is not JSON. -/
def JsonText.Delimited {Byte : Type} (serde : JsonText Byte) : Prop :=
  ∀ fields part, part <+: serde.print (.obj fields) → part ≠ serde.print (.obj fields) →
    serde.isText part → ∃ message, serde.parse part = .error message

/-- What the stores read and write with. -/
structure SettingsEnv (Byte DateTime : Type) where
  serde : JsonText Byte
  dateTime : Codec DateTime
  projectText : ProjectText Byte
  home : String
  tempDir : String

/-- The directories of the three stores. -/
structure SettingsDisk (Byte : Type) where
  bundle : Files String Byte
  capture : Files String Byte
  studio : Files String Byte

/-- What was last saved completely: the manifest with the settings it is read with, the project config
when there is one, the profiles, and the studio's project. -/
structure SettingsContents (DateTime : Type) where
  manifest : StoredBundle DateTime
  config : Option ProjectConfig
  profiles : RecordingProfiles
  project : Option Project

/-- The bundle that was last saved. -/
def SettingsContents.bundle {DateTime : Type} (contents : SettingsContents DateTime) :
    StoredBundle DateTime :=
  { contents.manifest with
    toProjectConfig := contents.config.getD contents.manifest.toProjectConfig }

inductive SettingsSave (DateTime : Type)
  | manifest (bundle : StoredBundle DateTime)
  | projectConfig (bundle : StoredBundle DateTime)
  | profiles (profiles : RecordingProfiles)
  | project (project : Project)

variable {Byte DateTime : Type}

namespace SettingsSave

variable (env : SettingsEnv Byte DateTime)

/-- The file operations of a save, in the directory of its store. -/
def ops : SettingsSave DateTime → List (FileOp String Byte)
  | .manifest bundle => bundle.saveManifest env.serde env.dateTime
  | .projectConfig bundle => bundle.saveProjectConfig env.serde
  | .profiles settings => settings.save env.serde
  | .project saved => saved.save env.projectText

/-- What a save does to the files of its store. -/
def onStore (save : SettingsSave DateTime) (change : Files String Byte → Files String Byte)
    (disk : SettingsDisk Byte) : SettingsDisk Byte :=
  match save with
  | .manifest _ | .projectConfig _ => { disk with bundle := change disk.bundle }
  | .profiles _ => { disk with capture := change disk.capture }
  | .project _ => { disk with studio := change disk.studio }

/-- What is saved once a save completes. -/
def contents (contents : SettingsContents DateTime) : SettingsSave DateTime → SettingsContents DateTime
  | .manifest bundle => { contents with manifest := { bundle with toProjectConfig := .default } }
  | .projectConfig bundle => { contents with config := some bundle.toProjectConfig }
  | .profiles settings => { contents with profiles := settings.loaded env.home env.tempDir }
  | .project saved => { contents with project := if saved.isValid then some saved else none }

end SettingsSave

inductive SettingsEvent (Byte DateTime : Type)
  | loaded
  | saved (save : SettingsSave DateTime)
  /-- A save fails or is cut off. -/
  | stopped (save : SettingsSave DateTime) (stop : Stop Byte)

structure SettingsState (Byte DateTime : Type) where
  disk : SettingsDisk Byte
  contents : SettingsContents DateTime

/-- Loading gives what was last saved completely. -/
structure SettingsState.Loads (env : SettingsEnv Byte DateTime) (state : SettingsState Byte DateTime) :
    Prop where
  bundle : StoredBundle.load env.serde env.dateTime state.disk.bundle = .ok state.contents.bundle
  profiles : RecordingProfiles.load env.serde env.home env.tempDir state.disk.capture =
    state.contents.profiles
  project : Project.load env.projectText state.disk.studio = state.contents.project

/-- The project config that the files of a bundle hold, if there is one. -/
def HoldsConfig (serde : JsonText Byte) (files : Files String Byte) : Option ProjectConfig → Prop
  | none => files PROJECT_CONFIG_FILE = none
  | some config => StoredBundle.Config serde files config

/-- The files hold what was last saved completely. -/
structure SettingsState.Holds (env : SettingsEnv Byte DateTime) (state : SettingsState Byte DateTime) :
    Prop where
  manifest : StoredBundle.Manifest env.serde env.dateTime state.disk.bundle state.contents.manifest
  config : HoldsConfig env.serde state.disk.bundle state.contents.config
  profiles : RecordingProfiles.load env.serde env.home env.tempDir state.disk.capture =
    state.contents.profiles
  project : Project.load env.projectText state.disk.studio = state.contents.project

/-- The stores, from files that hold a bundle. -/
def settingsSystem (env : SettingsEnv Byte DateTime) :
    System (SettingsState Byte DateTime) (SettingsEvent Byte DateTime) where
  init state := state.Holds env
  step state event state' :=
    match event with
    | .loaded => state' = state
    | .saved save =>
      state' = {
        disk := save.onStore (·.after (save.ops env)) state.disk
        contents := save.contents env state.contents }
    | .stopped save stop => stop.Of (save.ops env) ∧
      state' = { state with disk := save.onStore (stop.left (save.ops env)) state.disk }

/-- A save that stops does so before it touches its file, or is of the studio's project, or of the
profiles while they are the defaults. -/
def SettingsState.KeepsContents (env : SettingsEnv Byte DateTime)
    (state : SettingsState Byte DateTime) : SettingsEvent Byte DateTime → Prop
  | .stopped (.manifest _) stop | .stopped (.projectConfig _) stop => stop.part = none
  | .stopped (.profiles _) stop =>
    stop.part = none ∨ state.contents.profiles = RecordingProfiles.default env.home env.tempDir
  | _ => True

variable {env : SettingsEnv Byte DateTime} {state : SettingsState Byte DateTime}

theorem HoldsConfig.congr {serde : JsonText Byte} {files files' : Files String Byte}
    {config : Option ProjectConfig} (h : HoldsConfig serde files config)
    (hfile : files' PROJECT_CONFIG_FILE = files PROJECT_CONFIG_FILE) :
    HoldsConfig serde files' config := by
  cases config with
  | none => exact hfile.trans h
  | some config => exact StoredBundle.Config.congr h hfile

namespace SettingsState

theorem Holds.loads (h : state.Holds env) : state.Loads env where
  bundle := by
    obtain ⟨disk, contents⟩ := state
    obtain ⟨manifest, config, profiles, project⟩ := contents
    refine StoredBundle.load_eq_ok.mpr ⟨manifest, h.manifest, ?_⟩
    have hconfig := h.config
    cases config with
    | none => exact .inl ⟨hconfig, rfl⟩
    | some config => exact .inr ⟨config, hconfig, rfl⟩
  profiles := h.profiles
  project := h.project

/-! ## Saves that complete -/

theorem Holds.saved (h : state.Holds env) (save : SettingsSave DateTime) :
    Holds env {
      disk := save.onStore (·.after (save.ops env)) state.disk
      contents := save.contents env state.contents } := by
  obtain ⟨hmanifest, hconfig, hprofiles, hproject⟩ := h
  cases save with
  | manifest bundle =>
    have hspared : state.disk.bundle.after (bundle.saveManifest env.serde env.dateTime)
        PROJECT_CONFIG_FILE = state.disk.bundle PROJECT_CONFIG_FILE :=
      StoredBundle.saveManifest_projectConfig bundle
    exact ⟨StoredBundle.manifest_saveManifest bundle, hconfig.congr hspared, hprofiles, hproject⟩
  | projectConfig bundle =>
    have hspared : state.disk.bundle.after (bundle.saveProjectConfig env.serde) MANIFEST_FILE =
        state.disk.bundle MANIFEST_FILE := StoredBundle.saveProjectConfig_manifest bundle
    exact ⟨hmanifest.congr hspared, StoredBundle.config_saveProjectConfig bundle, hprofiles,
      hproject⟩
  | profiles settings =>
    exact ⟨hmanifest, hconfig, RecordingProfiles.load_save settings, hproject⟩
  | project saved => exact ⟨hmanifest, hconfig, hprofiles, Project.load_save saved⟩

/-! ## Saves that stop -/

/-- Of a text that is cut off, nothing is read. -/
theorem fromText_cut {α : Type} {serde : JsonText Byte} (hserde : serde.Delimited)
    {files : Files String Byte} {path : String} {fields : List (String × Json)} {part : List Byte}
    (hpart : part <+: serde.print (.obj fields)) (hne : part ≠ serde.print (.obj fields))
    (hfile : files path = some part) {decode : Json → Option α} {a : α} {contents : List Byte}
    (hread : readToString serde files path = .ok contents) :
    serde.fromText decode contents ≠ .ok a := by
  rw [readToString, hfile] at hread
  dsimp only at hread
  split at hread
  case isFalse => cases hread
  case isTrue htext =>
    obtain rfl := Except.ok.inj hread
    obtain ⟨message, hparse⟩ := hserde fields part hpart hne htext
    rw [JsonText.fromText, hparse]
    intro heq
    cases heq

theorem load_cut_manifest (hserde : env.serde.Delimited) {files : Files String Byte}
    {bundle stored : StoredBundle DateTime} {part : List Byte}
    (hpart : part <+: env.serde.print (bundle.encode env.dateTime))
    (hne : part ≠ env.serde.print (bundle.encode env.dateTime)) :
    StoredBundle.load env.serde env.dateTime (Function.update files MANIFEST_FILE (some part)) ≠
      .ok stored := by
  intro hload
  obtain ⟨manifest, ⟨contents, hread, hdecode⟩, -⟩ := StoredBundle.load_eq_ok.mp hload
  exact fromText_cut hserde hpart hne (Function.update_self ..) hread hdecode

theorem load_cut_projectConfig (hserde : env.serde.Delimited) {files : Files String Byte}
    {config : ProjectConfig} {stored : StoredBundle DateTime} {part : List Byte}
    (hpart : part <+: env.serde.print (ProjectConfig.codec.encode config))
    (hne : part ≠ env.serde.print (ProjectConfig.codec.encode config)) :
    StoredBundle.load env.serde env.dateTime
      (Function.update files PROJECT_CONFIG_FILE (some part)) ≠ .ok stored := by
  intro hload
  obtain ⟨manifest, -, ⟨hnone, -⟩ | ⟨config, ⟨contents, hread, hdecode⟩, -⟩⟩ :=
    StoredBundle.load_eq_ok.mp hload
  · rw [Function.update_self] at hnone
    cases hnone
  · exact fromText_cut hserde hpart hne (Function.update_self ..) hread hdecode

theorem load_cut_profiles (hserde : env.serde.Delimited) {files : Files String Byte}
    {settings : RecordingProfiles} {part : List Byte}
    (hpart : part <+: env.serde.print (RecordingProfiles.codec.encode settings))
    (hne : part ≠ env.serde.print (RecordingProfiles.codec.encode settings)) :
    RecordingProfiles.load env.serde env.home env.tempDir
      (Function.update files RecordingProfiles.fileName (some part)) =
        RecordingProfiles.default env.home env.tempDir := by
  unfold RecordingProfiles.load
  split
  · rfl
  · rename_i contents hread
    split
    · rfl
    · rename_i settings' hdecode
      exact absurd hdecode (fromText_cut hserde hpart hne (Function.update_self ..) hread)

/-- The state that a save leaves which stops there. -/
def left (env : SettingsEnv Byte DateTime) (state : SettingsState Byte DateTime)
    (save : SettingsSave DateTime) (stop : Stop Byte) : SettingsState Byte DateTime :=
  { state with disk := save.onStore (stop.left (save.ops env)) state.disk }

/-- A save of one write stops before it touches the file, or leaves a proper prefix of it. -/
theorem left_cases {save : SettingsSave DateTime} {stop : Stop Byte} {path : String}
    {contents : List Byte} (hops : save.ops env = [.write path contents])
    (hstop : stop.Of (save.ops env)) :
    (stop.part = none ∧ state.left env save stop = state) ∨
      ∃ part, stop.part = some part ∧ part <+: contents ∧ part ≠ contents ∧
        state.left env save stop = { state with
          disk := save.onStore (fun files => Function.update files path (some part)) state.disk } := by
  rw [left, hops]
  rw [hops] at hstop
  rcases Stop.left_write hstop with ⟨hnone, hleft⟩ | ⟨part, hsome, hpart, hne, hleft⟩
  · refine .inl ⟨hnone, ?_⟩
    rw [hleft]
    cases save <;> rfl
  · exact .inr ⟨part, hsome, hpart, hne, by rw [hleft]⟩

theorem keepsContents_of_none {save : SettingsSave DateTime} {stop : Stop Byte}
    (h : stop.part = none) : state.KeepsContents env (.stopped save stop) := by
  cases save with
  | manifest bundle => exact h
  | projectConfig bundle => exact h
  | profiles settings => exact .inl h
  | project saved => trivial

/-- After a save that stops under the condition, the files still hold what was last saved; loading
gives it only then. -/
theorem Holds.left (hserde : env.serde.Delimited) (h : state.Holds env) {save : SettingsSave DateTime}
    {stop : Stop Byte} (hstop : stop.Of (save.ops env)) :
    (state.KeepsContents env (.stopped save stop) → (state.left env save stop).Holds env) ∧
      ((state.left env save stop).Loads env → state.KeepsContents env (.stopped save stop)) := by
  cases save with
  | manifest bundle =>
    rcases left_cases rfl hstop with ⟨hnone, hleft⟩ | ⟨part, hsome, hpart, hne, hleft⟩
    · exact ⟨fun _ => hleft ▸ h, fun _ => keepsContents_of_none hnone⟩
    · refine ⟨fun hkeeps => absurd (hsome.symm.trans hkeeps) (by simp), fun hloads => ?_⟩
      rw [hleft] at hloads
      exact absurd hloads.bundle (load_cut_manifest hserde hpart hne)
  | projectConfig bundle =>
    rcases left_cases rfl hstop with ⟨hnone, hleft⟩ | ⟨part, hsome, hpart, hne, hleft⟩
    · exact ⟨fun _ => hleft ▸ h, fun _ => keepsContents_of_none hnone⟩
    · refine ⟨fun hkeeps => absurd (hsome.symm.trans hkeeps) (by simp), fun hloads => ?_⟩
      rw [hleft] at hloads
      exact absurd hloads.bundle (load_cut_projectConfig hserde hpart hne)
  | profiles settings =>
    rcases left_cases rfl hstop with ⟨hnone, hleft⟩ | ⟨part, hsome, hpart, hne, hleft⟩
    · exact ⟨fun _ => hleft ▸ h, fun _ => keepsContents_of_none hnone⟩
    · rw [hleft]
      have hdefault : RecordingProfiles.load env.serde env.home env.tempDir (Function.update
          state.disk.capture RecordingProfiles.fileName (some part)) = _ :=
        load_cut_profiles hserde hpart hne
      refine ⟨fun hkeeps => ⟨h.manifest, h.config, hdefault.trans ?_, h.project⟩,
        fun hloads => .inr (hloads.profiles.symm.trans hdefault)⟩
      rcases hkeeps with hnone | heq
      · exact absurd (hsome.symm.trans hnone) (by simp)
      · exact heq.symm
  | project saved =>
    refine ⟨fun _ => ?_, fun _ => trivial⟩
    exact ⟨h.manifest, h.config, h.profiles, (Project.load_left hstop).trans h.project⟩

end SettingsState

/-- One event under the condition. -/
theorem holds_step (hserde : env.serde.Delimited) {state' : SettingsState Byte DateTime}
    {event : SettingsEvent Byte DateTime} (h : state.Holds env)
    (hstep : ((settingsSystem env).restrict (SettingsState.KeepsContents env)).step state event
      state') : state'.Holds env := by
  obtain ⟨hkeeps, hstep⟩ := hstep
  cases event with
  | loaded =>
    obtain rfl := hstep
    exact h
  | saved save =>
    obtain rfl := hstep
    exact h.saved save
  | stopped save stop =>
    obtain ⟨hstop, rfl⟩ := hstep
    exact (h.left hserde hstop).1 hkeeps

/-- In any run whose saves stop only under the condition, loading gives what was last saved completely;
and after the next save that stops it does exactly under the condition. -/
theorem settings_survive (env : SettingsEnv Byte DateTime) (hserde : env.serde.Delimited)
    {state state' : SettingsState Byte DateTime} {events : List (SettingsEvent Byte DateTime)}
    (hinit : (settingsSystem env).init state)
    (hrun : ((settingsSystem env).restrict (SettingsState.KeepsContents env)).Run state events
      state') :
    state'.Loads env ∧ ∀ save stop, stop.Of (save.ops env) →
      ((state'.left env save stop).Loads env ↔
        state'.KeepsContents env (.stopped save stop)) := by
  have hholds : state'.Holds env :=
    hrun.invariant (fun _ _ _ h hstep => holds_step hserde h hstep) hinit
  refine ⟨hholds.loads, fun save stop hstop => ?_⟩
  obtain ⟨hkeeps, honly⟩ := hholds.left hserde hstop
  exact ⟨honly, fun h => (hkeeps h).loads⟩

/-! ## Profiles that are lost -/

/-- Texts of whole values and of whole projects, and the empty text. -/
def wholeTexts : SettingsEnv (Json ⊕ Project) String where
  serde := {
    print := fun json => [.inl json]
    isText := fun _ => true
    parse := fun
      | [.inl json] => .ok json
      | _ => .error "EOF while parsing a value at line 1 column 0"
    mismatch := fun _ => "invalid type"
    isText_print := fun _ => rfl
    parse_print := fun _ => rfl }
  dateTime := .string
  projectText := {
    isText := fun _ => true
    toStringPretty := fun project => [.inr project]
    fromStr := fun
      | [.inr project] => some project
      | _ => none
    isText_toStringPretty := fun _ => rfl
    fromStr_toStringPretty := fun _ _ => rfl
    fromStr_invalid := fun _ _ hinvalid heq => Option.some.inj heq ▸ hinvalid }
  home := "/Users/a"
  tempDir := "/tmp"

theorem wholeTexts_delimited : wholeTexts.serde.Delimited := by
  intro fields part hpart hne _
  rcases List.prefix_cons_iff.mp hpart with rfl | ⟨rest, rfl, hrest⟩
  · exact ⟨_, rfl⟩
  · rw [List.prefix_nil.mp hrest] at hne
    exact absurd rfl hne

/-- A store of one profile. -/
def mediaProfiles : RecordingProfiles where
  profiles := [.newRemote 1 "Media" "https://media.example.com/#secret"]
  selectedProfileId := "profile-1"

/-- A bundle, a profile and no project, all saved. -/
def savedSettings : SettingsState (Json ⊕ Project) String where
  disk := {
    bundle := fun path =>
      if path = MANIFEST_FILE then some [.inl Capture.legacyManifest] else none
    capture := fun path =>
      if path = RecordingProfiles.fileName then
        some [.inl (RecordingProfiles.codec.encode mediaProfiles)]
      else none
    studio := fun _ => none }
  contents := {
    manifest := Capture.legacyBundle
    config := none
    profiles := mediaProfiles
    project := none }

theorem savedSettings_holds : savedSettings.Holds wholeTexts where
  manifest := ⟨_, rfl, rfl⟩
  config := rfl
  profiles := rfl
  project := rfl

/-- A save of the profiles that is cut off once the file is emptied loses them. -/
theorem profiles_lost :
    (settingsSystem wholeTexts).init savedSettings ∧
      (settingsSystem wholeTexts).Run savedSettings [.stopped (.profiles mediaProfiles) ⟨0, some []⟩]
        (savedSettings.left wholeTexts (.profiles mediaProfiles) ⟨0, some []⟩) ∧
      RecordingProfiles.load wholeTexts.serde wholeTexts.home wholeTexts.tempDir
        (savedSettings.left wholeTexts (.profiles mediaProfiles) ⟨0, some []⟩).disk.capture =
          RecordingProfiles.default wholeTexts.home wholeTexts.tempDir ∧
      ¬ (savedSettings.left wholeTexts (.profiles mediaProfiles) ⟨0, some []⟩).Loads wholeTexts := by
  have hdefault : RecordingProfiles.load wholeTexts.serde wholeTexts.home wholeTexts.tempDir
      (savedSettings.left wholeTexts (.profiles mediaProfiles) ⟨0, some []⟩).disk.capture =
        RecordingProfiles.default wholeTexts.home wholeTexts.tempDir := rfl
  refine ⟨savedSettings_holds, .cons ⟨⟨_, rfl, ?_⟩, rfl⟩ (.nil _), hdefault, fun hloads => ?_⟩
  · exact ⟨List.nil_prefix, List.cons_ne_nil _ _ ∘ Eq.symm⟩
  · have hsame : mediaProfiles = RecordingProfiles.default wholeTexts.home wholeTexts.tempDir :=
      hloads.profiles.symm.trans hdefault
    exact absurd hsame (by decide)

/-- A save of the profiles that stops before it opens the file. -/
theorem settings_survive_saved :
    (savedSettings.left wholeTexts (.profiles mediaProfiles) ⟨0, none⟩).Loads wholeTexts := by
  have hstop : Stop.Of (⟨0, none⟩ : Stop (Json ⊕ Project))
      ((.profiles mediaProfiles : SettingsSave String).ops wholeTexts) := ⟨_, rfl, trivial⟩
  obtain ⟨-, hnext⟩ := settings_survive wholeTexts wholeTexts_delimited
    (show (settingsSystem wholeTexts).init savedSettings from savedSettings_holds) (.nil _)
  exact (hnext (.profiles mediaProfiles) ⟨0, none⟩ hstop).mpr (.inl rfl)

end Blip
