import Blip.Capture.BundleFiles
import Blip.Common.System

/-!
# What saving a bundle changes

A session holds a bundle that was loaded and saves it: its settings to the project config, or with an
input's offset to the manifest. `BundleView` says what the sessions are for: a stored bundle and a held
one, where each save changes the part it is for. A session follows its view as long as no offset is
set while the settings are those of the manifest itself, since the manifest is written without them.
-/

namespace Blip.Capture

variable {Byte DateTime : Type} {serde : JsonText Byte} {dateTime : Codec DateTime}

namespace StoredBundle

/-! ## Loading what was saved -/

/-- What is read of the manifest alone. -/
def Manifest (serde : JsonText Byte) (dateTime : Codec DateTime) (files : Files String Byte)
    (bundle : StoredBundle DateTime) : Prop :=
  ∃ contents, readToString serde files MANIFEST_FILE = .ok contents ∧
    serde.fromText (decode dateTime) contents = .ok bundle

/-- What is read of the project config. -/
def Config (serde : JsonText Byte) (files : Files String Byte) (config : ProjectConfig) : Prop :=
  ∃ contents, readToString serde files PROJECT_CONFIG_FILE = .ok contents ∧
    serde.fromText ProjectConfig.codec.decode contents = .ok config

theorem load_eq_ok {files : Files String Byte} {bundle : StoredBundle DateTime} :
    load serde dateTime files = .ok bundle ↔ ∃ manifest, Manifest serde dateTime files manifest ∧
      (files PROJECT_CONFIG_FILE = none ∧ bundle = manifest ∨
        ∃ config, Config serde files config ∧
          bundle = { manifest with toProjectConfig := config }) := by
  unfold load Manifest Config
  cases hread : readToString serde files MANIFEST_FILE with
  | error error => simp [Except.mapError, bind, Except.bind]
  | ok contents =>
    cases hmanifest : serde.fromText (decode dateTime) contents with
    | error error => simp [Except.mapError, bind, Except.bind, hmanifest]
    | ok manifest =>
      cases hconfig : readToString serde files PROJECT_CONFIG_FILE with
      | error error =>
        cases error with
        | notFound =>
          have hnone := readToString_eq_notFound.mp hconfig
          simp [Except.mapError, bind, Except.bind, hmanifest, hnone, pure, Except.pure, eq_comm]
        | invalidData =>
          have hsome : files PROJECT_CONFIG_FILE ≠ none := fun hnone => by
            rw [readToString_eq_notFound.mpr hnone] at hconfig
            cases hconfig
          simp [Except.mapError, bind, Except.bind, hmanifest, hsome]
      | ok text =>
        have hsome : files PROJECT_CONFIG_FILE ≠ none := fun hnone => by
          rw [readToString_eq_notFound.mpr hnone] at hconfig
          cases hconfig
        cases htext : serde.fromText ProjectConfig.codec.decode text with
        | error error => simp [Except.mapError, bind, Except.bind, hmanifest, hsome, htext]
        | ok config =>
          simp [Except.mapError, bind, Except.bind, hmanifest, hsome, htext, pure, Except.pure,
            eq_comm]

theorem Manifest.unique {files : Files String Byte} {bundle bundle' : StoredBundle DateTime}
    (h : Manifest serde dateTime files bundle) (h' : Manifest serde dateTime files bundle') :
    bundle = bundle' := by
  obtain ⟨contents, hread, hdecode⟩ := h
  obtain ⟨contents', hread', hdecode'⟩ := h'
  obtain rfl : contents = contents' := Except.ok.inj (hread.symm.trans hread')
  exact Except.ok.inj (hdecode.symm.trans hdecode')

variable {files : Files String Byte}

/-- Saving the settings is writing the project config. -/
theorem after_saveProjectConfig (bundle : StoredBundle DateTime) :
    files.after (bundle.saveProjectConfig serde) = Function.update files PROJECT_CONFIG_FILE
      (some (serde.print (ProjectConfig.codec.encode bundle.toProjectConfig))) := rfl

theorem after_saveManifest (bundle : StoredBundle DateTime) :
    files.after (bundle.saveManifest serde dateTime) = Function.update files MANIFEST_FILE
      (some (serde.print (bundle.encode dateTime))) := rfl

private theorem manifest_ne_projectConfig : MANIFEST_FILE ≠ PROJECT_CONFIG_FILE := by decide

theorem saveProjectConfig_manifest (bundle : StoredBundle DateTime) :
    files.after (bundle.saveProjectConfig serde) MANIFEST_FILE = files MANIFEST_FILE := by
  rw [after_saveProjectConfig, Function.update_of_ne manifest_ne_projectConfig]

theorem saveManifest_projectConfig (bundle : StoredBundle DateTime) :
    files.after (bundle.saveManifest serde dateTime) PROJECT_CONFIG_FILE =
      files PROJECT_CONFIG_FILE := by
  rw [after_saveManifest, Function.update_of_ne manifest_ne_projectConfig.symm]

theorem readToString_congr {files' : Files String Byte} {path : String}
    (h : files' path = files path) : readToString serde files' path = readToString serde files path := by
  rw [readToString, h, readToString]

theorem Manifest.congr {files' : Files String Byte} {bundle : StoredBundle DateTime}
    (h : Manifest serde dateTime files bundle) (hfile : files' MANIFEST_FILE = files MANIFEST_FILE) :
    Manifest serde dateTime files' bundle := by
  obtain ⟨contents, hread, hdecode⟩ := h
  exact ⟨contents, (readToString_congr hfile).trans hread, hdecode⟩

theorem Config.congr {files' : Files String Byte} {config : ProjectConfig}
    (h : Config serde files config)
    (hfile : files' PROJECT_CONFIG_FILE = files PROJECT_CONFIG_FILE) :
    Config serde files' config := by
  obtain ⟨contents, hread, hdecode⟩ := h
  exact ⟨contents, (readToString_congr hfile).trans hread, hdecode⟩

theorem Config.ne_none {config : ProjectConfig} (h : Config serde files config) :
    files PROJECT_CONFIG_FILE ≠ none := by
  obtain ⟨contents, hread, -⟩ := h
  intro hnone
  rw [readToString_eq_notFound.mpr hnone] at hread
  cases hread

/-- A manifest is read back as it was written: without settings. -/
theorem manifest_saveManifest (bundle : StoredBundle DateTime) :
    Manifest serde dateTime (files.after (bundle.saveManifest serde dateTime))
      { bundle with toProjectConfig := .default } := by
  have hfile : files.after (bundle.saveManifest serde dateTime) MANIFEST_FILE =
      some (serde.print (bundle.encode dateTime)) := by
    rw [after_saveManifest, Function.update_self]
  exact ⟨_, readToString_print serde hfile, serde.fromText_print (decode_encode dateTime bundle)⟩

theorem config_saveProjectConfig (bundle : StoredBundle DateTime) :
    Config serde (files.after (bundle.saveProjectConfig serde)) bundle.toProjectConfig := by
  have hfile : files.after (bundle.saveProjectConfig serde) PROJECT_CONFIG_FILE =
      some (serde.print (ProjectConfig.codec.encode bundle.toProjectConfig)) := by
    rw [after_saveProjectConfig, Function.update_self]
  exact ⟨_, readToString_print serde hfile, serde.fromText_print (Codec.decode_encode _ _)⟩

/-- The settings are read back as they were saved, the recording as it was. -/
theorem load_saveProjectConfig {stored bundle : StoredBundle DateTime}
    (hload : load serde dateTime files = .ok stored) :
    load serde dateTime (files.after (bundle.saveProjectConfig serde)) =
      .ok { stored with toProjectConfig := bundle.toProjectConfig } := by
  obtain ⟨manifest, hmanifest, hstored⟩ := load_eq_ok.mp hload
  refine load_eq_ok.mpr ⟨manifest, hmanifest.congr (saveProjectConfig_manifest bundle),
    .inr ⟨bundle.toProjectConfig, config_saveProjectConfig bundle, ?_⟩⟩
  rcases hstored with ⟨-, rfl⟩ | ⟨config, -, rfl⟩ <;> rfl

/-- The recording is read back as it was saved; the settings are those of the project config, or the
defaults. -/
theorem load_saveManifest {stored bundle : StoredBundle DateTime}
    (hload : load serde dateTime files = .ok stored) :
    load serde dateTime (files.after (bundle.saveManifest serde dateTime)) =
      .ok { bundle with
        toProjectConfig :=
          if files PROJECT_CONFIG_FILE = none then .default else stored.toProjectConfig } := by
  obtain ⟨manifest, -, hstored⟩ := load_eq_ok.mp hload
  refine load_eq_ok.mpr ⟨_, manifest_saveManifest bundle, ?_⟩
  rcases hstored with ⟨hnone, -⟩ | ⟨config, hconfig, rfl⟩
  · rw [if_pos hnone, saveManifest_projectConfig]
    exact .inl ⟨hnone, rfl⟩
  · rw [if_neg hconfig.ne_none]
    exact .inr ⟨config, hconfig.congr (saveManifest_projectConfig bundle), rfl⟩

/-- The offset of an input set, and nothing else. -/
def withStartOffset (bundle : StoredBundle DateTime) (id : String) (startOffsetSecs : Secs) :
    StoredBundle DateTime :=
  { bundle with
    inputs := (setStartOffset id startOffsetSecs bundle.inputs).getD bundle.inputs }

theorem setStartOffset_eq_none {id : String} {startOffsetSecs : Secs} {inputs : List BundleInput} :
    setStartOffset id startOffsetSecs inputs = none ↔ ∀ input ∈ inputs, input.id ≠ id := by
  induction inputs with
  | nil => simp [setStartOffset]
  | cons input inputs ih =>
    by_cases hid : input.id = id
    · simp [setStartOffset, hid]
    · simp [setStartOffset, hid, ih]

end StoredBundle

/-! ## Sessions -/

/-- The files of a bundle and the bundle held in memory. -/
structure BundleSession (Byte DateTime : Type) where
  files : Files String Byte
  bundle : StoredBundle DateTime

inductive BundleAction
  | load
  /-- The editor changes the settings it holds. -/
  | edit (config : ProjectConfig)
  | saveProjectConfig
  | setInputStartOffset (id : String) (startOffsetSecs : Secs)

namespace BundleSession

/-- One action, when the file operations succeed; an action that fails changes nothing. -/
def step (serde : JsonText Byte) (dateTime : Codec DateTime) (session : BundleSession Byte DateTime) :
    BundleAction → BundleSession Byte DateTime
  | .load =>
    match StoredBundle.load serde dateTime session.files with
    | .ok bundle => { session with bundle }
    | .error _ => session
  | .edit config => { session with bundle := { session.bundle with toProjectConfig := config } }
  | .saveProjectConfig =>
    { session with files := session.files.after (session.bundle.saveProjectConfig serde) }
  | .setInputStartOffset id startOffsetSecs =>
    match session.bundle.setInputStartOffset serde dateTime id startOffsetSecs with
    | .ok (bundle, ops) =>
      { session with
        files := session.files.after ops
        bundle }
    | .error _ => session

end BundleSession

/-- The sessions that start by loading a bundle. -/
def bundleSystem (serde : JsonText Byte) (dateTime : Codec DateTime) :
    System (BundleSession Byte DateTime) BundleAction where
  init session := StoredBundle.load serde dateTime session.files = .ok session.bundle
  step session action session' := session' = session.step serde dateTime action

/-- What a session is for: the bundle that is stored and the one that is held. -/
structure BundleView (DateTime : Type) where
  stored : StoredBundle DateTime
  held : StoredBundle DateTime

/-- Each action changes the part it is for. -/
def BundleView.step (view : BundleView DateTime) : BundleAction → BundleView DateTime
  | .load => { view with held := view.stored }
  | .edit config => { view with held := { view.held with toProjectConfig := config } }
  | .saveProjectConfig =>
    { view with stored := { view.stored with toProjectConfig := view.held.toProjectConfig } }
  | .setInputStartOffset id startOffsetSecs =>
    { stored := view.stored.withStartOffset id startOffsetSecs
      held := view.held.withStartOffset id startOffsetSecs }

/-- An offset is set with the project config there, or with settings that are the defaults, or for an
input that is not. -/
def BundleSession.KeepsSettings (serde : JsonText Byte) (dateTime : Codec DateTime)
    (session : BundleSession Byte DateTime) : BundleAction → Prop
  | .setInputStartOffset id _ =>
    session.files PROJECT_CONFIG_FILE ≠ none ∨
      (∀ stored, StoredBundle.load serde dateTime session.files = .ok stored →
        stored.toProjectConfig = .default) ∨
      ∀ input ∈ session.bundle.inputs, input.id ≠ id
  | _ => True

/-- The session stores the bundle `stored`, with the recording of the one it holds. -/
structure BundleSession.Stores (serde : JsonText Byte) (dateTime : Codec DateTime)
    (session : BundleSession Byte DateTime) (stored : StoredBundle DateTime) : Prop where
  loaded : StoredBundle.load serde dateTime session.files = .ok stored
  recording : { session.bundle with toProjectConfig := stored.toProjectConfig } = stored

namespace BundleSession

variable {session : BundleSession Byte DateTime} {stored : StoredBundle DateTime}

/-- A bundle that was loaded is held as it is stored. -/
theorem Stores.of_load {files : Files String Byte}
    (h : StoredBundle.load serde dateTime files = .ok stored) :
    Stores serde dateTime ⟨files, stored⟩ stored :=
  ⟨h, rfl⟩

theorem Stores.inputs (h : session.Stores serde dateTime stored) :
    session.bundle.inputs = stored.inputs := by
  rw [← h.recording]

theorem step_load (h : session.Stores serde dateTime stored) :
    session.step serde dateTime .load = { session with bundle := stored } := by
  rw [step, h.loaded]

theorem Stores.saveProjectConfig (h : session.Stores serde dateTime stored) :
    (session.step serde dateTime .saveProjectConfig).Stores serde dateTime
      { stored with toProjectConfig := session.bundle.toProjectConfig } where
  loaded := StoredBundle.load_saveProjectConfig h.loaded
  recording := by
    rw [← h.recording]
    rfl

/-- An offset for an input that is not there changes nothing. -/
theorem step_of_no_input (id : String) (startOffsetSecs : Secs)
    (hid : ∀ input ∈ session.bundle.inputs, input.id ≠ id) :
    session.step serde dateTime (.setInputStartOffset id startOffsetSecs) = session := by
  rw [step, StoredBundle.setInputStartOffset, StoredBundle.setStartOffset_eq_none.mpr hid]

theorem withStartOffset_of_no_input {bundle : StoredBundle DateTime} (id : String)
    (startOffsetSecs : Secs) (hid : ∀ input ∈ bundle.inputs, input.id ≠ id) :
    bundle.withStartOffset id startOffsetSecs = bundle := by
  rw [StoredBundle.withStartOffset, StoredBundle.setStartOffset_eq_none.mpr hid]
  rfl

theorem step_of_input {id : String} (startOffsetSecs : Secs)
    (hid : ¬ ∀ input ∈ session.bundle.inputs, input.id ≠ id) :
    session.step serde dateTime (.setInputStartOffset id startOffsetSecs) =
      { files := session.files.after
          ((session.bundle.withStartOffset id startOffsetSecs).saveManifest serde dateTime)
        bundle := session.bundle.withStartOffset id startOffsetSecs } := by
  rw [step, StoredBundle.setInputStartOffset, StoredBundle.withStartOffset]
  cases hinputs : StoredBundle.setStartOffset id startOffsetSecs session.bundle.inputs with
  | none => exact absurd (StoredBundle.setStartOffset_eq_none.mp hinputs) hid
  | some inputs => rfl

/-- Setting an offset stores it, and the settings of the project config or else the defaults. -/
theorem Stores.setInputStartOffset {id : String} (startOffsetSecs : Secs)
    (h : session.Stores serde dateTime stored)
    (hid : ¬ ∀ input ∈ session.bundle.inputs, input.id ≠ id) :
    (session.step serde dateTime (.setInputStartOffset id startOffsetSecs)).Stores serde dateTime
      { stored.withStartOffset id startOffsetSecs with
        toProjectConfig := if session.files PROJECT_CONFIG_FILE = none then .default
          else stored.toProjectConfig } := by
  have hbundle : session.bundle.withStartOffset id startOffsetSecs =
      { stored.withStartOffset id startOffsetSecs with
        toProjectConfig := session.bundle.toProjectConfig } := by
    rw [← h.recording]
    rfl
  rw [step_of_input startOffsetSecs hid, hbundle]
  exact ⟨StoredBundle.load_saveManifest h.loaded, rfl⟩

/-- What a session stores after each action. -/
theorem Stores.step (h : session.Stores serde dateTime stored) (action : BundleAction) :
    ∃ stored', (session.step serde dateTime action).Stores serde dateTime stored' := by
  cases action with
  | load =>
    rw [step_load h]
    exact ⟨stored, .of_load h.loaded⟩
  | edit config => exact ⟨stored, h.loaded, h.recording⟩
  | saveProjectConfig => exact ⟨_, h.saveProjectConfig⟩
  | setInputStartOffset id startOffsetSecs =>
    by_cases hid : ∀ input ∈ session.bundle.inputs, input.id ≠ id
    · rw [step_of_no_input id startOffsetSecs hid]
      exact ⟨stored, h⟩
    · exact ⟨_, h.setInputStartOffset startOffsetSecs hid⟩

/-- Setting an offset sets it and nothing else exactly when the settings are not the manifest's. -/
theorem load_setInputStartOffset (id : String) (startOffsetSecs : Secs)
    (h : session.Stores serde dateTime stored) :
    StoredBundle.load serde dateTime
        (session.step serde dateTime (.setInputStartOffset id startOffsetSecs)).files =
          .ok (stored.withStartOffset id startOffsetSecs) ↔
      session.KeepsSettings serde dateTime (.setInputStartOffset id startOffsetSecs) := by
  by_cases hid : ∀ input ∈ session.bundle.inputs, input.id ≠ id
  · rw [step_of_no_input id startOffsetSecs hid,
      withStartOffset_of_no_input id startOffsetSecs (h.inputs ▸ hid)]
    exact ⟨fun _ => .inr (.inr hid), fun _ => h.loaded⟩
  · rw [(h.setInputStartOffset startOffsetSecs hid).loaded]
    by_cases hnone : session.files PROJECT_CONFIG_FILE = none
    · rw [if_pos hnone]
      refine ⟨fun heq => .inr (.inl fun stored' hload => ?_), fun hkeeps => ?_⟩
      · obtain rfl : stored = stored' := Except.ok.inj (h.loaded.symm.trans hload)
        exact (congrArg StoredBundle.toProjectConfig (Except.ok.inj heq)).symm
      · rcases hkeeps with hsome | hdefault | hid'
        · exact absurd hnone hsome
        · rw [← hdefault stored h.loaded]
          rfl
        · exact absurd hid' hid
    · rw [if_neg hnone]
      exact ⟨fun _ => .inl hnone, fun _ => rfl⟩

/-- A session follows its view. -/
structure Follows (serde : JsonText Byte) (dateTime : Codec DateTime)
    (session : BundleSession Byte DateTime) (view : BundleView DateTime) : Prop where
  stores : session.Stores serde dateTime view.stored
  held : session.bundle = view.held

theorem Follows.step {view : BundleView DateTime} {action : BundleAction}
    (h : session.Follows serde dateTime view) (hkeeps : session.KeepsSettings serde dateTime action) :
    (session.step serde dateTime action).Follows serde dateTime (view.step action) := by
  obtain ⟨hstores, hheld⟩ := h
  cases action with
  | load =>
    rw [step_load hstores]
    exact ⟨.of_load hstores.loaded, rfl⟩
  | edit config =>
    refine ⟨⟨hstores.loaded, hstores.recording⟩, ?_⟩
    rw [BundleView.step, ← hheld]
    rfl
  | saveProjectConfig =>
    refine ⟨?_, hheld⟩
    rw [BundleView.step, ← hheld]
    exact hstores.saveProjectConfig
  | setInputStartOffset id startOffsetSecs =>
    have hload := (load_setInputStartOffset id startOffsetSecs hstores).mpr hkeeps
    obtain ⟨stored', hstores'⟩ := hstores.step (.setInputStartOffset id startOffsetSecs)
    obtain rfl := Except.ok.inj (hstores'.loaded.symm.trans hload)
    refine ⟨hstores', ?_⟩
    rw [BundleView.step, ← hheld]
    by_cases hid : ∀ input ∈ session.bundle.inputs, input.id ≠ id
    · rw [step_of_no_input id startOffsetSecs hid, withStartOffset_of_no_input id startOffsetSecs hid]
    · rw [step_of_input startOffsetSecs hid]

end BundleSession

open BundleSession

theorem stores_of_run {session session' : BundleSession Byte DateTime} {actions : List BundleAction}
    (hinit : (bundleSystem serde dateTime).init session)
    (hrun : (bundleSystem serde dateTime).Run session actions session') :
    ∃ stored, session'.Stores serde dateTime stored := by
  refine hrun.invariant (P := fun session => ∃ stored, session.Stores serde dateTime stored) ?_
    ⟨_, .of_load hinit⟩
  rintro session action _ ⟨stored, hstored⟩ rfl
  exact hstored.step action

theorem follows_of_run {session session' : BundleSession Byte DateTime} {actions : List BundleAction}
    (hrun : ((bundleSystem serde dateTime).restrict (KeepsSettings serde dateTime)).Run session
      actions session') {view : BundleView DateTime} (h : session.Follows serde dateTime view) :
    session'.Follows serde dateTime (actions.foldl BundleView.step view) := by
  induction hrun generalizing view with
  | nil => exact h
  | cons hstep _ ih =>
    obtain ⟨hkeeps, rfl⟩ := hstep
    exact ih (h.step hkeeps)

/-- At any point of a session, saving the settings leaves the manifest as it is and stores the settings
as they are held, with the recording as it was. Setting an offset stores it with all else as it was
exactly when the project config is there, the settings are the defaults, or there is no such input; and
a session that sets offsets only so stores and holds what its actions are for. -/
theorem bundle_frame (serde : JsonText Byte) (dateTime : Codec DateTime)
    {session session' : BundleSession Byte DateTime} {actions : List BundleAction}
    (hinit : (bundleSystem serde dateTime).init session)
    (hrun : (bundleSystem serde dateTime).Run session actions session') :
    ∃ stored, StoredBundle.load serde dateTime session'.files = .ok stored ∧
      ((session'.step serde dateTime .saveProjectConfig).files MANIFEST_FILE =
          session'.files MANIFEST_FILE ∧
        StoredBundle.load serde dateTime
            (session'.step serde dateTime .saveProjectConfig).files =
          .ok { stored with toProjectConfig := session'.bundle.toProjectConfig }) ∧
      (∀ id startOffsetSecs,
        StoredBundle.load serde dateTime
            (session'.step serde dateTime (.setInputStartOffset id startOffsetSecs)).files =
              .ok (stored.withStartOffset id startOffsetSecs) ↔
          session'.KeepsSettings serde dateTime (.setInputStartOffset id startOffsetSecs)) ∧
      (((bundleSystem serde dateTime).restrict (KeepsSettings serde dateTime)).Run session actions
          session' →
        (⟨stored, session'.bundle⟩ : BundleView DateTime) =
          actions.foldl BundleView.step ⟨session.bundle, session.bundle⟩) := by
  obtain ⟨stored, hstored⟩ := stores_of_run hinit hrun
  refine ⟨stored, hstored.loaded, ⟨?_, hstored.saveProjectConfig.loaded⟩,
    fun id startOffsetSecs => load_setInputStartOffset id startOffsetSecs hstored, fun hkeeps => ?_⟩
  · show session'.files.after (session'.bundle.saveProjectConfig serde) MANIFEST_FILE = _
    exact StoredBundle.saveProjectConfig_manifest session'.bundle
  · have hfollows : session.Follows serde dateTime ⟨session.bundle, session.bundle⟩ :=
      ⟨.of_load hinit, rfl⟩
    obtain ⟨hstores, hheld⟩ := follows_of_run hkeeps hfollows
    obtain rfl := Except.ok.inj (hstored.loaded.symm.trans hstores.loaded)
    rw [hheld]

/-! ## A manifest with settings -/

/-- Texts of whole values, and the empty text. -/
def wholeValues : JsonText Json where
  print json := [json]
  isText _ := true
  parse
    | [json] => .ok json
    | _ => .error "EOF while parsing a value at line 1 column 0"
  mismatch _ := "invalid type"
  isText_print _ := rfl
  parse_print _ := rfl

/-- A manifest of the first version, with a zoom. -/
def legacyManifest : Json :=
  .obj [
    ("version", .int 1),
    ("created_at", .str "2026-07-28T12:00:00-07:00"),
    ("inputs", .arr [.obj [
      ("id", .str "screen"),
      ("name", .str "Screen"),
      ("media", .str "inputs/screen.mp4")]]),
    ("zoom_segments", .arr [.obj [
      ("id", .int 1),
      ("start_secs", .num 1),
      ("end_secs", .num 3),
      ("target", .arr [.num 0, .num 0]),
      ("amount", .num 2),
      ("transition", .str "fast")]])]

def legacyFiles : Files String Json := fun path =>
  if path = MANIFEST_FILE then some [legacyManifest] else none

/-- What is loaded of it. -/
def legacyBundle : StoredBundle String where
  toProjectConfig := { ProjectConfig.default with
    zoomSegments := [{
      id := 1
      startSecs := 1
      endSecs := 3
      target := (0, 0)
      amount := 2
      transition := .fast }] }
  version := 1
  createdAt := "2026-07-28T12:00:00-07:00"
  inputs := [{
    id := "screen"
    name := "Screen"
    media := "inputs/screen.mp4"
    kind := .video
    startOffsetSecs := 0
    gain := 1 }]

theorem load_legacyFiles : StoredBundle.load wholeValues .string legacyFiles = .ok legacyBundle := by
  rfl

/-- Setting the offset of its input loses the zoom. -/
theorem legacy_zoom_lost :
    StoredBundle.load wholeValues .string legacyFiles = .ok legacyBundle ∧
      StoredBundle.load wholeValues .string
          (BundleSession.step wholeValues .string ⟨legacyFiles, legacyBundle⟩
            (.setInputStartOffset "screen" (1 / 8))).files ≠
        .ok (legacyBundle.withStartOffset "screen" (1 / 8)) := by
  refine ⟨load_legacyFiles, fun hload => ?_⟩
  rcases (load_setInputStartOffset _ _ (.of_load load_legacyFiles)).mp hload with h | h | h
  · exact h rfl
  · exact absurd (congrArg ProjectConfig.zoomSegments (h _ load_legacyFiles)) (by decide)
  · exact h _ List.mem_cons_self rfl

/-- A session that saves the settings first keeps the zoom. -/
theorem bundle_frame_legacy :
    ∃ stored, StoredBundle.load wholeValues .string
      (BundleSession.step wholeValues .string ⟨legacyFiles, legacyBundle⟩ .saveProjectConfig).files =
        .ok stored := by
  obtain ⟨stored, hload, -⟩ := bundle_frame wholeValues .string
    (show (bundleSystem wholeValues .string).init ⟨legacyFiles, legacyBundle⟩ from load_legacyFiles)
    (.cons rfl (.nil _))
  exact ⟨stored, hload⟩

end Blip.Capture
