import Blip.Capture.PreviewRequests
import Blip.Common.Files
import Blip.Common.Json

/-!
# The files of a recording bundle

The records of `bundle.rs`, how they are written to the manifest and to the project config, and what
loading, saving the edits and setting an input's offset do to the two files. The settings of the editor
are read from the manifest and, when it is there, from the project config; they are written to the
project config only.
-/

namespace Blip.Capture

/-! ## Records -/

inductive ExportFormat
  | mp4
  | mov
deriving DecidableEq, Repr

inductive ExportResolution
  | p1080
  | p720
deriving DecidableEq, Repr

structure ExportSettings where
  format : ExportFormat
  resolution : ExportResolution
  fps : UInt32
  destination : Option String
deriving DecidableEq, Repr

structure ProjectAppearance where
  backgroundType : BackgroundType
  backgroundImage : String
  padding : ℚ
  borderRadius : ℚ
  shadow : ℚ
deriving DecidableEq, Repr

inductive VideoSegmentResizeMode
  | ghost
  | live
deriving DecidableEq, Repr

inductive BundleInputKind
  | video
  | audio
deriving DecidableEq, Repr

structure BundleInput where
  id : String
  name : String
  media : String
  kind : BundleInputKind
  startOffsetSecs : Secs
  gain : ℚ
deriving DecidableEq, Repr

/-- The settings of the editor. -/
structure ProjectConfig where
  zoomSegments : List ZoomSegment
  videoSegments : Option (List VideoSegment)
  videoSegmentResizeMode : VideoSegmentResizeMode
  cameraLayout : CameraLayout
  outputAspectRatio : OutputAspectRatio
  screenCrop : Option ScreenCrop
  appearance : ProjectAppearance
  exportSettings : ExportSettings
deriving DecidableEq, Repr

/-- All of a bundle: what its manifest says of the recording, and the settings of the editor, which are
those of `ProjectConfig`. -/
structure StoredBundle (DateTime : Type) extends ProjectConfig where
  version : UInt32
  createdAt : DateTime
  inputs : List BundleInput
deriving DecidableEq

/-! ## Defaults -/

def defaultBackgroundImage : String := "tahoe-dusk.jpg"

def defaultBackgroundPadding : ℚ := 8

def defaultBorderRadius : ℚ := 8

def defaultShadow : ℚ := 20

def defaultExportFps : UInt32 := 30

def defaultAudioGain : ℚ := 1

def defaultCameraShadow : ℚ := 20

def ProjectAppearance.default : ProjectAppearance where
  backgroundType := .gradient
  backgroundImage := defaultBackgroundImage
  padding := defaultBackgroundPadding
  borderRadius := defaultBorderRadius
  shadow := defaultShadow

def ExportSettings.default : ExportSettings where
  format := .mp4
  resolution := .p1080
  fps := defaultExportFps
  destination := none

def CameraLayout.default : CameraLayout where
  size := 28
  position := .bottomRight
  edgePadding := 3
  zoomSizeReduction := 15
  shadow := 20
  crop := .squirectangle

/-- The settings of a bundle that has none. -/
def ProjectConfig.default : ProjectConfig where
  zoomSegments := []
  videoSegments := none
  videoSegmentResizeMode := .ghost
  cameraLayout := .default
  outputAspectRatio := .wide
  screenCrop := none
  appearance := .default
  exportSettings := .default

/-! ## Enumerations -/

def BackgroundType.codec : Codec BackgroundType :=
  .enumeration [(.color, "color"), (.image, "image"), (.gradient, "gradient")]
    fun value => by cases value <;> rfl

def ExportFormat.codec : Codec ExportFormat :=
  .enumeration [(.mp4, "mp4"), (.mov, "mov")]
    fun value => by cases value <;> rfl

def ExportResolution.codec : Codec ExportResolution :=
  .enumeration [(.p1080, "p1080"), (.p720, "p720")]
    fun value => by cases value <;> rfl

def OutputAspectRatio.codec : Codec OutputAspectRatio :=
  .enumeration [(.auto, "auto"), (.wide, "wide"), (.vertical, "vertical"), (.square, "square"),
    (.classic, "classic"), (.tall, "tall")]
    fun value => by cases value <;> rfl

def BundleInputKind.codec : Codec BundleInputKind :=
  .enumeration [(.video, "video"), (.audio, "audio")]
    fun value => by cases value <;> rfl

def VideoSegmentResizeMode.codec : Codec VideoSegmentResizeMode :=
  .enumeration [(.ghost, "ghost"), (.live, "live")]
    fun value => by cases value <;> rfl

def CameraPosition.codec : Codec CameraPosition :=
  .enumeration [(.topLeft, "top_left"), (.topCenter, "top_center"), (.topRight, "top_right"),
    (.middleLeft, "middle_left"), (.center, "center"), (.middleRight, "middle_right"),
    (.bottomLeft, "bottom_left"), (.bottomCenter, "bottom_center"),
    (.bottomRight, "bottom_right")]
    fun value => by cases value <;> rfl

def CameraCrop.codec : Codec CameraCrop :=
  .enumeration [(.circle, "circle"), (.squircle, "squircle"), (.squirectangle, "squirectangle")]
    fun value => by cases value <;> rfl

def ZoomTransitionSpeed.codec : Codec ZoomTransitionSpeed :=
  .enumeration [(.slow, "slow"), (.medium, "medium"), (.fast, "fast")]
    fun value => by cases value <;> rfl

/-! ## Records as JSON -/

def ScreenCrop.codec : Codec ScreenCrop :=
  .record ["position", "size"]
    (fun crop => [
      ("position", (Codec.pair .rational).encode crop.position),
      ("size", (Codec.pair .rational).encode crop.size)])
    (fun fields => do
      let position ← (Codec.pair .rational).required "position" fields
      let size ← (Codec.pair .rational).required "size" fields
      pure {
        position
        size })
    (by decide) (fun _ => .refl _) (fun _ => by simp)

theorem ScreenCrop.encode_ne_null (crop : ScreenCrop) : ScreenCrop.codec.encode crop ≠ .null :=
  Codec.record_ne_null crop

def VideoSegment.codec : Codec VideoSegment :=
  .record ["id", "source_start_secs", "source_end_secs"]
    (fun segment => [
      ("id", Codec.uint64.encode segment.id),
      ("source_start_secs", Codec.rational.encode segment.sourceStartSecs),
      ("source_end_secs", Codec.rational.encode segment.sourceEndSecs)])
    (fun fields => do
      let id ← Codec.uint64.required "id" fields
      let sourceStartSecs ← Codec.rational.required "source_start_secs" fields
      let sourceEndSecs ← Codec.rational.required "source_end_secs" fields
      pure {
        id
        sourceStartSecs
        sourceEndSecs })
    (by decide) (fun _ => .refl _) (fun _ => by simp)

def ZoomSegment.codec : Codec ZoomSegment :=
  .record ["id", "start_secs", "end_secs", "target", "amount", "transition"]
    (fun segment => [
      ("id", Codec.uint64.encode segment.id),
      ("start_secs", Codec.rational.encode segment.startSecs),
      ("end_secs", Codec.rational.encode segment.endSecs),
      ("target", (Codec.pair .rational).encode segment.target),
      ("amount", Codec.rational.encode segment.amount),
      ("transition", ZoomTransitionSpeed.codec.encode segment.transition)])
    (fun fields => do
      let id ← Codec.uint64.required "id" fields
      let startSecs ← Codec.rational.required "start_secs" fields
      let endSecs ← Codec.rational.required "end_secs" fields
      let target ← (Codec.pair .rational).required "target" fields
      let amount ← Codec.rational.required "amount" fields
      let transition ← ZoomTransitionSpeed.codec.required "transition" fields
      pure {
        id
        startSecs
        endSecs
        target
        amount
        transition })
    (by decide) (fun _ => .refl _) (fun _ => by simp)

def CameraLayout.codec : Codec CameraLayout :=
  .record ["size", "position", "edge_padding", "zoom_size_reduction", "shadow", "crop"]
    (fun layout => [
      ("size", Codec.rational.encode layout.size),
      ("position", CameraPosition.codec.encode layout.position),
      ("edge_padding", Codec.rational.encode layout.edgePadding),
      ("zoom_size_reduction", Codec.rational.encode layout.zoomSizeReduction),
      ("shadow", Codec.rational.encode layout.shadow),
      ("crop", CameraCrop.codec.encode layout.crop)])
    (fun fields => do
      let size ← Codec.rational.required "size" fields
      let position ← CameraPosition.codec.required "position" fields
      let edgePadding ← Codec.rational.required "edge_padding" fields
      let zoomSizeReduction ← Codec.rational.required "zoom_size_reduction" fields
      let shadow ← Codec.rational.defaulted "shadow" defaultCameraShadow fields
      let crop ← CameraCrop.codec.defaulted "crop" .squirectangle fields
      pure {
        size
        position
        edgePadding
        zoomSizeReduction
        shadow
        crop })
    (by decide) (fun _ => .refl _) (fun _ => by simp)

def ProjectAppearance.codec : Codec ProjectAppearance :=
  .record ["background_type", "background_image", "padding", "border_radius", "shadow"]
    (fun appearance => [
      ("background_type", BackgroundType.codec.encode appearance.backgroundType),
      ("background_image", Codec.string.encode appearance.backgroundImage),
      ("padding", Codec.rational.encode appearance.padding),
      ("border_radius", Codec.rational.encode appearance.borderRadius),
      ("shadow", Codec.rational.encode appearance.shadow)])
    (fun fields => do
      let backgroundType ← BackgroundType.codec.defaulted "background_type" .gradient fields
      let backgroundImage ←
        Codec.string.defaulted "background_image" defaultBackgroundImage fields
      let padding ← Codec.rational.defaulted "padding" defaultBackgroundPadding fields
      let borderRadius ← Codec.rational.defaulted "border_radius" defaultBorderRadius fields
      let shadow ← Codec.rational.defaulted "shadow" defaultShadow fields
      pure {
        backgroundType
        backgroundImage
        padding
        borderRadius
        shadow })
    (by decide) (fun _ => .refl _) (fun _ => by simp)

def ExportSettings.codec : Codec ExportSettings :=
  .record ["format", "resolution", "fps", "destination"]
    (fun settings => [
      ("format", ExportFormat.codec.encode settings.format),
      ("resolution", ExportResolution.codec.encode settings.resolution),
      ("fps", Codec.uint32.encode settings.fps)] ++
      Codec.string.skipNone "destination" settings.destination [])
    (fun fields => do
      let format ← ExportFormat.codec.defaulted "format" .mp4 fields
      let resolution ← ExportResolution.codec.defaulted "resolution" .p1080 fields
      let fps ← Codec.uint32.defaulted "fps" defaultExportFps fields
      let destination ←
        (Codec.option .string Codec.string_ne_null).defaulted "destination" none fields
      pure {
        format
        resolution
        fps
        destination })
    (by decide)
    (fun _ => .cons_cons _ <| .cons_cons _ <| .cons_cons _ <| Codec.skipNone_sublist <| .refl _)
    (fun _ => by simp)

def BundleInput.codec : Codec BundleInput :=
  .record ["id", "name", "media", "kind", "start_offset_secs", "gain"]
    (fun input => [
      ("id", Codec.string.encode input.id),
      ("name", Codec.string.encode input.name),
      ("media", Codec.string.encode input.media),
      ("kind", BundleInputKind.codec.encode input.kind),
      ("start_offset_secs", Codec.rational.encode input.startOffsetSecs),
      ("gain", Codec.rational.encode input.gain)])
    (fun fields => do
      let id ← Codec.string.required "id" fields
      let name ← Codec.string.required "name" fields
      let media ← Codec.string.required "media" fields
      let kind ← BundleInputKind.codec.defaulted "kind" .video fields
      let startOffsetSecs ← Codec.rational.defaulted "start_offset_secs" 0 fields
      let gain ← Codec.rational.defaulted "gain" defaultAudioGain fields
      pure {
        id
        name
        media
        kind
        startOffsetSecs
        gain })
    (by decide) (fun _ => .refl _) (fun _ => by simp)

/-- The settings of the editor, each of which has a default; both files are read for them. -/
def ProjectConfig.read (fields : List (String × Json)) : Option ProjectConfig := do
  let zoomSegments ← (Codec.list ZoomSegment.codec).defaulted "zoom_segments" [] fields
  let videoSegments ←
    (Codec.option (.list VideoSegment.codec) (Codec.list_ne_null _)).defaulted
      "video_segments" none fields
  let videoSegmentResizeMode ←
    VideoSegmentResizeMode.codec.defaulted "video_segment_resize_mode" .ghost fields
  let cameraLayout ← CameraLayout.codec.defaulted "camera_layout" .default fields
  let outputAspectRatio ← OutputAspectRatio.codec.defaulted "output_aspect_ratio" .wide fields
  let screenCrop ←
    (Codec.option ScreenCrop.codec ScreenCrop.encode_ne_null).defaulted "screen_crop" none fields
  let appearance ← ProjectAppearance.codec.defaulted "appearance" .default fields
  let exportSettings ← ExportSettings.codec.defaulted "export_settings" .default fields
  pure {
    zoomSegments
    videoSegments
    videoSegmentResizeMode
    cameraLayout
    outputAspectRatio
    screenCrop
    appearance
    exportSettings }

def ProjectConfig.names : List String :=
  ["zoom_segments", "video_segments", "video_segment_resize_mode", "camera_layout",
    "output_aspect_ratio", "screen_crop", "appearance", "export_settings"]

def ProjectConfig.codec : Codec ProjectConfig :=
  .record names
    (fun config =>
      ("zoom_segments", (Codec.list ZoomSegment.codec).encode config.zoomSegments) ::
      (Codec.list VideoSegment.codec).skipNone "video_segments" config.videoSegments (
      ("video_segment_resize_mode",
        VideoSegmentResizeMode.codec.encode config.videoSegmentResizeMode) ::
      ("camera_layout", CameraLayout.codec.encode config.cameraLayout) ::
      ("output_aspect_ratio", OutputAspectRatio.codec.encode config.outputAspectRatio) ::
      ScreenCrop.codec.skipNone "screen_crop" config.screenCrop [
      ("appearance", ProjectAppearance.codec.encode config.appearance),
      ("export_settings", ExportSettings.codec.encode config.exportSettings)]))
    read (by decide)
    (fun _ => .cons_cons _ <| Codec.skipNone_sublist <| .cons_cons _ <| .cons_cons _ <|
      .cons_cons _ <| Codec.skipNone_sublist <| .refl _)
    (fun _ => by simp [read])

/-! ## The two files -/

def MANIFEST_FILE : String := "manifest.json"

def PROJECT_CONFIG_FILE : String := "project-config.json"

/-- Why the text of a file cannot be read. -/
inductive ReadError
  | notFound
  | invalidData
deriving DecidableEq

def ReadError.text : ReadError → String
  | notFound => "No such file or directory (os error 2)"
  | invalidData => "stream did not contain valid UTF-8"

section

variable {Byte DateTime : Type} (serde : JsonText Byte) (dateTime : Codec DateTime)

/-- `fs::read_to_string`. -/
def readToString (files : Files String Byte) (path : String) : Except ReadError (List Byte) :=
  match files path with
  | none => .error .notFound
  | some contents => if serde.isText contents then .ok contents else .error .invalidData

variable {serde} in
theorem readToString_eq_notFound {files : Files String Byte} {path : String} :
    readToString serde files path = .error .notFound ↔ files path = none := by
  unfold readToString
  split
  · simp_all
  · split <;> simp_all

theorem readToString_print {files : Files String Byte} {path : String} {json : Json}
    (h : files path = some (serde.print json)) :
    readToString serde files path = .ok (serde.print json) := by
  rw [readToString, h]
  exact if_pos (serde.isText_print json)

namespace StoredBundle

/-- What is written of a bundle: its recording. -/
def encode (bundle : StoredBundle DateTime) : Json :=
  .obj [
    ("version", Codec.uint32.encode bundle.version),
    ("created_at", dateTime.encode bundle.createdAt),
    ("inputs", (Codec.list BundleInput.codec).encode bundle.inputs)]

/-- What is read of a bundle: its recording, and settings that older manifests have. -/
def decode : Json → Option (StoredBundle DateTime) :=
  Codec.readRecord (["version", "created_at", "inputs"] ++ ProjectConfig.names) fun fields => do
    let version ← Codec.uint32.required "version" fields
    let createdAt ← dateTime.required "created_at" fields
    let inputs ← (Codec.list BundleInput.codec).required "inputs" fields
    let config ← ProjectConfig.read fields
    pure {
      toProjectConfig := config
      version
      createdAt
      inputs }

/-- A manifest that was written has no settings. -/
theorem decode_encode (bundle : StoredBundle DateTime) :
    decode dateTime (bundle.encode dateTime) =
      some { bundle with toProjectConfig := .default } := by
  rw [decode, encode, Codec.readRecord_obj (by simp)]
  simp [ProjectConfig.read, Codec.defaulted, List.lookup_cons, ProjectConfig.default]

def load (files : Files String Byte) : Except String (StoredBundle DateTime) := do
  let contents ← (readToString serde files MANIFEST_FILE).mapError fun error =>
    "failed to read Blip Bundle: " ++ error.text
  let bundle ← (serde.fromText (decode dateTime) contents).mapError fun error =>
    "failed to decode Blip Bundle: " ++ error
  match readToString serde files PROJECT_CONFIG_FILE with
  | .ok contents =>
    let config ← (serde.fromText ProjectConfig.codec.decode contents).mapError fun error =>
      "failed to decode project config: " ++ error
    pure { bundle with toProjectConfig := config }
  | .error .notFound => pure bundle
  | .error error => .error ("failed to read project config: " ++ error.text)

/-- The file operations of a save. -/
def saveManifest (bundle : StoredBundle DateTime) : List (FileOp String Byte) :=
  [.write MANIFEST_FILE (serde.print (bundle.encode dateTime))]

def saveProjectConfig (bundle : StoredBundle DateTime) : List (FileOp String Byte) :=
  [.write PROJECT_CONFIG_FILE (serde.print (ProjectConfig.codec.encode bundle.toProjectConfig))]

/-- The inputs with the offset of the first of the name set, if there is one. -/
def setStartOffset (id : String) (startOffsetSecs : Secs) :
    List BundleInput → Option (List BundleInput)
  | [] => none
  | input :: inputs =>
    if input.id = id then some ({ input with startOffsetSecs } :: inputs)
    else (setStartOffset id startOffsetSecs inputs).map (input :: ·)

def setInputStartOffset (bundle : StoredBundle DateTime) (id : String) (startOffsetSecs : Secs) :
    Except String (StoredBundle DateTime × List (FileOp String Byte)) :=
  match setStartOffset id startOffsetSecs bundle.inputs with
  | none => .error ("Blip Bundle has no " ++ id ++ " input")
  | some inputs =>
    let bundle := { bundle with inputs }
    .ok (bundle, bundle.saveManifest serde dateTime)

end StoredBundle

end

end Blip.Capture
