import Blip.Capture.ExportTimeline
import Blip.Capture.PreviewPipeline
import Blip.Capture.WallpaperWaits
import Blip.Compositor.Pictures

/-!
# Rendering an output frame

`render_content_frame` and `render_output_frame`, the loop of `preview_worker` around them with the
content that it keeps from one request to the next, and the frames that `render_export` writes. What a
decoder shows at a time is a function of the time, and what an image is loaded as one of its index.
Numbers are exact, and the texts of the errors are left out.
-/

namespace Blip.Capture

open Compositor (CompositorItem CompositorItemContent CompositorSource Gpu PixelBuffer RenderFailure
  render renderWithOutputTransform)

variable {Frame : Type}

/-! ## The content -/

/-- A `VideoDecoder` with the camera flag and the start offset of its input. -/
structure Decoder (Frame : Type) where
  frameAt : Secs → Option (PixelBuffer Frame)
  width : ℕ
  height : ℕ
  isCamera : Bool
  startOffsetSecs : Secs

/-- `aligned_input_time`. -/
def alignedInputTime (timelineTimeSecs startOffsetSecs : Secs) : Option Secs :=
  let inputTimeSecs := timelineTimeSecs - startOffsetSecs
  if 0 ≤ inputTimeSecs then some inputTimeSecs else none

structure ContentFrame (Frame : Type) where
  screen : PixelBuffer Frame
  camera : Option (PixelBuffer Frame)
  dimensions : ℕ × ℕ

/-- An item of `active_frames`. -/
structure ActiveFrame (Frame : Type) where
  pixelBuffer : PixelBuffer Frame
  width : ℕ
  height : ℕ
  isCamera : Bool

inductive RenderError
  | noFrames (timeSecs : Secs)
  | content (failure : RenderFailure)
  | output (failure : RenderFailure)
  | overlay (failure : RenderFailure)

def activeFrame (timeSecs : Secs) (decoder : Decoder Frame) : Option (ActiveFrame Frame) := do
  let inputTimeSecs ← alignedInputTime timeSecs decoder.startOffsetSecs
  let pixelBuffer ← decoder.frameAt inputTimeSecs
  return ⟨pixelBuffer, decoder.width, decoder.height, decoder.isCamera⟩

/-- `render_content_frame`. -/
def renderContentFrame (gpu : Gpu Frame) (decoders : List (Decoder Frame)) (timeSecs : Secs) :
    Except RenderError (ContentFrame Frame) :=
  let activeFrames := decoders.filterMap (activeFrame timeSecs)
  if activeFrames = [] then .error (.noFrames timeSecs)
  else
    let canvas := ((activeFrames.find? fun frame => !frame.isCamera).or activeFrames.head?).elim
      (1920, 1080) fun frame => (frame.width, frame.height)
    let hasScreen := activeFrames.any fun frame => !frame.isCamera
    let camera := if hasScreen then
        (activeFrames.reverse.find? fun frame => frame.isCamera).map ActiveFrame.pixelBuffer
      else none
    let screenFrames := activeFrames.filter fun frame => !hasScreen || !frame.isCamera
    let sources := screenFrames.map fun frame => CompositorSource.mk frame.pixelBuffer none
    let items := (List.range screenFrames.length).map fun index =>
      CompositorItem.mk (.source index) (.new (1 / 2, 1 / 2) (1, 1))
    (render gpu sources items canvas).mapError .content |>.map fun screen =>
      { screen
        camera
        dimensions := canvas }

/-! ## The output -/

/-- `preview_background`. -/
def previewBackground : BackgroundType → CompositorItemContent
  | .color | .image => .color (0.173, 0.184, 0.227, 1)
  | .gradient => .gradient (0.435, 0.239, 0.518, 1) (0.118, 0.212, 0.373, 1)

/-- The settings that `render_output_frame` is given, of a request or of an export. -/
structure OutputSettings where
  backgroundType : BackgroundType
  padding : ℚ
  borderRadius : ℚ
  shadow : ℚ
  cameraLayout : CameraLayout
  screenCrop : Option ScreenCrop

/-- The item of the content, with its corners and its shadow. -/
def styledContent (cropped output : ℕ × ℕ) (settings : OutputSettings) : Compositor.ItemTransform :=
  let placed := contentTransform cropped output settings.padding
  let shortest := min (placed.size.1 * output.1) (placed.size.2 * output.2)
  let strength := settings.shadow / 50
  { placed with
    cornerRadius := shortest * settings.borderRadius / 100
    squircle := true
    boxShadow := some
      { offset := (0, shortest * 0.02 * strength)
        color := (0, 0, 0, 0.9 * strength)
        blurRadius := shortest * 0.02 * strength
        spreadRadius := shortest * -0.001 * strength } }

/-- The item of the camera. -/
def StyledTransform.item (transform : StyledTransform) : Compositor.ItemTransform :=
  { transform with boxShadow := some transform.boxShadow }

/-- `render_output_frame`. -/
def renderOutputFrame (gpu : Gpu Frame) (content : ContentFrame Frame) (output : ℕ × ℕ)
    (wallpaper : Option (PixelBuffer Frame)) (settings : OutputSettings) (zoom : OutputTransform) :
    Except RenderError (PixelBuffer Frame) := do
  let crop := settings.screenCrop.map ScreenCrop.stored
  let (screenContentRect, cropped) := screenCropRect content.dimensions crop
  let transform := styledContent cropped output settings
  let background : List (CompositorSource Frame) × CompositorItemContent := match wallpaper with
    | some wallpaper =>
      ([⟨wallpaper, some (coverContentRect wallpaper.width wallpaper.height output.1 output.2)⟩],
        .source 0)
    | none => ([], previewBackground settings.backgroundType)
  let sources := background.1 ++ [⟨content.screen, some screenContentRect⟩]
  let items : List CompositorItem :=
    [⟨background.2, .new (1 / 2, 1 / 2) (1, 1)⟩, ⟨.source background.1.length, transform⟩]
  let combined ← (renderWithOutputTransform gpu sources items output
    (outputTransform zoom crop transform.toItemTransform)).mapError .output
  match content.camera with
  | none => return combined
  | some camera =>
    let cameraContentRect := (cameraCropRect (camera.width, camera.height) settings.cameraLayout.crop).1
    (render gpu [⟨combined, none⟩, ⟨camera, some cameraContentRect⟩]
      [⟨.source 0, .new (1 / 2, 1 / 2) (1, 1)⟩,
        ⟨.source 1, (cameraOverlay (camera.width, camera.height) (output.1, output.2)
          settings.cameraLayout zoom.scale).item⟩] output).mapError .overlay

/-! ## The preview -/

/-- What the preview worker is started with: the decoders that opened, and what the background images are
loaded as; the thread that loads them may fail to start. -/
structure PreviewInputs (Frame : Type) where
  gpu : Gpu Frame
  decoders : List (Decoder Frame)
  load : ℕ → Option (PixelBuffer Frame)
  count : ℕ
  started : Bool

def PreviewSettings.output (settings : PreviewSettings) : OutputSettings :=
  { settings with }

/-- The size of the preview for a content frame. -/
def previewDimensions (content : ContentFrame Frame) (settings : PreviewSettings) : ℕ × ℕ :=
  let cropped := (screenCropRect content.dimensions (settings.screenCrop.map ScreenCrop.stored)).2
  let previewShortEdge := min (min cropped.1 cropped.2) 1080
  outputDimensions previewShortEdge cropped settings.aspectRatio settings.padding

def PreviewRequest.wallpaper (request : PreviewRequest) : WallpaperRequest where
  backgroundType := request.content.settings.backgroundType
  backgroundPreset := request.content.settings.backgroundPreset

/-- The worker with its wallpapers, the request that it works on, `content_frame_cache` and the results
that it has sent. Beside them: the requests that it has done with. -/
structure PreviewFrames (Frame : Type) where
  wallpapers : Wallpapers (PixelBuffer Frame)
  request : Option PreviewRequest
  contentFrameCache : Option (Secs × ContentFrame Frame)
  results : List (PreviewResult (PixelBuffer Frame × PixelBuffer Frame))
  done : List PreviewRequest

inductive PreviewFrameStep
  | request (request : PreviewRequest)
  | choose
  | decode
  | drain
  | ask
  | receive
  | close
  | content
  | compose (sent : Bool)

namespace PreviewFrames

variable (inputs : PreviewInputs Frame) (s : PreviewFrames Frame)

/-- A step of the wallpapers alone. -/
def background (label : WallpaperStep (PixelBuffer Frame)) : Option (PreviewFrames Frame) :=
  (s.wallpapers.step label).map fun wallpapers => { s with wallpapers }

/-- The worker is done with its request. -/
def finish (request : PreviewRequest) (label : WallpaperStep (PixelBuffer Frame)) :
    Option (PreviewFrames Frame) :=
  (s.background label).map fun s =>
    { s with
      request := none
      done := s.done ++ [request] }

/-- The content of a request, unless what is kept is of its time. -/
def content : Option (PreviewFrames Frame) :=
  match s.request with
  | none => none
  | some request =>
    if (s.contentFrameCache.map Prod.fst) = some request.content.timeSecs then
      s.background (.content true)
    else
      match renderContentFrame inputs.gpu inputs.decoders request.content.timeSecs with
      | .error _ => s.finish request (.content false)
      | .ok frame =>
        background { s with contentFrameCache := some (request.content.timeSecs, frame) } (.content true)

/-- The wallpaper of a request, as far as it is there. -/
def wallpaper (request : PreviewRequest) : Option (PixelBuffer Frame) :=
  if request.wallpaper.backgroundType = .image then
    (s.wallpapers.backgroundFrames[request.wallpaper.backgroundPreset]?).join
  else none

/-- The output of a request, which the window takes as long as it is there. -/
def compose (sent : Bool) : Option (PreviewFrames Frame) :=
  match s.request, s.contentFrameCache with
  | some request, some (_, frame) =>
    let settings := request.content.settings
    match renderOutputFrame inputs.gpu frame (previewDimensions frame settings) (s.wallpaper request)
      settings.output request.content.zoom with
    | .error _ => s.finish request (.compose true)
    | .ok output =>
      let result : PreviewResult (PixelBuffer Frame × PixelBuffer Frame) :=
        { playbackGeneration := request.playbackGeneration
          timelineTimeSecs := request.timelineTimeSecs
          frame := (output, frame.screen) }
      if sent then finish { s with results := s.results ++ [result] } request (.compose true)
      else (s.background (.compose false)).map fun s => { s with request := none }
  | _, _ => none

def step : PreviewFrameStep → Option (PreviewFrames Frame)
  | .request request =>
    background { s with request := some request } (.request request.wallpaper)
  | .choose => s.background .choose
  | .decode =>
    match s.wallpapers.worker.phase with
    | .decoding index => s.background (.decode (inputs.load index))
    | _ => none
  | .drain => s.background .drain
  | .ask => s.background .ask
  | .receive => s.background .receive
  | .close => s.background .close
  | .content => s.content inputs
  | .compose sent => s.compose inputs sent

def initial : PreviewFrames Frame where
  wallpapers := .initial (PixelBuffer Frame) inputs.count inputs.started
  request := none
  contentFrameCache := none
  results := []
  done := []

end PreviewFrames

/-- The preview worker with what loads its wallpapers. -/
def previewFrames (inputs : PreviewInputs Frame) : System (PreviewFrames Frame) PreviewFrameStep where
  init := fun s => s = .initial inputs
  step := fun s label s' => s.step inputs label = some s'

/-! ## The export -/

/-- What `render_export` renders with: its decoders, all of them open, and its wallpaper. -/
structure ExportInputs (Frame : Type) where
  gpu : Gpu Frame
  decoders : List (Decoder Frame)
  wallpaper : Option (PixelBuffer Frame)
  shortEdge : ℕ
  aspectRatio : OutputAspectRatio
  settings : OutputSettings

/-- The size of an export. -/
def ExportInputs.dimensions (inputs : ExportInputs Frame) : ℕ × ℕ :=
  let source := ((inputs.decoders.find? fun decoder => !decoder.isCamera).or inputs.decoders.head?).elim
    (1920, 1080) fun decoder => (decoder.width, decoder.height)
  let cropped := (screenCropRect source (inputs.settings.screenCrop.map ScreenCrop.stored)).2
  outputDimensions inputs.shortEdge cropped inputs.aspectRatio inputs.settings.padding

/-- The frame of an export at a source time, with the zoom of the timeline. -/
def ExportInputs.renderFrame (inputs : ExportInputs Frame) (zoomSegments : List ZoomSegment)
    (text : RenderError → String) (sourceTimeSecs timelineTimeSecs : Secs) :
    Except String (PixelBuffer Frame) :=
  Except.mapError text do
    let content ← renderContentFrame inputs.gpu inputs.decoders sourceTimeSecs
    renderOutputFrame inputs.gpu content inputs.dimensions inputs.wallpaper inputs.settings
      (zoomTransformAt zoomSegments timelineTimeSecs)

/-- What an export of the window's settings renders with, if an image that they choose can be loaded. -/
def PreviewInputs.exportInputs (inputs : PreviewInputs Frame) (settings : PreviewSettings)
    (shortEdge : ℕ) :
    Option (ExportInputs Frame) :=
  let wallpaper : Option (Option (PixelBuffer Frame)) :=
    if settings.backgroundType = .image ∧ settings.backgroundPreset < inputs.count then
      (inputs.load settings.backgroundPreset).map some
    else some none
  wallpaper.map fun wallpaper =>
    { gpu := inputs.gpu
      decoders := inputs.decoders
      wallpaper
      shortEdge
      aspectRatio := settings.aspectRatio
      settings := settings.output }

/-- The job that `start_export` makes of the window. -/
def BundleEditor.exportJob (editor : BundleEditor) (fps : ℕ) (audioMixer : Audio.AudioMixer) :
    ExportJob where
  fps
  durationSecs := editor.durationSecs
  bundle := editor.bundle
  audioMixer

end Blip.Capture
