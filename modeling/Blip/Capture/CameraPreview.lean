import Blip.Capture.PreviewRequests
import Blip.Capture.Region
import Blip.Common.System

/-!
# The camera preview

`apps/blip-capture/src/camera_preview.rs`. A callback of the camera, the window and the thread of the
compositor share the newest frame, the style as an atomic number, and two channels with room for one
element, where a newer element takes the place of the one before. The controls of the window fade out by
timers that nobody cancels. A corner of the preview is dragged to resize its window; pixels are exact
numbers.

A picture is told by the frame and the style it was rendered from. What the compositor and the camera
answer is in the labels.
-/

namespace Blip.Capture

/-! ## Styles -/

/-- `CameraCrop::from_atomic`. -/
def CameraCrop.fromAtomic : ℕ → CameraCrop
  | 0 => .circle
  | 1 => .squircle
  | _ => .squirectangle

/-- `CameraCrop::atomic_value`. -/
def CameraCrop.atomicValue : CameraCrop → ℕ
  | .circle => 0
  | .squircle => 1
  | .squirectangle => 2

/-- The style that follows in `cycle_style`. -/
def CameraCrop.cycled : CameraCrop → CameraCrop
  | .circle => .squircle
  | .squircle => .squirectangle
  | .squirectangle => .circle

/-! ## Frames -/

/-- Where `cycle_style` is: after its store, and after it has read the newest frame. -/
inductive CyclePhase (Frame : Type)
  | idle
  | stored
  | read (frame : Frame)

/-- Where `process_camera_frames` is. -/
inductive CameraProcessor (Frame : Type)
  | starting
  | idle
  | received (frame : Frame)
  | rendering (frame : Frame) (style : CameraCrop)
  | stopped

/-- The fields of `CameraPreview` that a frame passes through, with the callback that has still to submit
its frame (`capturing`) and whether the window takes results (`listening`). Beside them: the frame that
was submitted last, and whether a newer one was captured before it. -/
structure CameraPreview (Frame : Type) where
  frame : Option (Frame × CameraCrop)
  error : Option String
  style : CameraCrop
  requestedStyle : CameraCrop
  sharedStyle : ℕ
  cycling : CyclePhase Frame
  latestCameraFrame : Option Frame
  capturing : Option Frame
  processorFrames : Option Frame
  processor : CameraProcessor Frame
  processedFrames : Option (Except String (Frame × CameraCrop))
  listening : Bool
  submitted : Option Frame
  overtaken : Bool

inductive CameraStep (Frame : Type)
  | started (outcome : Except String Unit)
  | cycleStyle
  | readLatest
  | sendLatest
  | capture (frame : Frame)
  | sendCaptured
  | initialized (outcome : Except String Unit)
  | receive
  | loadStyle
  | render (outcome : Except String Unit)
  | deliver

namespace CameraPreview

variable {Frame : Type} (preview : CameraPreview Frame)

/-- `force_send` of a frame; without its thread the channel is closed. -/
def submit (frame : Frame) : CameraPreview Frame :=
  match preview.processor with
  | .stopped => preview
  | _ =>
    { preview with
      processorFrames := some frame
      submitted := some frame }

/-- The window takes a result. -/
def take (result : Except String (Frame × CameraCrop)) : CameraPreview Frame :=
  match result with
  | .ok (frame, style) =>
    { preview with
      processedFrames := none
      style
      frame := some (frame, style)
      error := none }
  | .error message =>
    { preview with
      processedFrames := none
      error := some message }

/-- A step of the window, of which `cycle_style` is one turn. -/
def window [DecidableEq Frame] : CameraStep Frame → Option (CameraPreview Frame)
  | .started outcome =>
    if preview.listening then none
    else
      match outcome with
      | .ok () => some { preview with listening := true }
      | .error message => some
          { preview with
            listening := true
            error := some message }
  | .cycleStyle =>
    match preview.cycling with
    | .idle => some
        { preview with
          requestedStyle := preview.requestedStyle.cycled
          sharedStyle := preview.requestedStyle.cycled.atomicValue
          cycling := .stored }
    | _ => none
  | .readLatest =>
    match preview.cycling, preview.latestCameraFrame with
    | .stored, none => some { preview with cycling := .idle }
    | .stored, some frame => some { preview with cycling := .read frame }
    | _, _ => none
  | .sendLatest =>
    match preview.cycling with
    | .read frame => some
        { preview.submit frame with
          cycling := .idle
          overtaken := preview.latestCameraFrame ≠ some frame }
    | _ => none
  | .deliver =>
    match preview.cycling, preview.listening, preview.processedFrames with
    | .idle, true, some result => some (preview.take result)
    | _, _, _ => none
  | _ => none

/-- A step of the callback. -/
def camera : CameraStep Frame → Option (CameraPreview Frame)
  | .capture frame =>
    match preview.capturing with
    | none => some
        { preview with
          latestCameraFrame := some frame
          capturing := some frame }
    | some _ => none
  | .sendCaptured =>
    match preview.capturing with
    | some frame => some
        { preview.submit frame with
          capturing := none
          overtaken := false }
    | none => none
  | _ => none

/-- A step of `process_camera_frames`. -/
def process : CameraStep Frame → Option (CameraPreview Frame)
  | .initialized outcome =>
    match preview.processor, outcome with
    | .starting, .ok () => some { preview with processor := .idle }
    | .starting, .error message => some
        { preview with
          processor := .stopped
          processorFrames := none
          processedFrames := some (.error s!"Failed to initialized camera compositor: {message}") }
    | _, _ => none
  | .receive =>
    match preview.processor, preview.processorFrames with
    | .idle, some frame => some
        { preview with
          processor := .received frame
          processorFrames := none }
    | _, _ => none
  | .loadStyle =>
    match preview.processor with
    | .received frame => some
        { preview with processor := .rendering frame (CameraCrop.fromAtomic preview.sharedStyle) }
    | _ => none
  | .render outcome =>
    match preview.processor with
    | .rendering frame style => some
        { preview with
          processor := .idle
          processedFrames := some
            (match outcome with
            | .ok () => .ok (frame, style)
            | .error message => .error s!"Failed to render camera preview: {message}") }
    | _ => none
  | _ => none

def step [DecidableEq Frame] (label : CameraStep Frame) : Option (CameraPreview Frame) :=
  match label with
  | .started _ | .cycleStyle | .readLatest | .sendLatest | .deliver => preview.window label
  | .capture _ | .sendCaptured => preview.camera label
  | .initialized _ | .receive | .loadStyle | .render _ => preview.process label

/-- `CameraPreview::new`; the thread of the compositor may fail to start. -/
def new (Frame : Type) (processorError : Option String) : CameraPreview Frame where
  frame := none
  error := processorError.map fun error => s!"Failed to start camera compositor: {error}"
  style := .squirectangle
  requestedStyle := .squirectangle
  sharedStyle := CameraCrop.squirectangle.atomicValue
  cycling := .idle
  latestCameraFrame := none
  capturing := none
  processorFrames := none
  processor := if processorError.isSome then .stopped else .starting
  processedFrames := none
  listening := false
  submitted := none
  overtaken := false

end CameraPreview

def cameraPreview (Frame : Type) [DecidableEq Frame] :
    System (CameraPreview Frame) (CameraStep Frame) where
  init := fun s => ∃ processorError, s = .new Frame processorError
  step := fun s label s' => s.step label = some s'

/-! ## Controls -/

/-- The fields that show the controls, and the transitions that timers have been started for. -/
structure CameraControls where
  pointerInside : Bool
  hovered : Bool
  controlsVisible : Bool
  controlsTransition : ℕ
  resizing : Bool
  timers : List ℕ
deriving DecidableEq

inductive ControlStep
  | mouseMove
  | mouseExit
  | beginResize
  | mouseUp
  | timer (index : ℕ)

/-- `usize::MAX`. -/
def controlsMax : ℕ := 2 ^ 64 - 1

namespace CameraControls

variable (controls : CameraControls)

def nextTransition : ℕ := min (controls.controlsTransition + 1) controlsMax

/-- The pointer is over the window; the controls are shown if they were not. -/
def hover : CameraControls :=
  if controls.hovered then { controls with pointerInside := true }
  else
    { controls with
      pointerInside := true
      hovered := true
      controlsVisible := true
      controlsTransition := controls.nextTransition }

/-- `hide_controls`. -/
def hideControls : CameraControls :=
  { controls with
    hovered := false
    controlsTransition := controls.nextTransition
    timers := controls.timers ++ [controls.nextTransition] }

/-- The rest of `hide_controls`, when its timer is over. -/
def timeOut (transition : ℕ) : CameraControls :=
  if controls.hovered = false ∧ controls.controlsTransition = transition then
    { controls with controlsVisible := false }
  else controls

def step : ControlStep → Option CameraControls
  | .mouseMove => some controls.hover
  | .mouseExit =>
    let outside : CameraControls := { controls with pointerInside := false }
    if controls.hovered = false then some outside
    else if controls.resizing then some outside
    else some outside.hideControls
  | .beginResize => some { controls.hover with resizing := true }
  | .mouseUp =>
    -- the handler can be there for a frame longer than the drag
    let released : CameraControls := { controls with resizing := false }
    if controls.pointerInside then some released else some released.hideControls
  | .timer index =>
    match controls.timers[index]? with
    | none => none
    | some transition =>
      some (timeOut { controls with timers := controls.timers.eraseIdx index } transition)

end CameraControls

def cameraControls : System CameraControls ControlStep where
  init := fun s => s = ⟨false, false, false, 0, false, []⟩
  step := fun s label s' => s.step label = some s'

/-! ## Resizing -/

inductive ResizeCorner
  | topLeft
  | topRight
  | bottomLeft
  | bottomRight
deriving DecidableEq

structure ResizeDrag where
  corner : ResizeCorner
  startBounds : Bounds
  startPointer : Point
  aspectRatio : ℚ

def controlStripHeight : ℚ := 42

/-- The aspect ratio that `begin_resize` keeps. -/
def CameraCrop.aspectRatio : CameraCrop → ℚ
  | .circle | .squircle => 1
  | .squirectangle => 16 / 9

/-- `preview_bounds`. -/
def previewBounds (style : CameraCrop) (window : Bounds) : Bounds :=
  let contentHeight := window.height - controlStripHeight
  let width :=
    match style with
    | .circle | .squircle => contentHeight
    | .squirectangle => window.width
  { x := window.x + (window.width - width) / 2
    y := window.y + controlStripHeight
    width
    height := contentHeight }

/-- `begin_resize`, with the pointer on the screen. -/
def beginResize (style : CameraCrop) (window : Bounds) (corner : ResizeCorner) (pointer : Point) :
    ResizeDrag where
  corner := corner
  startBounds := previewBounds style window
  startPointer := pointer
  aspectRatio := style.aspectRatio

namespace ResizeDrag

variable (drag : ResizeDrag) (pointer : Point)

/-- `horizontal_width` of `resize`. -/
def horizontalWidth : ℚ :=
  let deltaX := pointer.x - drag.startPointer.x
  match drag.corner with
  | .topLeft | .bottomLeft => drag.startBounds.width - deltaX
  | .topRight | .bottomRight => drag.startBounds.width + deltaX

/-- `vertical_content_height` of `resize`. -/
def verticalContentHeight : ℚ :=
  let deltaY := pointer.y - drag.startPointer.y
  match drag.corner with
  | .topLeft | .topRight => drag.startBounds.height - deltaY
  | .bottomLeft | .bottomRight => drag.startBounds.height + deltaY

/-- The size that `resize` gives the preview: the larger change of the pointer counts. -/
def size : ℚ × ℚ :=
  let minimumWidth : ℚ := 160
  let minimumContentHeight := minimumWidth / drag.aspectRatio
  let horizontalChange := |drag.horizontalWidth pointer - drag.startBounds.width|
  let verticalChange :=
    |drag.verticalContentHeight pointer - drag.startBounds.height| * drag.aspectRatio
  if horizontalChange ≥ verticalChange then
    let width := max (drag.horizontalWidth pointer) minimumWidth
    (width, width / drag.aspectRatio)
  else
    let contentHeight := max (drag.verticalContentHeight pointer) minimumContentHeight
    (contentHeight * drag.aspectRatio, contentHeight)

def previewLeft (width : ℚ) : ℚ :=
  match drag.corner with
  | .topLeft | .bottomLeft => drag.startBounds.right - width
  | .topRight | .bottomRight => drag.startBounds.x

def previewTop (contentHeight : ℚ) : ℚ :=
  match drag.corner with
  | .topLeft | .topRight => drag.startBounds.bottom - contentHeight
  | .bottomLeft | .bottomRight => drag.startBounds.y

/-- `resize`: the bounds that the window is given. -/
def windowBounds : Bounds :=
  let (width, contentHeight) := drag.size pointer
  let windowWidth := contentHeight * (16 / 9)
  let previewCenterX := drag.previewLeft width + width / 2
  { x := previewCenterX - windowWidth / 2
    y := drag.previewTop contentHeight - controlStripHeight
    width := windowWidth
    height := contentHeight + controlStripHeight }

end ResizeDrag

/-- The window of the preview, on the screen. -/
structure CameraWindow where
  style : CameraCrop
  bounds : Bounds
  resizeDrag : Option ResizeDrag

inductive CameraWindowStep
  | showStyle (style : CameraCrop)
  | moveWindow (x y : ℚ)
  | beginResize (corner : ResizeCorner) (pointer : Point)
  | resize (pointer : Point)
  | mouseUp
  | reopen

/-- A frame shows its style, the user drags the window or a corner, and a window that is opened again has
the bounds that were saved when it was closed. -/
def CameraWindow.step (window : CameraWindow) : CameraWindowStep → CameraWindow
  | .showStyle style => { window with style }
  | .moveWindow x y => { window with bounds := { window.bounds with x, y } }
  | .beginResize corner pointer =>
    { window with resizeDrag := some (beginResize window.style window.bounds corner pointer) }
  | .resize pointer =>
    match window.resizeDrag with
    | none => window
    | some drag => { window with bounds := drag.windowBounds pointer }
  | .mouseUp => { window with resizeDrag := none }
  | .reopen =>
    { window with
      style := .squirectangle
      resizeDrag := none }

/-- `camera_window_options`, at any place. -/
def cameraWindow : System CameraWindow CameraWindowStep where
  init := fun s => ∃ x y, s = ⟨.squirectangle, ⟨x, y, 320, 222⟩, none⟩
  step := fun s label s' => s' = s.step label

end Blip.Capture
