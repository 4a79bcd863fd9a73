import Blip.Studio.Compose
import Blip.Studio.FrameHub
import Blip.Studio.Streams

/-!
# The window and the compositor's thread

How a scene gets into the window of `apps/blip-studio/src/viewer.rs`. The event loop of `view` makes
render requests of the scene and the newest frames, `run_compositor` composes them on a thread of its
own, and `show_frame` shows the pictures. The queue of the requests and the hub of the pictures have
room for one, and a newer one takes the place of the one before.

A frame is told by what `source_frame` makes of it. Whether the compositor sleeps, and what the GPU
answers, is in the labels.
-/

namespace Blip.Studio.Exact

open Compositor (Gpu PixelBuffer)

/-! ## Requests and pictures -/

structure RenderRequest (Frame : Type) where
  elements : List PlacedElement
  frames : SourceFrames Frame
  colors : Colors
  lockedDimensions : Option (ℕ × ℕ)

/-- A `ComposedFrame`, with the request that it was composed for. -/
structure ComposedFrame (Frame : Type) where
  request : RenderRequest Frame
  image : PixelBuffer Frame
  dimensions : ℕ × ℕ
  elements : List PlacedTransform

/-- Where `run_compositor` is. It sleeps, or composes, with the request that it took. -/
inductive CompositorThread (Frame : Type)
  | starting
  | waiting
  | sleeping (request : RenderRequest Frame)
  | composing (request : RenderRequest Frame)
  | stopped

def CompositorThread.request {Frame : Type} : CompositorThread Frame → Option (RenderRequest Frame)
  | .sleeping request | .composing request => some request
  | _ => none

/-- The frames that a request has; colors are not captured. -/
def SourceFrames.ofCaptures {Frame : Type} (frames : SourceId → Option (SourceFrame Frame)) :
    SourceFrames Frame where
  frame
    | .color _ => none
    | source => frames source
  color _ := rfl

/-! ## The viewer -/

/-- The scene, its colors and the canvas that a stream has locked; the hubs, the queue, the thread of
the compositor, and the `CompositionFailed` events in the channel. Beside them: all requests, and all
pictures that `show_frame` was called with. -/
structure SceneViewer (Frame : Type) where
  hub : FrameLoop SourceId (SourceFrame Frame) (ComposedFrame Frame)
  elements : List PlacedElement
  colors : Colors
  streamCanvas : Option (ℕ × ℕ)
  pending : Option (RenderRequest Frame)
  compositor : CompositorThread Frame
  compositionFailed : ℕ
  running : Bool
  requests : List (RenderRequest Frame)
  shown : List (ComposedFrame Frame)

inductive SceneViewerStep (Frame : Type)
  | submit (source : SourceId) (frame : SourceFrame Frame)
  | setPending
  | sendReady
  | addSource (source : SourceId) (elements : List PlacedElement) (colors : Colors)
  | removeSource (source : SourceId) (elements : List PlacedElement) (colors : Colors)
  | changeScene (elements : List PlacedElement) (colors : Colors)
  | drain
  | render
  | initialized (succeeded : Bool)
  | take (sleeps : Bool)
  | wake
  | compose (gpu : Gpu Frame)
  | showFrame (sent : Bool)
  | compositionFailed
  | startStream
  | stopStream
  | quit

/-- The sources of elements. -/
def usedSources (elements : List PlacedElement) : Finset SourceId :=
  (elements.map PlacedElement.source).toFinset

namespace SceneViewer

variable {Frame : Type} (viewer : SceneViewer Frame)

/-- What `compose_scene` makes of a request goes to the hub, or its error into the channel of a loop that
runs. A panic ends the thread. -/
def compose (gpu : Gpu Frame) (request : RenderRequest Frame) : SceneViewer Frame :=
  match composeScene request.frames request.colors gpu request.elements request.lockedDimensions with
  | .ok (image, dimensions, elements) =>
    { viewer with
      hub := viewer.hub.composed ⟨request, image, dimensions, elements⟩
      compositor := .waiting }
  | .error (.error _) =>
    if viewer.running then
      { viewer with
        compositor := .waiting
        compositionFailed := viewer.compositionFailed + 1 }
    else { viewer with compositor := .stopped }
  | .error .panicked => { viewer with compositor := .stopped }

/-- A step of `run_compositor`. -/
def runCompositor : SceneViewerStep Frame → Option (SceneViewer Frame)
  | .initialized succeeded =>
    match viewer.compositor with
    | .starting =>
      if succeeded then some { viewer with compositor := .waiting }
      else some
        { viewer with
          compositor := .stopped
          compositionFailed := viewer.compositionFailed + 1 }
    | _ => none
  | .take sleeps =>
    match viewer.compositor, viewer.pending with
    | .waiting, some request => some
        { viewer with
          compositor := if sleeps then .sleeping request else .composing request
          pending := none }
    | _, _ => none
  | .wake =>
    match viewer.compositor with
    | .sleeping request => some
        { viewer with
          compositor := .composing (viewer.pending.getD request)
          pending := none }
    | _ => none
  | .compose gpu =>
    match viewer.compositor with
    | .composing request => some (viewer.compose gpu request)
    | _ => none
  | _ => none

/-- The request that the loop makes of the scene and of the frames that are left. -/
def renderRequest : RenderRequest Frame where
  elements := viewer.elements
  frames := .ofCaptures viewer.hub.keptFrames
  colors := viewer.colors
  lockedDimensions := viewer.streamCanvas

/-- `show_frame`; a stream that does not take the picture is dropped. -/
def showFrame (sent : Bool) (composed : ComposedFrame Frame) : SceneViewer Frame :=
  { viewer with
    hub := viewer.hub.showFrame
    streamCanvas := if sent then viewer.streamCanvas else none
    shown := viewer.shown ++ [composed] }

/-- A step of the event loop, while it runs. -/
def handleEvent : SceneViewerStep Frame → Option (SceneViewer Frame)
  | .drain => (viewer.hub.step .drain).map fun hub => { viewer with hub }
  | .render => (viewer.hub.step .render).map fun hub =>
      { viewer with
        hub
        pending := some viewer.renderRequest
        requests := viewer.requests ++ [viewer.renderRequest] }
  | .showFrame sent =>
    (viewer.hub.step .showFrame).map fun hub =>
      match viewer.hub.latest with
      | some composed => viewer.showFrame sent composed
      | none => { viewer with hub }
  | .compositionFailed =>
    if 0 < viewer.compositionFailed ∧ viewer.hub.draining = false then some
      { viewer with
        compositionFailed := viewer.compositionFailed - 1
        running := false }
    else none
  | .startStream =>
    match viewer.hub.draining, viewer.shown.getLast? with
    | false, some composed => some
        { viewer with streamCanvas := some (evenDimensions composed.dimensions) }
    | _, _ => none
  | .stopStream => if viewer.hub.draining then none else some { viewer with streamCanvas := none }
  | .quit => some { viewer with running := false }
  | _ => none

/-- A change of the scene, after which the elements have the sources in use. -/
def edit (label : FrameStep SourceId (SourceFrame Frame) (ComposedFrame Frame))
    (elements : List PlacedElement) (colors : Colors) : Option (SceneViewer Frame) :=
  (viewer.hub.step label).bind fun hub =>
    if usedSources elements = hub.scene then some { viewer with hub, elements, colors } else none

def step : SceneViewerStep Frame → Option (SceneViewer Frame)
  | .submit (.color _) _ => none
  | .submit source frame => some { viewer with hub := viewer.hub.submit source frame }
  | .setPending => (viewer.hub.step .setPending).map fun hub => { viewer with hub }
  | .sendReady => (viewer.hub.step .sendReady).map fun hub => { viewer with hub }
  | .addSource source elements colors => viewer.edit (.addSource source) elements colors
  | .removeSource source elements colors => viewer.edit (.removeSource source) elements colors
  | .changeScene elements colors => viewer.edit .changeScene elements colors
  | .initialized succeeded => viewer.runCompositor (.initialized succeeded)
  | .take sleeps => viewer.runCompositor (.take sleeps)
  | .wake => viewer.runCompositor .wake
  | .compose gpu => viewer.runCompositor (.compose gpu)
  | label => if viewer.running then viewer.handleEvent label else none

/-- The viewer as it is opened, with the scene of the saved project or the first one. -/
def launched (Frame : Type) (elements : List PlacedElement) (colors : Colors) : SceneViewer Frame where
  hub := .launched _ _ (usedSources elements)
  elements := elements
  colors := colors
  streamCanvas := none
  pending := none
  compositor := .starting
  compositionFailed := 0
  running := true
  requests := []
  shown := []

end SceneViewer

/-- The viewer, from its launch with some scene. -/
def sceneViewer (Frame : Type) : System (SceneViewer Frame) (SceneViewerStep Frame) where
  init := fun s => ∃ elements colors, s = .launched Frame elements colors
  step := fun s label s' => s.step label = some s'

end Blip.Studio.Exact
