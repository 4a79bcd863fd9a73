import Blip.Capture.EditorControls
import Blip.Capture.EditorInvariant

/-!
# The editor under its whole interface

`editorSystem` is the editor from the opening of a bundle on, under every event of the timeline's
interface: the pointer, the keyboard, playback frames and the ticks of resize animations. The rest of
the file says once what each operation does to the fields the invariants are about.
-/

namespace Blip.Capture

open Splice
open BundleEditor (nextSegmentId splitList)

/-- The events of the editor's interface. -/
inductive EditorOp
  /-- The timeline is laid out in the window. -/
  | layout (bounds : TimelineBounds)
  /-- The system's motion setting changes. -/
  | setReduceMotion (reduceMotion : Bool)
  | toggleCutMode
  | escape
  | deleteSelected
  | openCropDialog
  | pressTimeline (x : ℚ)
  | pressVideoSegment (id : UInt64) (x : ℚ)
  | pressVideoSegmentEdge (id : UInt64) (edge : VideoSegmentEdge) (x : ℚ)
  | pressZoomTrack (x : ℚ)
  | pressZoomSegment (id : UInt64) (x : ℚ)
  | pressZoomSegmentEdge (id : UInt64) (edge : ZoomSegmentEdge) (x : ℚ)
  | clickCut (rightId : UInt64)
  | clickVideoSegmentEdge (id : UInt64) (edge : VideoSegmentEdge)
  | moveTimelineZoomSlider (bounds : TimelineBounds) (x : ℚ)
  | mouseMove (dragging : Bool) (position : PointerPosition)
  | mouseUp
  | mouseExit
  | pinch (event : PinchEvent)
  | scroll (event : ScrollWheelEvent)
  | resizeTick (task : VideoTimelineResizeAnimation) (elapsedSecs : Secs)
  | playbackBack
  | playbackForward
  | togglePlayback (now : Secs) (audioStarts : Bool)
  | playbackFrame (generation : UInt64) (now : Secs)
deriving DecidableEq, Repr

namespace BundleEditor

/-- The root element's mouse move: `drag_slider` gives it to a drag, then the hover follows. -/
def mouseMove (editor : BundleEditor) (dragging : Bool) (position : PointerPosition) :
    BundleEditor :=
  let event : MouseMoveEvent := { positionX := position.x, dragging }
  let dragged :=
    match editor.videoSegmentDrag with
    | some _ => editor.dragVideoSegment event
    | none => editor.dragZoomSegment event
  dragged.updateTimelineHover position

/-- The method an event calls. -/
def handle (editor : BundleEditor) : EditorOp → BundleEditor
  | .layout bounds => { editor with timelineBounds := bounds }
  | .setReduceMotion reduceMotion => { editor with reduceMotion }
  | .toggleCutMode => editor.toggleCutMode
  | .escape => editor.clearSelection
  | .deleteSelected => editor.deleteSelected
  | .openCropDialog => editor.stopPlayback
  | .pressTimeline x => editor.pressTimeline x
  | .pressVideoSegment id x => editor.pressVideoSegment id x
  | .pressVideoSegmentEdge id edge x => editor.beginVideoSegmentDrag id edge x
  | .pressZoomTrack x => editor.pressZoomTrack x
  | .pressZoomSegment id x => editor.pressZoomSegment id x
  | .pressZoomSegmentEdge id edge x => editor.beginZoomSegmentDrag id (.resize edge) x
  | .clickCut rightId => editor.activateVideoCut rightId
  | .clickVideoSegmentEdge id edge => editor.activateVideoSegmentEdge id edge
  | .moveTimelineZoomSlider bounds x => editor.setTimelineZoom bounds x
  | .mouseMove dragging position => editor.mouseMove dragging position
  | .mouseUp => editor.finishZoomSegmentDrag.finishVideoSegmentDrag
  | .mouseExit => editor.exitTimeline
  | .pinch event => editor.zoomTimeline event
  | .scroll event => editor.panTimeline event
  | .resizeTick task elapsedSecs => editor.resizeTick task elapsedSecs
  | .playbackBack => editor.setPlaybackTime 0
  | .playbackForward => editor.setPlaybackTime editor.durationSecs
  | .togglePlayback now audioStarts => editor.togglePlayback now audioStarts
  | .playbackFrame generation now => editor.playbackFrame generation now

/-- No drag holds the button. -/
def buttonFree (editor : BundleEditor) : Bool :=
  editor.zoomSegmentDrag.isNone && editor.videoSegmentDrag.isNone

/-- When the interface can produce an event: presses and clicks need the button, which a drag holds
down until its release ends the drag; outer edges are offered on the first and last segment; and
only a task that was spawned ticks. -/
def canHandle (editor : BundleEditor) : EditorOp → Bool
  | .pressTimeline _ | .pressVideoSegment _ _ | .pressVideoSegmentEdge _ _ _ | .pressZoomTrack _
  | .pressZoomSegment _ _ | .pressZoomSegmentEdge _ _ _ | .clickCut _
  | .moveTimelineZoomSlider _ _ | .playbackBack | .playbackForward => editor.buttonFree
  | .clickVideoSegmentEdge id edge => editor.buttonFree && editor.enabled (.expandEdge id edge)
  | .resizeTick task _ => decide (task ∈ editor.resizeTasks)
  | _ => true

/-- Handling events in order. -/
def handleAll (editor : BundleEditor) (ops : List EditorOp) : BundleEditor :=
  ops.foldl handle editor

/-- Whether the interface can produce the events in order. -/
def canHandleAll (editor : BundleEditor) : List EditorOp → Bool
  | [] => true
  | op :: ops => editor.canHandle op && (editor.handle op).canHandleAll ops

end BundleEditor

/-- The editor from the opening of a bundle on. -/
def editorSystem : System BundleEditor EditorOp where
  init editor := ∃ bundle sourceRanges reduceMotion,
    editor = BundleEditor.openBundle bundle sourceRanges reduceMotion
  step editor op editor' := editor.canHandle op = true ∧ editor' = editor.handle op

/-- Events the interface can produce in order are a run. -/
theorem run_handleAll {editor : BundleEditor} {ops : List EditorOp}
    (h : editor.canHandleAll ops = true) : editorSystem.Run editor ops (editor.handleAll ops) := by
  induction ops generalizing editor with
  | nil => exact .nil editor
  | cons op ops ih =>
    rw [BundleEditor.canHandleAll, Bool.and_eq_true] at h
    exact .cons ⟨h.1, rfl⟩ (ih h.2)

end Blip.Capture
