import Blip.Capture.EditorInterface

/-!
# What the editor asks its preview worker for

`request_preview` reads the frame's time from the cursor or the playhead, and everything else from
the bundle. Each handler of the interface calls it at points of its own: `asks` lists the states in
which handling an event makes the call.
-/

namespace Blip.Capture

/-! ## The settings a frame is composed with -/

inductive BackgroundType
  | color
  | image
  | gradient
deriving DecidableEq, Repr

inductive OutputAspectRatio
  | auto
  | wide
  | vertical
  | square
  | classic
  | tall
deriving DecidableEq, Repr

inductive CameraPosition
  | topLeft
  | topCenter
  | topRight
  | middleLeft
  | center
  | middleRight
  | bottomLeft
  | bottomCenter
  | bottomRight
deriving DecidableEq, Repr

inductive CameraCrop
  | circle
  | squircle
  | squirectangle
deriving DecidableEq, Repr

structure CameraLayout where
  size : ℚ
  position : CameraPosition
  edgePadding : ℚ
  zoomSizeReduction : ℚ
  shadow : ℚ
  crop : CameraCrop
deriving DecidableEq, Repr

structure ScreenCrop where
  position : ℚ × ℚ
  size : ℚ × ℚ
deriving DecidableEq, Repr

/-- The settings of the bundle that a preview request copies. -/
structure PreviewSettings where
  backgroundType : BackgroundType
  backgroundPreset : ℕ
  padding : ℚ
  aspectRatio : OutputAspectRatio
  borderRadius : ℚ
  shadow : ℚ
  cameraLayout : CameraLayout
  screenCrop : Option ScreenCrop
deriving DecidableEq, Repr

/-! ## The zoom at a time -/

/-- `ZoomTransitionSpeed::duration_secs`. -/
def ZoomTransitionSpeed.durationSecs : ZoomTransitionSpeed → Secs
  | .slow => 3 / 4
  | .medium => 1 / 2
  | .fast => 1 / 4

structure OutputTransform where
  center : ℚ × ℚ
  scale : ℚ
deriving DecidableEq, Repr

/-- `OutputTransform::IDENTITY`. -/
def OutputTransform.identity : OutputTransform where
  center := (1 / 2, 1 / 2)
  scale := 1

/-- `cubic_bezier_coordinate`. -/
def cubicBezierCoordinate (parameter first second : ℚ) : ℚ :=
  let inverse := 1 - parameter
  3 * inverse * inverse * parameter * first + 3 * inverse * parameter * parameter * second +
    parameter * parameter * parameter

/-- The bisection of `cubic_bezier_ease`. -/
def cubicBezierBisect (progress firstX secondX : ℚ) : ℕ → ℚ → ℚ → ℚ × ℚ
  | 0, low, high => (low, high)
  | steps + 1, low, high =>
    let parameter := (low + high) * (1 / 2)
    if cubicBezierCoordinate parameter firstX secondX < progress then
      cubicBezierBisect progress firstX secondX steps parameter high
    else cubicBezierBisect progress firstX secondX steps low parameter

/-- `cubic_bezier_ease`. -/
def cubicBezierEase (progress firstX firstY secondX secondY : ℚ) : ℚ :=
  let progress := clampSecs 0 1 progress
  if progress = 0 ∨ progress = 1 then progress
  else
    let range := cubicBezierBisect progress firstX secondX 16 0 1
    cubicBezierCoordinate ((range.1 + range.2) * (1 / 2)) firstY secondY

/-- `max_by` on the starts: of equal ones the last. -/
def latestZoom (segments : List ZoomSegment) : Option ZoomSegment :=
  segments.foldl (fun latest segment =>
    match latest with
    | none => some segment
    | some current => if current.startSecs ≤ segment.startSecs then some segment else some current)
    none

/-- `zoom_transform_at`. -/
def zoomTransformAt (segments : List ZoomSegment) (timeSecs : Secs) : OutputTransform :=
  match latestZoom (segments.filter fun segment =>
    decide (segment.startSecs ≤ timeSecs) &&
      decide (timeSecs ≤ segment.endSecs + segment.transition.durationSecs)) with
  | none => .identity
  | some segment =>
    let transitionSecs := segment.transition.durationSecs
    let zoomIn := if segment.startSecs ≤ 0 then 1
      else clampSecs 0 1 ((timeSecs - segment.startSecs) / transitionSecs)
    let zoomOut := clampSecs 0 1 ((segment.endSecs + transitionSecs - timeSecs) / transitionSecs)
    let attack := cubicBezierEase zoomIn (1 / 5) (4 / 5) (1 / 5) 1
    let release := cubicBezierEase zoomOut (2 / 5) 0 (3 / 5) 1
    let amount := clampSecs 1 5 segment.amount
    let transform : OutputTransform :=
      { center := segment.target, scale := 1 + (amount - 1) * min attack release }
    let previous := latestZoom (segments.filter fun previous =>
      decide (previous.startSecs < segment.startSecs) &&
        decide (previous.endSecs ≤ segment.startSecs) &&
        decide (segment.startSecs < previous.endSecs + previous.transition.durationSecs))
    match previous with
    | none => transform
    | some previous =>
      if attack < 1 then
        let previousTransitionSecs := previous.transition.durationSecs
        let previousZoomOut := clampSecs 0 1
          ((previous.endSecs + previousTransitionSecs - segment.startSecs) / previousTransitionSecs)
        let previousProgress := cubicBezierEase previousZoomOut (2 / 5) 0 (3 / 5) 1
        let previousScale := 1 + (clampSecs 1 5 previous.amount - 1) * previousProgress
        let incomingScale := 1 + (amount - 1) * release
        { center :=
            (previous.target.1 + (transform.center.1 - previous.target.1) * attack,
              previous.target.2 + (transform.center.2 - previous.target.2) * attack)
          scale := previousScale + (incomingScale - previousScale) * attack }
      else transform

/-! ## Requests -/

/-- What a frame is rendered from. -/
structure PreviewContent where
  timeSecs : Secs
  settings : PreviewSettings
  zoom : OutputTransform
deriving DecidableEq, Repr

structure PreviewRequest where
  playbackGeneration : UInt64
  timelineTimeSecs : Secs
  content : PreviewContent
deriving DecidableEq, Repr

namespace BundleEditor

variable (editor : BundleEditor)

/-- The time `request_preview` asks for: the cursor's, or the playhead's without one. -/
def previewTimeSecs : Secs := editor.cursorTimeSecs.getD editor.currentTimeSecs

/-- The request `request_preview` sends, if the timeline shows anything. -/
def previewRequest (settings : PreviewSettings) : Option PreviewRequest :=
  (sourceTimeAt editor.bundle editor.previewTimeSecs).map fun sourceTimeSecs =>
    { playbackGeneration := editor.playbackGeneration
      timelineTimeSecs := editor.previewTimeSecs
      content := {
        timeSecs := sourceTimeSecs
        settings
        zoom := zoomTransformAt editor.bundle.zoomSegments editor.previewTimeSecs } }

/-! ## The zoom inspector -/

/-- `selected_zoom_mut`: change the selected zoom, if there is one. -/
def updateSelectedZoom (change : ZoomSegment → ZoomSegment) : BundleEditor :=
  match editor.selectedZoom with
  | none => editor
  | some id =>
    match editor.bundle.zoomSegments.findIdx? (fun segment => segment.id == id) with
    | none => editor
    | some index =>
      match editor.bundle.zoomSegments[index]? with
      | none => editor
      | some segment =>
        { editor with
          bundle := { editor.bundle with
            zoomSegments := editor.bundle.zoomSegments.set index (change segment) } }

/-- `set_zoom_amount`. -/
def setZoomAmount (amount : ℚ) : BundleEditor :=
  editor.updateSelectedZoom fun segment => { segment with amount := clampSecs 1 5 amount }

/-- `set_zoom_transition`. -/
def setZoomTransition (transition : ZoomTransitionSpeed) : BundleEditor :=
  editor.updateSelectedZoom fun segment => { segment with transition }

/-- `set_zoom_target`, of a position already brought into the unit square. -/
def setZoomTarget (target : ℚ × ℚ) : BundleEditor :=
  editor.updateSelectedZoom fun segment => { segment with target }

/-! ## Where the handlers ask -/

/-- A method that asks as its last act, unless it finds nothing to do and returns first. -/
def asksIfEdited (before after : BundleEditor) : List BundleEditor :=
  if after = before then [] else [after]

/-- `begin_zoom_segment_drag` asks once the segment is found. -/
def asksBeginZoomDrag (id : UInt64) (kind : ZoomSegmentDragKind) (x : ℚ) : List BundleEditor :=
  if (editor.bundle.zoomSegments.find? fun segment => segment.id == id).isSome then
    [editor.beginZoomSegmentDrag id kind x]
  else []

/-- A seek asks always. -/
def asksSeek (timeSecs : Option Secs) : List BundleEditor :=
  (timeSecs.map editor.setPlaybackTime).toList

/-- A press on the timeline asks when it seeks. -/
def asksPressTimeline (x : ℚ) : List BundleEditor :=
  if editor.timelineBounds.originX - 6 ≤ x then
    editor.clearSelection.asksSeek (editor.timelineTimeAt x)
  else []

/-- A drag asks when it seeks, which is when it gets as far as the pointer's time. -/
def asksMouseMove (dragging : Bool) (position : PointerPosition) : List BundleEditor :=
  let event : MouseMoveEvent := { positionX := position.x, dragging }
  let dragged :=
    match editor.videoSegmentDrag with
    | some _ => editor.dragVideoSegment event
    | none => editor.dragZoomSegment event
  let hovered := dragged.updateTimelineHover position
  (if dragged.playbackGeneration = editor.playbackGeneration then [] else [dragged]) ++
    asksIfEdited dragged hovered

/-- `finish_zoom_segment_drag` asks when it writes a resized range. -/
def asksFinishZoomDrag : List BundleEditor :=
  match editor.zoomSegmentDrag with
  | none => []
  | some drag =>
    if drag.kind ≠ .move ∧
        (drag.draftStartSecs ≠ drag.originalStartSecs ∨ drag.draftEndSecs ≠ drag.originalEndSecs) ∧
        editor.bundle.zoomSegments.any (fun segment => segment.id == drag.id) then
      [editor.finishZoomSegmentDrag]
    else []

/-- `finish_video_segment_drag` asks once the segment is found. -/
def asksFinishVideoDrag : List BundleEditor :=
  match editor.videoSegmentDrag with
  | none => []
  | some drag =>
    if editor.segments.any (fun segment => segment.id == drag.id) then
      [editor.finishVideoSegmentDrag]
    else []

/-- `schedule_playback_frame` asks before it stops at the end. -/
def asksPlaybackFrame (generation : UInt64) (now : Secs) : List BundleEditor :=
  if editor.isPlaying = false ∨ editor.playbackGeneration ≠ generation then []
  else
    match editor.playbackStartedAt with
    | none => []
    | some (startedAt, startTimeSecs) =>
      [{ editor with currentTimeSecs :=
        (playbackPosition startTimeSecs (max (now - startedAt) 0) editor.durationSecs).1 }]

/-- The states in which handling an event calls `request_preview`, in order. -/
def asks (editor : BundleEditor) : EditorOp → List BundleEditor
  | .deleteSelected => asksIfEdited editor editor.deleteSelected
  | .openCropDialog => [editor.stopPlayback]
  | .pressTimeline x => editor.asksPressTimeline x
  | .pressVideoSegment id x => asksIfEdited editor (editor.pressVideoSegment id x)
  | .pressZoomTrack x =>
    match editor.timelineTimeAt x with
    | none => editor.asksPressTimeline x
    | some timeSecs =>
      match editor.bundle.zoomSegments.find? (fun segment => segment.contains timeSecs) with
      | some segment =>
        editor.asksBeginZoomDrag segment.id .move x ++
          (editor.beginZoomSegmentDrag segment.id .move x).asksSeek (some timeSecs)
      | none =>
        match zoomSegmentRangeAt timeSecs editor.durationSecs editor.bundle.zoomSegments with
        | none => editor.asksPressTimeline x
        | some range => asksIfEdited editor (editor.addZoom range.1 range.2)
  | .pressZoomSegment id x =>
    editor.asksBeginZoomDrag id .move x ++
      (editor.beginZoomSegmentDrag id .move x).asksSeek (editor.timelineTimeAt x)
  | .pressZoomSegmentEdge id edge x => editor.asksBeginZoomDrag id (.resize edge) x
  | .clickCut rightId => asksIfEdited editor (editor.activateVideoCut rightId)
  | .clickVideoSegmentEdge id edge => asksIfEdited editor (editor.activateVideoSegmentEdge id edge)
  | .mouseMove dragging position => editor.asksMouseMove dragging position
  | .mouseUp => editor.asksFinishZoomDrag ++ editor.finishZoomSegmentDrag.asksFinishVideoDrag
  | .mouseExit => asksIfEdited editor editor.exitTimeline
  | .pinch event => asksIfEdited editor (editor.zoomTimeline event)
  | .scroll event => asksIfEdited editor (editor.panTimeline event)
  | .playbackBack => editor.asksSeek (some 0)
  | .playbackForward => editor.asksSeek (some editor.durationSecs)
  | .togglePlayback now audioStarts =>
    if editor.isPlaying then [] else asksIfEdited editor (editor.togglePlayback now audioStarts)
  | .playbackFrame generation now => editor.asksPlaybackFrame generation now
  | .layout _ | .setReduceMotion _ | .toggleCutMode | .escape | .pressVideoSegmentEdge _ _ _
  | .moveTimelineZoomSlider _ _ | .resizeTick _ _ => []

end BundleEditor

end Blip.Capture
