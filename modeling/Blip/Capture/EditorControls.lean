import Blip.Capture.EditorSteps

/-!
# The zoom track, the timeline view and playback

The remaining methods of `BundleEditor` that the timeline's interface calls: zoom segments and their
drags, pinches, pans and the zoom slider, the ticks of a resize animation, hovering, and playback up
to the preview frames it asks for.
-/

namespace Blip.Capture

/-! ## Zoom segments -/

/-- `zoom_segment_range_at`: where a new zoom at the cursor goes, if there is room for it. -/
def zoomSegmentRangeAt (cursorSecs timelineDurationSecs : Secs) (segments : List ZoomSegment) :
    Option (Secs × Secs) :=
  let durationSecs := max (min timelineDurationSecs 3) 0
  let cursorSecs := clampSecs 0 (max timelineDurationSecs 0) cursorSecs
  let availableStartSecs := (((segments.filter fun segment =>
    decide (segment.endSecs ≤ cursorSecs)).map ZoomSegment.endSecs).max?).getD 0
  let availableEndSecs := (((segments.filter fun segment =>
    decide (cursorSecs ≤ segment.startSecs)).map ZoomSegment.startSecs).min?).getD
      timelineDurationSecs
  if availableEndSecs - availableStartSecs < durationSecs then none
  else
    let startSecs := clampSecs availableStartSecs
      (max (availableEndSecs - durationSecs) availableStartSecs) cursorSecs
    some (startSecs, startSecs + durationSecs)

/-- `resize_zoom_segment_range`: move one edge within its limits, keeping at least 0.01 s. -/
def resizeZoomSegmentRange (edge : ZoomSegmentEdge) (startSecs endSecs minimumStartSecs
    maximumEndSecs deltaSecs : Secs) : Secs × Secs :=
  match edge with
  | .start => (min (max (startSecs + deltaSecs) minimumStartSecs) (endSecs - 1 / 100), endSecs)
  | .end => (startSecs, max (min (endSecs + deltaSecs) maximumEndSecs) (startSecs + 1 / 100))

/-- The identifier `add_zoom` gives: `max().unwrap_or(0) + 1`, wrapping like `u64`. -/
def nextZoomId (segments : List ZoomSegment) : UInt64 :=
  ((segments.map ZoomSegment.id).max?.getD 0) + 1

/-- Write a range to the first zoom segment with an identifier, if there is one. -/
def setZoomRange (segments : List ZoomSegment) (id : UInt64) (startSecs endSecs : Secs) :
    Option (List ZoomSegment) :=
  match segments.findIdx? (fun segment => segment.id == id) with
  | none => none
  | some index =>
    match segments[index]? with
    | none => none
    | some segment => some (segments.set index { segment with startSecs, endSecs })

/-- Whether a time is on a zoom segment, both ends included. -/
def ZoomSegment.contains (segment : ZoomSegment) (timeSecs : Secs) : Bool :=
  decide (segment.startSecs ≤ timeSecs) && decide (timeSecs ≤ segment.endSecs)

/-! ## Views -/

/-- A pinch over the timeline; `scale` is the `exp` of the negated delta. -/
structure PinchEvent where
  positionX : ℚ
  scale : ℚ
deriving DecidableEq, Repr

/-- A scroll over the timeline. -/
structure ScrollWheelEvent where
  positionX : ℚ
  precise : Bool
  deltaX : ℚ
deriving DecidableEq, Repr

/-- A pointer position: over the timeline's rows, and over the zoom track. -/
structure PointerPosition where
  x : ℚ
  overRows : Bool
  overZoomTrack : Bool
deriving DecidableEq, Repr

/-- `zoomed_timeline_view`. -/
def zoomedTimelineView (viewStartSecs viewDurationSecs timelineDurationSecs focalFraction
    scale : ℚ) : Secs × Secs :=
  if timelineDurationSecs ≤ 0 then (0, 0)
  else
    let focalFraction := clampSecs 0 1 focalFraction
    let viewDurationSecs := clampSecs 0 timelineDurationSecs viewDurationSecs
    let focalTimeSecs := viewStartSecs + focalFraction * viewDurationSecs
    let minimumDurationSecs := min (max (timelineDurationSecs / 10) (1 / 20)) timelineDurationSecs
    let durationSecs := clampSecs minimumDurationSecs timelineDurationSecs (viewDurationSecs * scale)
    (clampTimelineViewStart (focalTimeSecs - focalFraction * durationSecs) durationSecs
      timelineDurationSecs, durationSecs)

/-- `panned_timeline_view`. -/
def pannedTimelineView (viewStartSecs viewDurationSecs timelineDurationSecs deltaFraction : ℚ) :
    Secs :=
  clampTimelineViewStart (viewStartSecs - deltaFraction * viewDurationSecs) viewDurationSecs
    timelineDurationSecs

/-- `TIMELINE_RESIZE_DURATION`. -/
def timelineResizeDuration : Secs := 18 / 100

/-- How far an animation is after `elapsedSecs`. -/
def resizeProgress (elapsedSecs : Secs) : ℚ :=
  clampSecs 0 1 (elapsedSecs / timelineResizeDuration)

/-- The easing of `animate_video_timeline_resize`. -/
def resizeEased (progress : ℚ) : ℚ := 1 - (1 - progress) ^ 5

/-- `playback_position`, and whether it is the end. -/
def playbackPosition (startSecs elapsedSecs durationSecs : Secs) : Secs × Bool :=
  let timeSecs := clampSecs 0 durationSecs (startSecs + elapsedSecs)
  (timeSecs, decide (durationSecs ≤ timeSecs))

/-- The segments `audio_mixer` hands to a mixer. -/
def audioSegments (bundle : BlipBundle) : List (Secs × Secs) :=
  (bundle.videoSegments.getD []).map fun segment =>
    (segment.sourceStartSecs, segment.sourceEndSecs)

namespace BundleEditor

variable (editor : BundleEditor)

/-! ## The zoom track -/

/-- `add_zoom`. -/
def addZoom (startSecs endSecs : Secs) : BundleEditor :=
  if endSecs ≤ startSecs then editor
  else
    let id := nextZoomId editor.bundle.zoomSegments
    { editor with
      bundle := { editor.bundle with
        zoomSegments := editor.bundle.zoomSegments ++
          [{ id, startSecs, endSecs, target := (1 / 2, 1 / 2), amount := 2,
             transition := .medium }] }
      selectedZoom := some id
      selectedVideoSegment := none
      zoomHoverRange := none }

/-- The drag `begin_zoom_segment_drag` records. -/
def newZoomSegmentDrag (segment : ZoomSegment) (kind : ZoomSegmentDragKind) (positionX : ℚ) :
    ZoomSegmentDrag where
  id := segment.id
  kind := kind
  pointerStartX := positionX
  originalStartSecs := segment.startSecs
  originalEndSecs := segment.endSecs
  draftStartSecs := segment.startSecs
  draftEndSecs := segment.endSecs
  minimumStartSecs := (((editor.bundle.zoomSegments.filter fun other =>
    other.id != segment.id && decide (other.endSecs ≤ segment.startSecs)).map
      ZoomSegment.endSecs).max?).getD 0
  maximumEndSecs := (((editor.bundle.zoomSegments.filter fun other =>
    other.id != segment.id && decide (segment.endSecs ≤ other.startSecs)).map
      ZoomSegment.startSecs).min?).getD editor.durationSecs

/-- `begin_zoom_segment_drag`. -/
def beginZoomSegmentDrag (id : UInt64) (kind : ZoomSegmentDragKind) (positionX : ℚ) :
    BundleEditor :=
  match editor.bundle.zoomSegments.find? (fun segment => segment.id == id) with
  | none => editor
  | some segment =>
    { editor with
      zoomSegmentDrag := some (editor.newZoomSegmentDrag segment kind positionX)
      selectedZoom := some id
      selectedVideoSegment := none
      cursorTimeSecs := none }

/-- The range a drag that moves a whole zoom segment gives it. -/
def movedZoomRange (drag : ZoomSegmentDrag) (deltaSecs : Secs) : Secs × Secs :=
  let durationSecs := max (drag.originalEndSecs - drag.originalStartSecs) 0
  let maximumStartSecs := max (drag.maximumEndSecs - durationSecs) drag.minimumStartSecs
  let startSecs := clampSecs drag.minimumStartSecs maximumStartSecs
    (drag.originalStartSecs + deltaSecs)
  (startSecs, startSecs + durationSecs)

/-- `drag_zoom_segment`: a move takes effect at once, a resize is a draft until the release. -/
def dragZoomSegment (event : MouseMoveEvent) : BundleEditor :=
  match editor.zoomSegmentDrag with
  | none => editor
  | some drag =>
    if !event.dragging then editor
    else if editor.timelineBounds.width ≤ 0 then editor
    else
      let deltaFraction := (event.positionX - drag.pointerStartX) / editor.timelineBounds.width
      let deltaSecs := deltaFraction * editor.timelineViewDurationSecs
      match drag.kind with
      | .move =>
        let range := movedZoomRange drag deltaSecs
        match setZoomRange editor.bundle.zoomSegments drag.id range.1 range.2 with
        | none => { editor with zoomSegmentDrag := none }
        | some zoomSegments =>
          let moved := { editor with bundle := { editor.bundle with zoomSegments } }
          match editor.timelineTimeAt event.positionX with
          | none => moved
          | some timeSecs => moved.setPlaybackTime timeSecs
      | .resize edge =>
        let range := resizeZoomSegmentRange edge drag.originalStartSecs drag.originalEndSecs
          drag.minimumStartSecs drag.maximumEndSecs deltaSecs
        let resized := { editor with
          zoomSegmentDrag := some { drag with draftStartSecs := range.1, draftEndSecs := range.2 } }
        match edge with
        | .start => resized.setPlaybackTime range.1
        | .end => resized.setPlaybackTime range.2

/-- `finish_zoom_segment_drag`: the button is released. -/
def finishZoomSegmentDrag : BundleEditor :=
  match editor.zoomSegmentDrag with
  | none => editor
  | some drag =>
    let editor := { editor with zoomSegmentDrag := none }
    match drag.kind with
    | .move => editor
    | .resize _ =>
      if drag.draftStartSecs ≠ drag.originalStartSecs ∨ drag.draftEndSecs ≠ drag.originalEndSecs then
        match setZoomRange editor.bundle.zoomSegments drag.id drag.draftStartSecs
          drag.draftEndSecs with
        | none => editor
        | some zoomSegments => { editor with bundle := { editor.bundle with zoomSegments } }
      else editor

/-! ## Presses -/

/-- Escape with nothing but a selection to close. -/
def clearSelection : BundleEditor :=
  { editor with selectedZoom := none, selectedVideoSegment := none }

/-- A press on the timeline that none of its elements takes. -/
def pressTimeline (x : ℚ) : BundleEditor :=
  let cleared := editor.clearSelection
  if editor.timelineBounds.originX - 6 ≤ x then
    match editor.timelineTimeAt x with
    | none => cleared
    | some timeSecs => cleared.setPlaybackTime timeSecs
  else cleared

/-- A press on a video segment. -/
def pressVideoSegment (id : UInt64) (x : ℚ) : BundleEditor :=
  match editor.timelineTimeAt x with
  | none => editor
  | some timeSecs => editor.activateVideoSegment id timeSecs

/-- A press on a zoom segment. -/
def pressZoomSegment (id : UInt64) (x : ℚ) : BundleEditor :=
  let dragged := editor.beginZoomSegmentDrag id .move x
  match editor.timelineTimeAt x with
  | none => dragged
  | some timeSecs => dragged.setPlaybackTime timeSecs

/-- A press on the zoom track: on a zoom it drags it, beside one it adds another, and without room
for that it is a press on the timeline. -/
def pressZoomTrack (x : ℚ) : BundleEditor :=
  match editor.timelineTimeAt x with
  | none => editor.pressTimeline x
  | some timeSecs =>
    match editor.bundle.zoomSegments.find? (fun segment => segment.contains timeSecs) with
    | some segment => (editor.beginZoomSegmentDrag segment.id .move x).setPlaybackTime timeSecs
    | none =>
      match zoomSegmentRangeAt timeSecs editor.durationSecs editor.bundle.zoomSegments with
      | none => editor.pressTimeline x
      | some range => editor.addZoom range.1 range.2

/-! ## The view -/

/-- `zoom_timeline`. -/
def zoomTimeline (event : PinchEvent) : BundleEditor :=
  let bounds := editor.timelineBounds
  if editor.durationSecs ≤ 0 ∨ bounds.width ≤ 0 ∨ event.positionX < bounds.originX ∨
      bounds.originX + bounds.width < event.positionX then editor
  else
    let focalFraction := clampSecs 0 1 ((event.positionX - bounds.originX) / bounds.width)
    let view := zoomedTimelineView editor.timelineViewStartSecs editor.timelineViewDurationSecs
      (timelineExtentSecs editor.durationSecs) focalFraction event.scale
    if view.1 ≠ editor.timelineViewStartSecs ∨ view.2 ≠ editor.timelineViewDurationSecs then
      { editor with
        videoTimelineResizeGeneration := editor.videoTimelineResizeGeneration + 1
        videoTimelineResizeAnimation := none
        timelineViewStartSecs := view.1
        timelineViewDurationSecs := view.2
        cursorTimeSecs := some (view.1 + focalFraction * view.2) }
    else editor

/-- `pan_timeline`. -/
def panTimeline (event : ScrollWheelEvent) : BundleEditor :=
  let bounds := editor.timelineBounds
  if !event.precise ∨ bounds.width ≤ 0 ∨ event.positionX < bounds.originX ∨
      bounds.originX + bounds.width < event.positionX then editor
  else
    let startSecs := pannedTimelineView editor.timelineViewStartSecs editor.timelineViewDurationSecs
      (timelineExtentSecs editor.durationSecs) (event.deltaX / bounds.width)
    if startSecs ≠ editor.timelineViewStartSecs then
      let panned := { editor with
        videoTimelineResizeGeneration := editor.videoTimelineResizeGeneration + 1
        videoTimelineResizeAnimation := none
        timelineViewStartSecs := startSecs }
      { panned with cursorTimeSecs := panned.timelineTimeAt event.positionX }
    else editor

/-- `set_slider_value` for the timeline's zoom slider, laid out at `bounds`. -/
def setTimelineZoom (bounds : TimelineBounds) (position : ℚ) : BundleEditor :=
  if bounds.width ≤ 0 then editor
  else
    let fraction := clampSecs 0 1 ((position - bounds.originX) / bounds.width)
    let timelineDurationSecs := timelineExtentSecs editor.durationSecs
    let viewDurationSecs := timelineDurationSecs / (1 + fraction * 9)
    let viewCenterSecs :=
      editor.timelineViewStartSecs + editor.timelineViewDurationSecs * (1 / 2)
    { editor with
      timelineViewDurationSecs := viewDurationSecs
      timelineViewStartSecs := clampTimelineViewStart (viewCenterSecs - viewDurationSecs * (1 / 2))
        viewDurationSecs timelineDurationSecs
      videoTimelineResizeGeneration := editor.videoTimelineResizeGeneration + 1
      videoTimelineResizeAnimation := none }

/-- One tick of a task `animate_video_timeline_resize` spawned. A task of an earlier generation ends,
and so does one that reached its target. -/
def resizeTick (task : VideoTimelineResizeAnimation) (elapsedSecs : Secs) : BundleEditor :=
  if editor.videoTimelineResizeGeneration ≠ task.generation then
    { editor with resizeTasks := editor.resizeTasks.erase task }
  else
    let progress := resizeProgress elapsedSecs
    let eased := resizeEased progress
    let ticked := { editor with
      timelineViewStartSecs :=
        task.viewStartSecs + (task.targetViewStartSecs - task.viewStartSecs) * eased
      timelineViewDurationSecs :=
        task.viewDurationSecs + (task.targetViewDurationSecs - task.viewDurationSecs) * eased }
    if 1 ≤ progress then
      { ticked with
        videoTimelineResizeAnimation := none
        resizeTasks := editor.resizeTasks.erase task }
    else ticked

/-- `update_timeline_hover`. -/
def updateTimelineHover (position : PointerPosition) : BundleEditor :=
  if editor.isPlaying then editor
  else
    let timeline := editor.timelineBounds
    let hovering := editor.zoomSegmentDrag.isNone && editor.videoSegmentDrag.isNone &&
      decide (0 < timeline.width) && decide (timeline.originX ≤ position.x) &&
      decide (position.x ≤ timeline.originX + timeline.width) && position.overRows
    let cursorTimeSecs :=
      if hovering then
        some (editor.timelineViewStartSecs +
          (position.x - timeline.originX) / timeline.width * editor.timelineViewDurationSecs)
      else none
    let zoomHoverRange := cursorTimeSecs.bind fun timeSecs =>
      if position.overZoomTrack &&
          !editor.bundle.zoomSegments.any (fun segment => segment.contains timeSecs) then
        zoomSegmentRangeAt timeSecs editor.durationSecs editor.bundle.zoomSegments
      else none
    { editor with cursorTimeSecs, zoomHoverRange }

/-- The pointer leaves the timeline. -/
def exitTimeline : BundleEditor :=
  if editor.cursorTimeSecs.isSome then
    { editor with cursorTimeSecs := none, zoomHoverRange := none }
  else editor

/-! ## Playback -/

/-- `toggle_playback` at the instant `now`. `audioStarts` says whether the mixer has sources and the
output stream started. -/
def togglePlayback (now : Secs) (audioStarts : Bool) : BundleEditor :=
  if editor.isPlaying then editor.stopPlayback
  else if editor.durationSecs ≤ 0 then editor
  else
    let currentTimeSecs :=
      match editor.cursorTimeSecs with
      | some cursorTimeSecs => clampSecs 0 editor.durationSecs cursorTimeSecs
      | none => if editor.durationSecs ≤ editor.currentTimeSecs then 0 else editor.currentTimeSecs
    { editor with
      currentTimeSecs
      cursorTimeSecs := none
      zoomHoverRange := none
      isPlaying := true
      playbackGeneration := editor.playbackGeneration + 1
      lastPlaybackPreviewTimeSecs := none
      playbackStartedAt := some (now, currentTimeSecs)
      audioPlayback :=
        if audioStarts then some { segments := audioSegments editor.bundle }
        else editor.audioPlayback }

/-- The callback `schedule_playback_frame` leaves for the next frame, run at the instant `now`. -/
def playbackFrame (generation : UInt64) (now : Secs) : BundleEditor :=
  if editor.isPlaying = false ∨ editor.playbackGeneration ≠ generation then editor
  else
    match editor.playbackStartedAt with
    | none => editor
    | some (startedAt, startTimeSecs) =>
      let position := playbackPosition startTimeSecs (max (now - startedAt) 0) editor.durationSecs
      let played := { editor with currentTimeSecs := position.1 }
      if position.2 then played.stopPlayback else played

end BundleEditor

end Blip.Capture
