import Blip.Capture.Segments

/-!
# The bundle editor's timeline operations

The state of `BundleEditor` (`apps/blip-capture/src/editor.rs`) that timeline edits read and write,
and the methods the interface calls on it. Saving, preview requests and repaints have no effect on
this state and are left out, as are the ranges an animation keeps only to draw itself.
-/

namespace Blip.Capture

/-- A segment edge drag: the limits and zooms are those of the moment the button went down. -/
structure VideoSegmentDrag where
  id : UInt64
  edge : VideoSegmentEdge
  pointerStartX : ℚ
  timelineStartSecs : Secs
  timelineViewDurationSecs : Secs
  originalSourceStartSecs : Secs
  originalSourceEndSecs : Secs
  draftSourceStartSecs : Secs
  draftSourceEndSecs : Secs
  minimumSourceStartSecs : Secs
  maximumSourceEndSecs : Secs
  originalZoomSegments : List ZoomSegment
deriving DecidableEq, Repr

inductive ZoomSegmentEdge
  | start
  | end
deriving DecidableEq, Repr

inductive ZoomSegmentDragKind
  | move
  | resize (edge : ZoomSegmentEdge)
deriving DecidableEq, Repr

/-- A zoom segment drag. -/
structure ZoomSegmentDrag where
  id : UInt64
  kind : ZoomSegmentDragKind
  pointerStartX : ℚ
  originalStartSecs : Secs
  originalEndSecs : Secs
  draftStartSecs : Secs
  draftEndSecs : Secs
  minimumStartSecs : Secs
  maximumEndSecs : Secs
deriving DecidableEq, Repr

/-- The view an animation runs between, and the generation it belongs to. -/
structure VideoTimelineResizeAnimation where
  viewStartSecs : Secs
  viewDurationSecs : Secs
  targetViewStartSecs : Secs
  targetViewDurationSecs : Secs
  generation : UInt64
deriving DecidableEq, Repr

/-- The segments an active audio stream plays from. -/
structure AudioPlayback where
  segments : List (Secs × Secs)
deriving DecidableEq, Repr

/-- The horizontal extent of the timeline in the window. -/
structure TimelineBounds where
  originX : ℚ
  width : ℚ
deriving DecidableEq, Repr

structure BundleEditor where
  bundle : BlipBundle
  selectedZoom : Option UInt64
  selectedVideoSegment : Option UInt64
  cutMode : Bool
  durationSecs : Secs
  sourceStartSecs : Secs
  sourceEndSecs : Secs
  timelineViewStartSecs : Secs
  timelineViewDurationSecs : Secs
  currentTimeSecs : Secs
  isPlaying : Bool
  playbackStartedAt : Option (Secs × Secs)
  playbackGeneration : UInt64
  lastPlaybackPreviewTimeSecs : Option Secs
  audioPlayback : Option AudioPlayback
  cursorTimeSecs : Option Secs
  zoomHoverRange : Option (Secs × Secs)
  timelineBounds : TimelineBounds
  zoomSegmentDrag : Option ZoomSegmentDrag
  videoSegmentDrag : Option VideoSegmentDrag
  videoTimelineResizeAnimation : Option VideoTimelineResizeAnimation
  videoTimelineResizeGeneration : UInt64
  /-- The tick tasks `animate_video_timeline_resize` has spawned and detached. -/
  resizeTasks : List VideoTimelineResizeAnimation
  /-- `cx.reduce_motion()`. -/
  reduceMotion : Bool
deriving DecidableEq, Repr

/-- The part of a mouse event the timeline reads. -/
structure MouseMoveEvent where
  positionX : ℚ
  dragging : Bool
deriving DecidableEq, Repr

/-- `TIMELINE_TRAILING_SPACE_SECS`. -/
def timelineTrailingSpaceSecs : Secs := 3

/-- `timeline_extent_secs`. -/
def timelineExtentSecs (durationSecs : Secs) : Secs :=
  max durationSecs 0 + timelineTrailingSpaceSecs

/-- `f64::clamp`, for a nonempty range. -/
def clampSecs (low high timeSecs : Secs) : Secs := max low (min high timeSecs)

/-- `clamp_timeline_view_start`. -/
def clampTimelineViewStart (viewStartSecs viewDurationSecs timelineExtentSecs : Secs) : Secs :=
  clampSecs 0 (max (timelineExtentSecs - viewDurationSecs) 0) viewStartSecs

namespace BundleEditor

/-! ## Opening a bundle -/

/-- The segments a bundle opens with: the stored ones clipped to the source, or the whole source. -/
def openTimeline (bundle : BlipBundle) (sourceStartSecs sourceEndSecs : Secs) : BlipBundle :=
  match bundle.videoSegments with
  | none =>
    { bundle with
      videoSegments := some (if sourceStartSecs < sourceEndSecs then
        [{ id := 1, sourceStartSecs, sourceEndSecs }] else []) }
  | some _ => clampVideoTimelineToSourceRange bundle sourceStartSecs sourceEndSecs

/-- `BundleEditor::open`, given the source ranges of the video inputs that could be decoded. -/
def openBundle (bundle : BlipBundle) (sourceRanges : List (Secs × Secs)) (reduceMotion : Bool) :
    BundleEditor :=
  let sourceRange := (sharedSourceRange sourceRanges).getD (0, 0)
  let bundle := openTimeline bundle sourceRange.1 sourceRange.2
  let timelineDuration := videoTimelineDuration bundle
  { bundle
    selectedZoom := none
    selectedVideoSegment := none
    cutMode := false
    durationSecs := timelineDuration
    sourceStartSecs := sourceRange.1
    sourceEndSecs := sourceRange.2
    timelineViewStartSecs := 0
    timelineViewDurationSecs := timelineExtentSecs timelineDuration
    currentTimeSecs := 0
    isPlaying := false
    playbackStartedAt := none
    playbackGeneration := 0
    lastPlaybackPreviewTimeSecs := none
    audioPlayback := none
    cursorTimeSecs := none
    zoomHoverRange := none
    timelineBounds := { originX := 0, width := 0 }
    zoomSegmentDrag := none
    videoSegmentDrag := none
    videoTimelineResizeAnimation := none
    videoTimelineResizeGeneration := 0
    resizeTasks := []
    reduceMotion }

variable (editor : BundleEditor)

/-! ## Playback position -/

/-- `stop_playback`. -/
def stopPlayback : BundleEditor :=
  { editor with
    isPlaying := false
    playbackStartedAt := none
    playbackGeneration := editor.playbackGeneration + 1
    lastPlaybackPreviewTimeSecs := none
    audioPlayback := none }

/-- `set_playback_time`. -/
def setPlaybackTime (timeSecs : Secs) : BundleEditor :=
  { editor.stopPlayback with currentTimeSecs := clampSecs 0 editor.durationSecs timeSecs }

/-- `timeline_time_at`. -/
def timelineTimeAt (x : ℚ) : Option Secs :=
  if editor.timelineBounds.width ≤ 0 then none
  else
    let fraction := clampSecs 0 1 ((x - editor.timelineBounds.originX) / editor.timelineBounds.width)
    some (editor.timelineViewStartSecs + fraction * editor.timelineViewDurationSecs)

/-! ## Selection and splitting -/

/-- `select_video_segment`. -/
def selectVideoSegment (id : UInt64) : BundleEditor :=
  if (editor.bundle.videoSegments.getD []).any (fun segment => segment.id == id) then
    { editor with selectedVideoSegment := some id, selectedZoom := none }
  else editor

/-- The identifier a split gives its right part: `max().unwrap_or(0) + 1`, wrapping like `u64`. -/
def nextSegmentId (segments : List VideoSegment) : UInt64 :=
  ((segments.map VideoSegment.id).max?.getD 0) + 1

/-- `split_video_segment`. -/
def splitVideoSegment (id : UInt64) (timelineTimeSecs : Secs) : BundleEditor :=
  match editor.bundle.videoSegments with
  | none => editor
  | some segments =>
    match segments.findIdx? (fun segment => segment.id == id) with
    | none => editor
    | some index =>
      match segments[index]? with
      | none => editor
      | some segment =>
        let timelineStart := totalDuration (segments.take index)
        let offset := timelineTimeSecs - timelineStart
        if canSplitVideoSegment segment.durationSecs offset then
          let newId := nextSegmentId segments
          let sourceSplit := segment.sourceStartSecs + offset
          { editor with
            bundle := { editor.bundle with
              videoSegments := some
                ((segments.set index { segment with sourceEndSecs := sourceSplit }).insertIdx
                  (index + 1)
                  { id := newId, sourceStartSecs := sourceSplit,
                    sourceEndSecs := segment.sourceEndSecs }) }
            selectedVideoSegment := some newId
            selectedZoom := none
            currentTimeSecs := timelineTimeSecs }
        else editor

/-- `toggle_cut_mode`. -/
def toggleCutMode : BundleEditor :=
  { editor with cutMode := !editor.cutMode }

/-- `activate_video_segment`: a press on a segment. -/
def activateVideoSegment (id : UInt64) (timelineTimeSecs : Secs) : BundleEditor :=
  if editor.cutMode then editor.splitVideoSegment id timelineTimeSecs
  else (editor.selectVideoSegment id).setPlaybackTime timelineTimeSecs

/-! ## Edge drags -/

/-- The drag `begin_video_segment_drag` records for the segment at `index`. -/
def newVideoSegmentDrag (segments : List VideoSegment) (index : ℕ) (segment : VideoSegment)
    (edge : VideoSegmentEdge) (positionX : ℚ) : VideoSegmentDrag where
  id := segment.id
  edge := edge
  pointerStartX := positionX
  timelineStartSecs := totalDuration (segments.take index)
  timelineViewDurationSecs := editor.timelineViewDurationSecs
  originalSourceStartSecs := segment.sourceStartSecs
  originalSourceEndSecs := segment.sourceEndSecs
  draftSourceStartSecs := segment.sourceStartSecs
  draftSourceEndSecs := segment.sourceEndSecs
  minimumSourceStartSecs :=
    match index with
    | 0 => editor.sourceStartSecs
    | previous + 1 =>
      (segments[previous]?.map VideoSegment.sourceEndSecs).getD editor.sourceStartSecs
  maximumSourceEndSecs :=
    (segments[index + 1]?.map VideoSegment.sourceStartSecs).getD editor.sourceEndSecs
  originalZoomSegments := editor.bundle.zoomSegments

/-- `begin_video_segment_drag`. -/
def beginVideoSegmentDrag (id : UInt64) (edge : VideoSegmentEdge) (positionX : ℚ) : BundleEditor :=
  match editor.bundle.videoSegments with
  | none => editor
  | some segments =>
    match segments.findIdx? (fun segment => segment.id == id) with
    | none => editor
    | some index =>
      match segments[index]? with
      | none => editor
      | some segment =>
        { editor with
          videoSegmentDrag := some (editor.newVideoSegmentDrag segments index segment edge positionX)
          videoTimelineResizeGeneration := editor.videoTimelineResizeGeneration + 1
          videoTimelineResizeAnimation := none
          selectedVideoSegment := some id
          selectedZoom := none
          cursorTimeSecs := none }

/-- The range a drag proposes once the pointer is `deltaSecs` from where it started. -/
def dragDraft (drag : VideoSegmentDrag) (deltaSecs : Secs) : Secs × Secs :=
  resizeVideoSegmentRange drag.edge drag.originalSourceStartSecs drag.originalSourceEndSecs
    drag.minimumSourceStartSecs drag.maximumSourceEndSecs deltaSecs

/-- `drag_video_segment`: a pointer move while a drag may be in progress. -/
def dragVideoSegment (event : MouseMoveEvent) : BundleEditor :=
  match editor.videoSegmentDrag with
  | none => editor
  | some drag =>
    if !event.dragging then editor
    else if editor.timelineBounds.width ≤ 0 then editor
    else
      let deltaFraction := (event.positionX - drag.pointerStartX) / editor.timelineBounds.width
      let deltaSecs := deltaFraction * drag.timelineViewDurationSecs
      let draft := dragDraft drag deltaSecs
      let moved := { editor with
        videoSegmentDrag := some { drag with
          draftSourceStartSecs := draft.1, draftSourceEndSecs := draft.2 } }
      match moved.timelineTimeAt event.positionX with
      | none => moved
      | some timeSecs => moved.setPlaybackTime timeSecs

/-- `animate_video_timeline_resize`, up to its ticks. -/
def animateVideoTimelineResize (viewStartSecs viewDurationSecs targetViewStartSecs
    targetViewDurationSecs : Secs) : BundleEditor :=
  let generation := editor.videoTimelineResizeGeneration + 1
  let animation : VideoTimelineResizeAnimation :=
    { viewStartSecs, viewDurationSecs, targetViewStartSecs, targetViewDurationSecs, generation }
  if editor.reduceMotion then
    { editor with
      videoTimelineResizeGeneration := generation
      timelineViewStartSecs := targetViewStartSecs
      timelineViewDurationSecs := targetViewDurationSecs
      videoTimelineResizeAnimation := none }
  else
    { editor with
      videoTimelineResizeGeneration := generation
      videoTimelineResizeAnimation := some animation
      resizeTasks := editor.resizeTasks ++ [animation] }

/-- The zoom segments a finished drag leaves: those of the drag's start, rippled over the change. -/
def rippleDrag (drag : VideoSegmentDrag) : List ZoomSegment :=
  let originalDuration := drag.originalSourceEndSecs - drag.originalSourceStartSecs
  let newDuration := drag.draftSourceEndSecs - drag.draftSourceStartSecs
  if newDuration < originalDuration then
    let removedAtSecs := match drag.edge with
      | .start => drag.timelineStartSecs
      | .end => drag.timelineStartSecs + newDuration
    rippleDeleteRanges drag.originalZoomSegments removedAtSecs (originalDuration - newDuration)
  else
    let insertedAtSecs := match drag.edge with
      | .start => drag.timelineStartSecs
      | .end => drag.timelineStartSecs + originalDuration
    rippleInsertRanges drag.originalZoomSegments insertedAtSecs (newDuration - originalDuration)

/-- `finish_video_segment_drag`: the button is released. -/
def finishVideoSegmentDrag : BundleEditor :=
  match editor.videoSegmentDrag with
  | none => editor
  | some drag =>
    let editor := { editor with videoSegmentDrag := none }
    match editor.bundle.videoSegments with
    | none => editor
    | some segments =>
      match segments.findIdx? (fun segment => segment.id == drag.id) with
      | none => editor
      | some index =>
        match segments[index]? with
        | none => editor
        | some segment =>
          let bundle : BlipBundle :=
            { videoSegments := some (segments.set index { segment with
                sourceStartSecs := drag.draftSourceStartSecs
                sourceEndSecs := drag.draftSourceEndSecs })
              zoomSegments := rippleDrag drag }
          let durationSecs := videoTimelineDuration bundle
          let timelineExtent := timelineExtentSecs durationSecs
          let targetViewDurationSecs := max (min editor.timelineViewDurationSecs timelineExtent) 0
          let targetViewStartSecs :=
            clampTimelineViewStart editor.timelineViewStartSecs targetViewDurationSecs timelineExtent
          { editor with
            bundle, durationSecs,
            currentTimeSecs := min editor.currentTimeSecs durationSecs }.animateVideoTimelineResize
              editor.timelineViewStartSecs editor.timelineViewDurationSecs
              targetViewStartSecs targetViewDurationSecs

/-! ## Deleting a segment -/

/-- `delete_selected_video_segment`. -/
def deleteSelectedVideoSegment : BundleEditor :=
  match editor.bundle.videoSegments, editor.selectedVideoSegment with
  | some segments, some id =>
    -- `can_delete_video_segment`
    if segments.length ≤ 1 then editor
    else
      match segments.findIdx? (fun segment => segment.id == id) with
      | none => editor
      | some index =>
        match segments[index]? with
        | none => editor
        | some removed =>
          let timelineStart := totalDuration (segments.take index)
          let segments := segments.eraseIdx index
          let bundle : BlipBundle :=
            { videoSegments := some segments
              zoomSegments :=
                rippleDeleteRanges editor.bundle.zoomSegments timelineStart removed.durationSecs }
          let durationSecs := videoTimelineDuration bundle
          let timelineExtent := timelineExtentSecs durationSecs
          let timelineViewDurationSecs := max (min editor.timelineViewDurationSecs timelineExtent) 0
          { editor with
            bundle, durationSecs, timelineViewDurationSecs,
            selectedVideoSegment := (segments[index]?.or
              (match index with
                | 0 => none
                | previous + 1 => segments[previous]?)).map VideoSegment.id
            timelineViewStartSecs := clampTimelineViewStart editor.timelineViewStartSecs
              timelineViewDurationSecs timelineExtent
            currentTimeSecs := min timelineStart durationSecs
            cursorTimeSecs := none }
  | _, _ => editor

/-- `delete_selected`: a selected zoom goes first, otherwise the selected segment. -/
def deleteSelected : BundleEditor :=
  match editor.selectedZoom with
  | some id =>
    let zoomSegments := editor.bundle.zoomSegments.filter (fun segment => segment.id != id)
    if zoomSegments.length = editor.bundle.zoomSegments.length then editor
    else
      { editor with
        bundle := { editor.bundle with zoomSegments }
        selectedZoom := none
        zoomSegmentDrag := none }
  | none => editor.deleteSelectedVideoSegment

/-! ## Cuts and outer edges -/

/-- `activate_video_cut`: a press on the marker between a segment and its left neighbour. -/
def activateVideoCut (rightId : UInt64) : BundleEditor :=
  match editor.bundle.videoSegments.bind (fun segments => editVideoCut segments rightId) with
  | none => editor
  | some (edit, segments) =>
    let oldTimelineExtent := timelineExtentSecs editor.durationSecs
    let shouldAnimate := decide (0 < edit.insertedDurationSecs)
    let zoomSegments :=
      if shouldAnimate then
        rippleInsertRanges editor.bundle.zoomSegments edit.timelineStartSecs
          edit.insertedDurationSecs
      else editor.bundle.zoomSegments
    let currentTimeSecs :=
      if shouldAnimate ∧ edit.timelineStartSecs ≤ editor.currentTimeSecs then
        editor.currentTimeSecs + edit.insertedDurationSecs
      else editor.currentTimeSecs
    let bundle : BlipBundle := { videoSegments := some segments, zoomSegments }
    let durationSecs := videoTimelineDuration bundle
    let timelineExtent := timelineExtentSecs durationSecs
    let target : Secs × Secs :=
      if (editor.timelineViewStartSecs ≤ f64Epsilon ∧
            oldTimelineExtent - f64Epsilon ≤ editor.timelineViewDurationSecs) ∨
          timelineExtent < editor.timelineViewDurationSecs then
        (0, timelineExtent)
      else
        (clampTimelineViewStart editor.timelineViewStartSecs editor.timelineViewDurationSecs
          timelineExtent, editor.timelineViewDurationSecs)
    let edited := { editor with
      bundle, durationSecs, currentTimeSecs,
      selectedVideoSegment :=
        if editor.selectedVideoSegment = edit.removedId then some edit.leftId
        else editor.selectedVideoSegment
      cursorTimeSecs := none }
    if shouldAnimate then
      edited.animateVideoTimelineResize editor.timelineViewStartSecs
        editor.timelineViewDurationSecs target.1 target.2
    else
      { edited with
        videoTimelineResizeGeneration := editor.videoTimelineResizeGeneration + 1
        videoTimelineResizeAnimation := none
        timelineViewStartSecs := target.1
        timelineViewDurationSecs := target.2 }

/-- The edge an expansion moves, where it opens the timeline and by how much. -/
def expandSegmentEdge (segment : VideoSegment) (edge : VideoSegmentEdge) (timelineStartSecs : Secs) :
    VideoSegment × Secs × Secs :=
  match edge with
  | .start =>
    ({ segment with sourceStartSecs := editor.sourceStartSecs }, timelineStartSecs,
      max (segment.sourceStartSecs - editor.sourceStartSecs) 0)
  | .end =>
    ({ segment with sourceEndSecs := editor.sourceEndSecs },
      timelineStartSecs + segment.durationSecs,
      max (editor.sourceEndSecs - segment.sourceEndSecs) 0)

/-- `activate_video_segment_edge`: extend an edge to the end of the source. -/
def activateVideoSegmentEdge (id : UInt64) (edge : VideoSegmentEdge) : BundleEditor :=
  match editor.bundle.videoSegments with
  | none => editor
  | some segments =>
    match segments.findIdx? (fun segment => segment.id == id) with
    | none => editor
    | some index =>
      match segments[index]? with
      | none => editor
      | some segment =>
        let (expanded, insertedAtSecs, insertedDurationSecs) :=
          editor.expandSegmentEdge segment edge (totalDuration (segments.take index))
        if insertedDurationSecs ≤ f64Epsilon then editor
        else
          let bundle : BlipBundle :=
            { videoSegments := some (segments.set index expanded)
              zoomSegments := rippleInsertRanges editor.bundle.zoomSegments insertedAtSecs
                insertedDurationSecs }
          let durationSecs := videoTimelineDuration bundle
          let target : Secs × Secs :=
            if editor.timelineViewStartSecs ≤ f64Epsilon ∧
                timelineExtentSecs editor.durationSecs - f64Epsilon ≤
                  editor.timelineViewDurationSecs then
              (0, timelineExtentSecs durationSecs)
            else (editor.timelineViewStartSecs, editor.timelineViewDurationSecs)
          { editor with
            bundle, durationSecs,
            currentTimeSecs :=
              if insertedAtSecs ≤ editor.currentTimeSecs then
                editor.currentTimeSecs + insertedDurationSecs
              else editor.currentTimeSecs
            cursorTimeSecs := none }.animateVideoTimelineResize
              editor.timelineViewStartSecs editor.timelineViewDurationSecs target.1 target.2

end BundleEditor

end Blip.Capture
