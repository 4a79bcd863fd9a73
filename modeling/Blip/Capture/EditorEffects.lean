import Blip.Capture.EditorInterface

/-!
# What each operation does to the whole editor

`EditorSteps` says what an edit does to the segments and zooms. Here each operation is given as the
update of the editor it amounts to, so that an invariant over the selection, the view or playback
reads off its own fields. An edit that changes the duration ends in a new view, at once or through an
animation: `animateVideoTimelineResize` is taken apart once, by the lemmas of the first section.
-/

namespace Blip.Capture

open Splice
open BundleEditor (splitList segments)

theorem segments_of_edited {before after : BundleEditor} {list : List VideoSegment}
    {zooms : List ZoomSegment} (h : BundleEditor.Edited before after list zooms) :
    after.segments = list := by
  unfold BundleEditor.segments
  rw [h.bundle]
  rfl

theorem segments_of_bundle {editor editor' : BundleEditor} (h : editor'.bundle = editor.bundle) :
    editor'.segments = editor.segments := by
  unfold BundleEditor.segments
  rw [h]

theorem buttonFree_iff {editor : BundleEditor} : editor.buttonFree = true ↔
    editor.zoomSegmentDrag = none ∧ editor.videoSegmentDrag = none := by
  simp [BundleEditor.buttonFree]

namespace BundleEditor

variable (editor : BundleEditor)

/-! ## Animations -/

section Animation

variable (a b c d : Secs)

@[simp] theorem animate_bundle :
    (editor.animateVideoTimelineResize a b c d).bundle = editor.bundle := by
  unfold animateVideoTimelineResize; split <;> rfl

@[simp] theorem animate_durationSecs :
    (editor.animateVideoTimelineResize a b c d).durationSecs = editor.durationSecs := by
  unfold animateVideoTimelineResize; split <;> rfl

@[simp] theorem animate_selectedZoom :
    (editor.animateVideoTimelineResize a b c d).selectedZoom = editor.selectedZoom := by
  unfold animateVideoTimelineResize; split <;> rfl

@[simp] theorem animate_selectedVideoSegment :
    (editor.animateVideoTimelineResize a b c d).selectedVideoSegment =
      editor.selectedVideoSegment := by
  unfold animateVideoTimelineResize; split <;> rfl

@[simp] theorem animate_zoomSegmentDrag :
    (editor.animateVideoTimelineResize a b c d).zoomSegmentDrag = editor.zoomSegmentDrag := by
  unfold animateVideoTimelineResize; split <;> rfl

@[simp] theorem animate_videoSegmentDrag :
    (editor.animateVideoTimelineResize a b c d).videoSegmentDrag = editor.videoSegmentDrag := by
  unfold animateVideoTimelineResize; split <;> rfl

@[simp] theorem animate_sourceStartSecs :
    (editor.animateVideoTimelineResize a b c d).sourceStartSecs = editor.sourceStartSecs := by
  unfold animateVideoTimelineResize; split <;> rfl

@[simp] theorem animate_sourceEndSecs :
    (editor.animateVideoTimelineResize a b c d).sourceEndSecs = editor.sourceEndSecs := by
  unfold animateVideoTimelineResize; split <;> rfl

@[simp] theorem animate_isPlaying :
    (editor.animateVideoTimelineResize a b c d).isPlaying = editor.isPlaying := by
  unfold animateVideoTimelineResize; split <;> rfl

@[simp] theorem animate_playbackGeneration :
    (editor.animateVideoTimelineResize a b c d).playbackGeneration = editor.playbackGeneration := by
  unfold animateVideoTimelineResize; split <;> rfl

@[simp] theorem animate_lastPlaybackPreviewTimeSecs :
    (editor.animateVideoTimelineResize a b c d).lastPlaybackPreviewTimeSecs =
      editor.lastPlaybackPreviewTimeSecs := by
  unfold animateVideoTimelineResize; split <;> rfl

@[simp] theorem animate_audioPlayback :
    (editor.animateVideoTimelineResize a b c d).audioPlayback = editor.audioPlayback := by
  unfold animateVideoTimelineResize; split <;> rfl

@[simp] theorem animate_videoTimelineResizeGeneration :
    (editor.animateVideoTimelineResize a b c d).videoTimelineResizeGeneration =
      editor.videoTimelineResizeGeneration + 1 := by
  unfold animateVideoTimelineResize; split <;> rfl

end Animation

/-- The view moves to a target: at once, or by an animation of a generation of its own. -/
structure Retargets (before after : BundleEditor) (target : Secs × Secs) : Prop where
  generation : after.videoTimelineResizeGeneration = before.videoTimelineResizeGeneration + 1
  view : (after.videoTimelineResizeAnimation = none ∧
      (after.timelineViewStartSecs, after.timelineViewDurationSecs) = target ∧
      after.resizeTasks = before.resizeTasks) ∨
    ∃ task : VideoTimelineResizeAnimation, after.videoTimelineResizeAnimation = some task ∧
      after.resizeTasks = before.resizeTasks ++ [task] ∧
      task.generation = before.videoTimelineResizeGeneration + 1 ∧
      (task.targetViewStartSecs, task.targetViewDurationSecs) = target ∧
      (task.viewStartSecs, task.viewDurationSecs) =
        (before.timelineViewStartSecs, before.timelineViewDurationSecs) ∧
      (after.timelineViewStartSecs, after.timelineViewDurationSecs) =
        (before.timelineViewStartSecs, before.timelineViewDurationSecs)

theorem animate_retargets {before edited : BundleEditor} {target : Secs × Secs}
    (hgen : edited.videoTimelineResizeGeneration = before.videoTimelineResizeGeneration)
    (htasks : edited.resizeTasks = before.resizeTasks)
    (hstart : edited.timelineViewStartSecs = before.timelineViewStartSecs)
    (hduration : edited.timelineViewDurationSecs = before.timelineViewDurationSecs) :
    Retargets before (edited.animateVideoTimelineResize before.timelineViewStartSecs
      before.timelineViewDurationSecs target.1 target.2) target := by
  refine ⟨by rw [animate_videoTimelineResizeGeneration, hgen], ?_⟩
  unfold animateVideoTimelineResize
  split
  · exact .inl ⟨rfl, rfl, htasks⟩
  · refine .inr ⟨_, rfl, ?_, ?_, rfl, rfl, ?_⟩
    · rw [htasks]
    · rw [hgen]
    · rw [hstart, hduration]

/-! ## Edits of the segments -/

/-- The view fitted into the extent of a timeline. -/
def fittedView (durationSecs : Secs) : Secs × Secs :=
  let viewDurationSecs :=
    max (min editor.timelineViewDurationSecs (timelineExtentSecs durationSecs)) 0
  (clampTimelineViewStart editor.timelineViewStartSecs viewDurationSecs
    (timelineExtentSecs durationSecs), viewDurationSecs)

/-- What an edit leaves of the selection, the other drag and playback. -/
structure Keeps (before after : BundleEditor) : Prop where
  selectedZoom : after.selectedZoom = before.selectedZoom
  zoomSegmentDrag : after.zoomSegmentDrag = before.zoomSegmentDrag
  isPlaying : after.isPlaying = before.isPlaying
  audioPlayback : after.audioPlayback = before.audioPlayback

/-- Releasing a drag of a segment that is still there. -/
structure FinishesDrag (before after : BundleEditor) (drag : VideoSegmentDrag)
    (pre post : List VideoSegment) (segment : VideoSegment) : Prop
    extends Keeps before after where
  inProgress : before.videoSegmentDrag = some drag
  before_segments : before.bundle.videoSegments = some (pre ++ segment :: post)
  id : segment.id = drag.id
  edited : Edited before after (pre ++ { segment with
    sourceStartSecs := drag.draftSourceStartSecs
    sourceEndSecs := drag.draftSourceEndSecs } :: post) (rippleDrag drag)
  selectedVideoSegment : after.selectedVideoSegment = before.selectedVideoSegment
  videoSegmentDrag : after.videoSegmentDrag = none
  retargets : Retargets before after (before.fittedView after.durationSecs)

theorem finishVideoSegmentDrag_effect :
    editor.finishVideoSegmentDrag = { editor with videoSegmentDrag := none } ∨
    ∃ drag pre segment post, (∀ s ∈ pre, s.id ≠ drag.id) ∧
      FinishesDrag editor editor.finishVideoSegmentDrag drag pre post segment := by
  unfold finishVideoSegmentDrag
  cases hdrag : editor.videoSegmentDrag with
  | none =>
    left
    cases editor
    subst hdrag
    rfl
  | some drag =>
    cases hsegs : editor.bundle.videoSegments with
    | none => exact .inl (by simp only [hsegs])
    | some segments =>
      simp only [hsegs]
      rcases findSegment_cases segments drag.id with
        hnone | ⟨pre, segment, post, rfl, hid, hpre, hfind⟩
      · exact .inl (by simp only [hnone])
      · simp only [hfind, getElem?_middle, set_middle]
        refine .inr ⟨drag, pre, segment, post, hpre, ⟨by simp, by simp, by simp, by simp⟩, hdrag,
          hsegs, hid, ⟨⟨by simp, by simp⟩, by simp, by rw [animate_durationSecs]; rfl⟩, by simp, by simp, ?_⟩
        rw [animate_durationSecs]
        exact @animate_retargets editor _ (editor.fittedView _) rfl rfl rfl rfl

/-- Deleting the selected segment. -/
structure DeletesSegment (before after : BundleEditor) (pre post : List VideoSegment)
    (segment : VideoSegment) : Prop extends Keeps before after where
  before_segments : before.bundle.videoSegments = some (pre ++ segment :: post)
  selected : before.selectedVideoSegment = some segment.id
  rest : pre ++ post ≠ []
  edited : Edited before after (pre ++ post)
    (rippleDeleteRanges before.bundle.zoomSegments (totalDuration pre) segment.durationSecs)
  selectedVideoSegment : ∃ s ∈ pre ++ post, after.selectedVideoSegment = some s.id
  videoSegmentDrag : after.videoSegmentDrag = before.videoSegmentDrag
  view : (after.timelineViewStartSecs, after.timelineViewDurationSecs) =
    before.fittedView after.durationSecs
  generation : after.videoTimelineResizeGeneration = before.videoTimelineResizeGeneration
  animation : after.videoTimelineResizeAnimation = before.videoTimelineResizeAnimation
  tasks : after.resizeTasks = before.resizeTasks

/-- The neighbour a deletion selects. -/
theorem exists_neighbour {pre post : List VideoSegment} (h : pre ++ post ≠ []) :
    ∃ s ∈ pre ++ post, ((pre ++ post)[pre.length]?.or
      (match pre.length with
        | 0 => none
        | previous + 1 => (pre ++ post)[previous]?)).map VideoSegment.id = some s.id := by
  cases post with
  | cons next post =>
    exact ⟨next, by simp, by simp⟩
  | nil =>
    rcases List.eq_nil_or_concat pre with rfl | ⟨front, last, rfl⟩
    · simp at h
    · exact ⟨last, by simp, by simp⟩

theorem deleteSelectedVideoSegment_effect :
    editor.deleteSelectedVideoSegment = editor ∨
    ∃ pre segment post, (∀ s ∈ pre, s.id ≠ segment.id) ∧
      DeletesSegment editor editor.deleteSelectedVideoSegment pre post segment := by
  unfold deleteSelectedVideoSegment
  cases hsegs : editor.bundle.videoSegments with
  | none => exact .inl rfl
  | some segments =>
    cases hsel : editor.selectedVideoSegment with
    | none => exact .inl rfl
    | some id =>
      simp only
      split
      · exact .inl rfl
      · next hlen =>
        rcases findSegment_cases segments id with hnone | ⟨pre, segment, post, rfl, hid, hpre, hfind⟩
        · exact .inl (by simp [hnone])
        · simp only [hfind, getElem?_middle, take_middle, eraseIdx_middle]
          subst hid
          have hne : pre ++ post ≠ [] := by
            intro hnil
            obtain ⟨rfl, rfl⟩ := List.append_eq_nil_iff.mp hnil
            simp at hlen
          exact .inr ⟨pre, segment, post, hpre, ⟨rfl, rfl, rfl, rfl⟩, hsegs, hsel, hne,
            ⟨⟨rfl, rfl⟩, rfl, rfl⟩, exists_neighbour hne, rfl, rfl, rfl, rfl, rfl⟩

theorem deleteSelected_effect :
    editor.deleteSelected = editor ∨
    (∃ id, editor.selectedZoom = some id ∧ editor.deleteSelected = { editor with
      bundle := { editor.bundle with
        zoomSegments := editor.bundle.zoomSegments.filter (fun segment => segment.id != id) }
      selectedZoom := none
      zoomSegmentDrag := none }) ∨
    ∃ pre segment post, editor.selectedZoom = none ∧ (∀ s ∈ pre, s.id ≠ segment.id) ∧
      DeletesSegment editor editor.deleteSelected pre post segment := by
  rcases editor.deleteSelected_cases with heq | hzoom | heq
  · exact .inl heq
  · exact .inr (.inl hzoom)
  cases hsel : editor.selectedZoom with
  | some id =>
    rcases editor.deleteSelectedVideoSegment_effect with hnone | ⟨pre, segment, post, -, heffect⟩
    · exact .inl (heq.trans hnone)
    · -- with a zoom selected the deletion is the zoom's, which keeps the segments
      exfalso
      have hsegs : editor.deleteSelected.bundle.videoSegments = editor.bundle.videoSegments := by
        unfold deleteSelected
        rw [hsel]
        simp only
        split <;> rfl
      rw [heq, heffect.edited.bundle, heffect.before_segments] at hsegs
      have hlength := congrArg List.length (Option.some.inj hsegs)
      simp at hlength
  | none =>
    rw [heq]
    rcases editor.deleteSelectedVideoSegment_effect with hnone | ⟨pre, segment, post, hpre, heffect⟩
    · exact .inl hnone
    · exact .inr (.inr ⟨pre, segment, post, rfl, hpre, heffect⟩)

/-- The view a cut ends in. -/
def cutView (durationSecs : Secs) : Secs × Secs :=
  if (editor.timelineViewStartSecs ≤ f64Epsilon ∧
        timelineExtentSecs editor.durationSecs - f64Epsilon ≤ editor.timelineViewDurationSecs) ∨
      timelineExtentSecs durationSecs < editor.timelineViewDurationSecs then
    (0, timelineExtentSecs durationSecs)
  else
    (clampTimelineViewStart editor.timelineViewStartSecs editor.timelineViewDurationSecs
      (timelineExtentSecs durationSecs), editor.timelineViewDurationSecs)

/-- Activating a cut. -/
structure ActivatesCut (before after : BundleEditor) (edit : VideoCutEdit)
    (segments segments' : List VideoSegment) : Prop extends Keeps before after where
  before_segments : before.bundle.videoSegments = some segments
  edited : Edited before after segments'
    (if 0 < edit.insertedDurationSecs then
      rippleInsertRanges before.bundle.zoomSegments edit.timelineStartSecs edit.insertedDurationSecs
    else before.bundle.zoomSegments)
  selectedVideoSegment : after.selectedVideoSegment =
    if before.selectedVideoSegment = edit.removedId then some edit.leftId
    else before.selectedVideoSegment
  videoSegmentDrag : after.videoSegmentDrag = before.videoSegmentDrag
  retargets : Retargets before after (before.cutView after.durationSecs)

theorem activateVideoCut_effect (rightId : UInt64) :
    editor.activateVideoCut rightId = editor ∧
        editor.bundle.videoSegments.bind (fun segments => editVideoCut segments rightId) = none ∨
    ∃ edit segments segments', editVideoCut segments rightId = some (edit, segments') ∧
      ActivatesCut editor (editor.activateVideoCut rightId) edit segments segments' := by
  unfold activateVideoCut
  cases hsegs : editor.bundle.videoSegments with
  | none => exact .inl ⟨rfl, rfl⟩
  | some segments =>
    rw [Option.bind_some]
    cases hcut : editVideoCut segments rightId with
    | none => exact .inl ⟨rfl, rfl⟩
    | some result =>
      obtain ⟨edit, segments'⟩ := result
      refine .inr ⟨edit, segments, segments', hcut, ?_⟩
      by_cases hanim : 0 < edit.insertedDurationSecs
      · simp only [hanim, decide_true, if_true, true_and]
        refine ⟨⟨by simp, by simp, by simp, by simp⟩, hsegs,
          ⟨⟨by simp, by simp⟩, by simp [hanim], by rw [animate_durationSecs]; rfl⟩,
          by simp, by simp, ?_⟩
        rw [animate_durationSecs]
        exact @animate_retargets editor _ (editor.cutView _) rfl rfl rfl rfl
      · simp only [hanim, decide_false, Bool.false_eq_true, if_false, false_and]
        exact ⟨⟨rfl, rfl, rfl, rfl⟩, hsegs, ⟨⟨rfl, rfl⟩, by simp [hanim], rfl⟩, rfl, rfl,
          ⟨rfl, .inl ⟨rfl, rfl, rfl⟩⟩⟩

/-- The view an expanded edge ends in. -/
def edgeView (durationSecs : Secs) : Secs × Secs :=
  if editor.timelineViewStartSecs ≤ f64Epsilon ∧
      timelineExtentSecs editor.durationSecs - f64Epsilon ≤ editor.timelineViewDurationSecs then
    (0, timelineExtentSecs durationSecs)
  else (editor.timelineViewStartSecs, editor.timelineViewDurationSecs)

/-- Expanding an edge. -/
structure ExpandsEdge (before after : BundleEditor) (edge : VideoSegmentEdge)
    (pre post : List VideoSegment) (segment : VideoSegment) : Prop extends Keeps before after where
  before_segments : before.bundle.videoSegments = some (pre ++ segment :: post)
  long : f64Epsilon < (before.expandSegmentEdge segment edge (totalDuration pre)).2.2
  edited : Edited before after
    (pre ++ (before.expandSegmentEdge segment edge (totalDuration pre)).1 :: post)
    (rippleInsertRanges before.bundle.zoomSegments
      (before.expandSegmentEdge segment edge (totalDuration pre)).2.1
      (before.expandSegmentEdge segment edge (totalDuration pre)).2.2)
  selectedVideoSegment : after.selectedVideoSegment = before.selectedVideoSegment
  videoSegmentDrag : after.videoSegmentDrag = before.videoSegmentDrag
  retargets : Retargets before after (before.edgeView after.durationSecs)

theorem activateVideoSegmentEdge_effect (id : UInt64) (edge : VideoSegmentEdge) :
    editor.activateVideoSegmentEdge id edge = editor ∨
    ∃ pre segment post, segment.id = id ∧ (∀ s ∈ pre, s.id ≠ id) ∧
      ExpandsEdge editor (editor.activateVideoSegmentEdge id edge) edge pre post segment := by
  unfold activateVideoSegmentEdge
  cases hsegs : editor.bundle.videoSegments with
  | none => exact .inl rfl
  | some segments =>
    rcases findSegment_cases segments id with hnone | ⟨pre, segment, post, rfl, hid, hpre, hfind⟩
    · exact .inl (by simp [hnone])
    · simp only [hfind, getElem?_middle, take_middle, set_middle]
      split
      · exact .inl rfl
      · next hlong =>
        refine .inr ⟨pre, segment, post, hid, hpre, ⟨by simp, by simp, by simp, by simp⟩, hsegs,
          not_le.mp hlong, ⟨⟨by simp, by simp⟩, by simp, by rw [animate_durationSecs]; rfl⟩, by simp, by simp, ?_⟩
        rw [animate_durationSecs]
        exact @animate_retargets editor _ (editor.edgeView _) rfl rfl rfl rfl

/-! ## Zoom segments -/

theorem setZoomRange_cases (zooms : List ZoomSegment) (id : UInt64) (startSecs endSecs : Secs) :
    setZoomRange zooms id startSecs endSecs = none ∧ (∀ z ∈ zooms, z.id ≠ id) ∨
    ∃ pre zoom post, zooms = pre ++ zoom :: post ∧ zoom.id = id ∧
      setZoomRange zooms id startSecs endSecs =
        some (pre ++ { zoom with startSecs, endSecs } :: post) := by
  unfold setZoomRange
  cases hfind : zooms.findIdx? (fun zoom => zoom.id == id) with
  | none =>
    refine .inl ⟨rfl, fun z hz => ?_⟩
    simpa using List.findIdx?_eq_none_iff.mp hfind z hz
  | some index =>
    obtain ⟨pre, zoom, post, rfl, rfl, hid, -⟩ := exists_split_of_findIdx? hfind
    refine .inr ⟨pre, zoom, post, rfl, by simpa using hid, ?_⟩
    simp only [getElem?_middle, set_middle]

theorem beginZoomSegmentDrag_effect (id : UInt64) (kind : ZoomSegmentDragKind) (x : ℚ) :
    editor.beginZoomSegmentDrag id kind x = editor ∨
    ∃ zoom ∈ editor.bundle.zoomSegments, zoom.id = id ∧
      editor.beginZoomSegmentDrag id kind x = { editor with
        zoomSegmentDrag := some (editor.newZoomSegmentDrag zoom kind x)
        selectedZoom := some id
        selectedVideoSegment := none
        cursorTimeSecs := none } := by
  unfold beginZoomSegmentDrag
  cases hfind : editor.bundle.zoomSegments.find? (fun zoom => zoom.id == id) with
  | none => exact .inl rfl
  | some zoom =>
    exact .inr ⟨zoom, List.mem_of_find?_eq_some hfind, by simpa using List.find?_some hfind, rfl⟩

theorem timelineTimeAt_of_width (h : ¬ editor.timelineBounds.width ≤ 0) (x : ℚ) :
    ∃ timeSecs, editor.timelineTimeAt x = some timeSecs :=
  ⟨_, if_neg h⟩

theorem dragZoomSegment_effect (event : MouseMoveEvent) :
    editor.dragZoomSegment event = editor ∨
    editor.dragZoomSegment event = { editor with zoomSegmentDrag := none } ∨
    (∃ drag deltaSecs zoomSegments timeSecs, editor.zoomSegmentDrag = some drag ∧
      drag.kind = .move ∧
      setZoomRange editor.bundle.zoomSegments drag.id (movedZoomRange drag deltaSecs).1
        (movedZoomRange drag deltaSecs).2 = some zoomSegments ∧
      editor.dragZoomSegment event = { editor with
        bundle := { editor.bundle with zoomSegments } }.setPlaybackTime timeSecs) ∨
    ∃ drag edge deltaSecs timeSecs, editor.zoomSegmentDrag = some drag ∧
      drag.kind = .resize edge ∧
      editor.dragZoomSegment event = { editor with
        zoomSegmentDrag := some { drag with
          draftStartSecs := (resizeZoomSegmentRange edge drag.originalStartSecs drag.originalEndSecs
            drag.minimumStartSecs drag.maximumEndSecs deltaSecs).1
          draftEndSecs := (resizeZoomSegmentRange edge drag.originalStartSecs drag.originalEndSecs
            drag.minimumStartSecs drag.maximumEndSecs deltaSecs).2 } }.setPlaybackTime timeSecs := by
  unfold dragZoomSegment
  cases hdrag : editor.zoomSegmentDrag with
  | none => exact .inl rfl
  | some drag =>
    simp only
    split
    · exact .inl rfl
    split
    · exact .inl rfl
    next hwidth =>
    obtain ⟨timeSecs, htime⟩ := editor.timelineTimeAt_of_width hwidth event.positionX
    cases hkind : drag.kind with
    | move =>
      simp only [htime]
      split
      · exact .inr (.inl rfl)
      · next zoomSegments hset =>
        exact .inr (.inr (.inl ⟨drag, _, zoomSegments, timeSecs, rfl, hkind, hset, rfl⟩))
    | resize edge =>
      refine .inr (.inr (.inr ⟨drag, edge, (event.positionX - drag.pointerStartX) /
        editor.timelineBounds.width * editor.timelineViewDurationSecs, ?_⟩))
      cases edge with
      | start => exact ⟨_, rfl, hkind, by rw [hkind]⟩
      | «end» => exact ⟨_, rfl, hkind, by rw [hkind]⟩

theorem finishZoomSegmentDrag_effect :
    editor.finishZoomSegmentDrag = { editor with zoomSegmentDrag := none } ∨
    ∃ drag edge zoomSegments, editor.zoomSegmentDrag = some drag ∧ drag.kind = .resize edge ∧
      (drag.draftStartSecs ≠ drag.originalStartSecs ∨ drag.draftEndSecs ≠ drag.originalEndSecs) ∧
      setZoomRange editor.bundle.zoomSegments drag.id drag.draftStartSecs drag.draftEndSecs =
        some zoomSegments ∧
      editor.finishZoomSegmentDrag = { editor with
        zoomSegmentDrag := none
        bundle := { editor.bundle with zoomSegments } } := by
  unfold finishZoomSegmentDrag
  cases hdrag : editor.zoomSegmentDrag with
  | none =>
    left
    cases editor
    subst hdrag
    rfl
  | some drag =>
    simp only
    cases hkind : drag.kind with
    | move => exact .inl rfl
    | resize edge =>
      simp only
      split
      · next hmoved =>
        split
        · exact .inl rfl
        · next zoomSegments hset =>
          exact .inr ⟨drag, edge, zoomSegments, rfl, hkind, hmoved, hset, rfl⟩
      · exact .inl rfl

/-! ## Presses, pointer moves and playback -/

theorem dragVideoSegment_effect (event : MouseMoveEvent) :
    editor.dragVideoSegment event = editor ∨
    ∃ drag deltaSecs timeSecs, editor.videoSegmentDrag = some drag ∧
      editor.dragVideoSegment event = { editor with
        videoSegmentDrag := some { drag with
          draftSourceStartSecs := (dragDraft drag deltaSecs).1
          draftSourceEndSecs := (dragDraft drag deltaSecs).2 } }.setPlaybackTime timeSecs := by
  unfold dragVideoSegment
  cases hdrag : editor.videoSegmentDrag with
  | none => exact .inl rfl
  | some drag =>
    simp only
    split
    · exact .inl rfl
    split
    · exact .inl rfl
    next hwidth =>
    refine .inr ⟨drag, (event.positionX - drag.pointerStartX) / editor.timelineBounds.width *
      drag.timelineViewDurationSecs, ?_⟩
    split
    · next hnone => simp [timelineTimeAt, hwidth] at hnone
    · next timeSecs htime => exact ⟨timeSecs, rfl, rfl⟩

theorem updateTimelineHover_effect (position : PointerPosition) :
    ∃ cursorTimeSecs zoomHoverRange,
      editor.updateTimelineHover position = { editor with cursorTimeSecs, zoomHoverRange } := by
  unfold updateTimelineHover
  split
  · exact ⟨editor.cursorTimeSecs, editor.zoomHoverRange, rfl⟩
  · exact ⟨_, _, rfl⟩

theorem exitTimeline_effect :
    ∃ cursorTimeSecs zoomHoverRange,
      editor.exitTimeline = { editor with cursorTimeSecs, zoomHoverRange } := by
  unfold exitTimeline
  split
  · exact ⟨none, none, rfl⟩
  · exact ⟨editor.cursorTimeSecs, editor.zoomHoverRange, rfl⟩

theorem pressTimeline_effect (x : ℚ) :
    editor.pressTimeline x = editor.clearSelection ∨
    ∃ timeSecs, editor.pressTimeline x = editor.clearSelection.setPlaybackTime timeSecs := by
  unfold pressTimeline
  simp only
  split
  · split
    · exact .inl rfl
    · next timeSecs _ => exact .inr ⟨timeSecs, rfl⟩
  · exact .inl rfl

theorem pressVideoSegment_effect (id : UInt64) (x : ℚ) :
    editor.pressVideoSegment id x = editor ∨
    ∃ timeSecs, editor.timelineTimeAt x = some timeSecs ∧
      (editor.cutMode = true ∧
          editor.pressVideoSegment id x = editor.splitVideoSegment id timeSecs ∨
        editor.cutMode = false ∧
          editor.pressVideoSegment id x =
            (editor.selectVideoSegment id).setPlaybackTime timeSecs) := by
  unfold pressVideoSegment
  cases htime : editor.timelineTimeAt x with
  | none => exact .inl rfl
  | some timeSecs =>
    refine .inr ⟨timeSecs, rfl, ?_⟩
    unfold activateVideoSegment
    cases editor.cutMode with
    | true => exact .inl ⟨rfl, rfl⟩
    | false => exact .inr ⟨rfl, rfl⟩

theorem selectVideoSegment_effect (id : UInt64) :
    editor.selectVideoSegment id = editor ∨
    (∃ s ∈ editor.segments, s.id = id) ∧
      editor.selectVideoSegment id =
        { editor with selectedVideoSegment := some id, selectedZoom := none } := by
  unfold selectVideoSegment
  split
  · next hany =>
    refine .inr ⟨?_, rfl⟩
    simpa only [List.any_eq_true, beq_iff_eq, segments] using hany
  · exact .inl rfl

theorem pressZoomSegment_effect (id : UInt64) (x : ℚ) :
    editor.pressZoomSegment id x = editor.beginZoomSegmentDrag id .move x ∨
    ∃ timeSecs, editor.pressZoomSegment id x =
      (editor.beginZoomSegmentDrag id .move x).setPlaybackTime timeSecs := by
  unfold pressZoomSegment
  simp only
  split
  · exact .inl rfl
  · next timeSecs _ => exact .inr ⟨timeSecs, rfl⟩

theorem pressZoomTrack_effect (x : ℚ) :
    editor.pressZoomTrack x = editor.pressTimeline x ∨
    (∃ id timeSecs, editor.pressZoomTrack x =
      (editor.beginZoomSegmentDrag id .move x).setPlaybackTime timeSecs) ∨
    ∃ timeSecs range, editor.timelineTimeAt x = some timeSecs ∧
      (∀ z ∈ editor.bundle.zoomSegments, z.contains timeSecs = false) ∧
      zoomSegmentRangeAt timeSecs editor.durationSecs editor.bundle.zoomSegments = some range ∧
      editor.pressZoomTrack x = editor.addZoom range.1 range.2 := by
  unfold pressZoomTrack
  split
  · exact .inl rfl
  next timeSecs htime =>
  split
  · next zoom _ => exact .inr (.inl ⟨zoom.id, timeSecs, rfl⟩)
  · next hfind =>
    split
    · exact .inl rfl
    · next range hrange =>
      refine .inr (.inr ⟨timeSecs, range, htime, ?_, hrange, rfl⟩)
      simpa only [List.find?_eq_none, Bool.not_eq_true] using hfind

theorem togglePlayback_effect (now : Secs) (audioStarts : Bool) :
    editor.togglePlayback now audioStarts = editor ∨
    editor.togglePlayback now audioStarts = editor.stopPlayback ∨
    ∃ currentTimeSecs, editor.isPlaying = false ∧
      editor.togglePlayback now audioStarts = { editor with
        currentTimeSecs
        cursorTimeSecs := none
        zoomHoverRange := none
        isPlaying := true
        playbackGeneration := editor.playbackGeneration + 1
        lastPlaybackPreviewTimeSecs := none
        playbackStartedAt := some (now, currentTimeSecs)
        audioPlayback :=
          if audioStarts then some { segments := audioSegments editor.bundle }
          else editor.audioPlayback } := by
  unfold togglePlayback
  split
  · exact .inr (.inl rfl)
  next hplaying =>
  split
  · exact .inl rfl
  · exact .inr (.inr ⟨_, by simpa using hplaying, rfl⟩)

theorem playbackFrame_effect (generation : UInt64) (now : Secs) :
    editor.playbackFrame generation now = editor ∨
    ∃ currentTimeSecs,
      editor.playbackFrame generation now = { editor with currentTimeSecs } ∨
      editor.playbackFrame generation now = { editor with currentTimeSecs }.stopPlayback := by
  unfold playbackFrame
  split
  · exact .inl rfl
  split
  · exact .inl rfl
  · right
    simp only
    split
    · exact ⟨_, .inr rfl⟩
    · exact ⟨_, .inl rfl⟩

/-! ## Events that leave the timeline or the view alone -/

/-- The timeline, the selection and the drags are as they were. -/
structure KeepsTimeline (before after : BundleEditor) : Prop where
  bundle : after.bundle = before.bundle
  durationSecs : after.durationSecs = before.durationSecs
  selectedZoom : after.selectedZoom = before.selectedZoom
  selectedVideoSegment : after.selectedVideoSegment = before.selectedVideoSegment
  zoomSegmentDrag : after.zoomSegmentDrag = before.zoomSegmentDrag
  videoSegmentDrag : after.videoSegmentDrag = before.videoSegmentDrag

/-- The view, its animation and the duration are as they were. -/
structure SameView (before after : BundleEditor) : Prop where
  timelineViewStartSecs : after.timelineViewStartSecs = before.timelineViewStartSecs
  timelineViewDurationSecs : after.timelineViewDurationSecs = before.timelineViewDurationSecs
  animation : after.videoTimelineResizeAnimation = before.videoTimelineResizeAnimation
  generation : after.videoTimelineResizeGeneration = before.videoTimelineResizeGeneration
  resizeTasks : after.resizeTasks = before.resizeTasks
  durationSecs : after.durationSecs = before.durationSecs

theorem KeepsTimeline.refl : KeepsTimeline editor editor := ⟨rfl, rfl, rfl, rfl, rfl, rfl⟩

theorem SameView.refl : SameView editor editor := ⟨rfl, rfl, rfl, rfl, rfl, rfl⟩

theorem SameView.trans {first second third : BundleEditor} (h : SameView first second)
    (h' : SameView second third) : SameView first third :=
  ⟨h'.timelineViewStartSecs.trans h.timelineViewStartSecs,
    h'.timelineViewDurationSecs.trans h.timelineViewDurationSecs, h'.animation.trans h.animation,
    h'.generation.trans h.generation, h'.resizeTasks.trans h.resizeTasks,
    h'.durationSecs.trans h.durationSecs⟩

end BundleEditor

/-- The events of playback, the view and the window. -/
def EditorOp.quiet : EditorOp → Bool
  | .layout _ | .setReduceMotion _ | .toggleCutMode | .openCropDialog | .moveTimelineZoomSlider _ _
  | .mouseExit | .pinch _ | .scroll _ | .resizeTick _ _ | .playbackBack | .playbackForward
  | .togglePlayback _ _ | .playbackFrame _ _ => true
  | _ => false

/-- The events that choose no view and edit no segment. -/
def EditorOp.keepsView : EditorOp → Bool
  | .deleteSelected | .pressVideoSegmentEdge _ _ _ | .clickCut _ | .clickVideoSegmentEdge _ _
  | .moveTimelineZoomSlider _ _ | .mouseUp | .pinch _ | .scroll _ | .resizeTick _ _ => false
  | _ => true

namespace BundleEditor

variable (editor : BundleEditor)

theorem togglePlayback_same (now : Secs) (audioStarts : Bool) :
    KeepsTimeline editor (editor.togglePlayback now audioStarts) ∧
      SameView editor (editor.togglePlayback now audioStarts) := by
  rcases editor.togglePlayback_effect now audioStarts with heq | heq | ⟨t, -, heq⟩ <;> rw [heq] <;>
    exact ⟨⟨rfl, rfl, rfl, rfl, rfl, rfl⟩, ⟨rfl, rfl, rfl, rfl, rfl, rfl⟩⟩

theorem playbackFrame_same (generation : UInt64) (now : Secs) :
    KeepsTimeline editor (editor.playbackFrame generation now) ∧
      SameView editor (editor.playbackFrame generation now) := by
  rcases editor.playbackFrame_effect generation now with heq | ⟨t, heq | heq⟩ <;> rw [heq] <;>
    exact ⟨⟨rfl, rfl, rfl, rfl, rfl, rfl⟩, ⟨rfl, rfl, rfl, rfl, rfl, rfl⟩⟩

theorem exitTimeline_same : KeepsTimeline editor editor.exitTimeline ∧
    SameView editor editor.exitTimeline := by
  obtain ⟨c, z, heq⟩ := editor.exitTimeline_effect
  rw [heq]
  exact ⟨⟨rfl, rfl, rfl, rfl, rfl, rfl⟩, ⟨rfl, rfl, rfl, rfl, rfl, rfl⟩⟩

theorem handle_quiet {op : EditorOp} (h : op.quiet = true) :
    KeepsTimeline editor (editor.handle op) := by
  cases op with
  | layout | setReduceMotion | toggleCutMode | openCropDialog | playbackBack | playbackForward =>
    exact ⟨rfl, rfl, rfl, rfl, rfl, rfl⟩
  | moveTimelineZoomSlider bounds x =>
    simp only [handle, setTimelineZoom]
    split <;> exact ⟨rfl, rfl, rfl, rfl, rfl, rfl⟩
  | mouseExit => exact editor.exitTimeline_same.1
  | pinch event =>
    simp only [handle, zoomTimeline]
    split
    · exact .refl _
    · split <;> exact ⟨rfl, rfl, rfl, rfl, rfl, rfl⟩
  | scroll event =>
    simp only [handle, panTimeline]
    split
    · exact .refl _
    · split <;> exact ⟨rfl, rfl, rfl, rfl, rfl, rfl⟩
  | resizeTick task elapsed =>
    simp only [handle, resizeTick]
    split
    · exact ⟨rfl, rfl, rfl, rfl, rfl, rfl⟩
    · split <;> exact ⟨rfl, rfl, rfl, rfl, rfl, rfl⟩
  | togglePlayback now audioStarts => exact (editor.togglePlayback_same now audioStarts).1
  | playbackFrame generation now => exact (editor.playbackFrame_same generation now).1
  | _ => cases h

theorem beginZoomSegmentDrag_sameView (id : UInt64) (kind : ZoomSegmentDragKind) (x : ℚ) :
    SameView editor (editor.beginZoomSegmentDrag id kind x) := by
  rcases editor.beginZoomSegmentDrag_effect id kind x with heq | ⟨zoom, -, -, heq⟩ <;> rw [heq]
  · exact .refl _
  · exact ⟨rfl, rfl, rfl, rfl, rfl, rfl⟩

theorem pressTimeline_sameView (x : ℚ) : SameView editor (editor.pressTimeline x) := by
  rcases editor.pressTimeline_effect x with heq | ⟨t, heq⟩ <;> rw [heq] <;>
    exact ⟨rfl, rfl, rfl, rfl, rfl, rfl⟩

theorem addZoom_sameView (a b : Secs) : SameView editor (editor.addZoom a b) := by
  unfold addZoom
  split <;> exact ⟨rfl, rfl, rfl, rfl, rfl, rfl⟩

theorem pressVideoSegment_sameView (id : UInt64) (x : ℚ) :
    SameView editor (editor.pressVideoSegment id x) := by
  rcases editor.pressVideoSegment_effect id x with heq | ⟨t, -, ⟨-, heq⟩ | ⟨-, heq⟩⟩ <;> rw [heq]
  · exact .refl _
  · rcases editor.splitVideoSegment_cases id t with hsplit | ⟨_, _, _, -, -, -, hsplit⟩ <;>
      rw [hsplit] <;> exact ⟨rfl, rfl, rfl, rfl, rfl, rfl⟩
  · rcases editor.selectVideoSegment_effect id with hselect | ⟨-, hselect⟩ <;>
      rw [hselect] <;> exact ⟨rfl, rfl, rfl, rfl, rfl, rfl⟩

theorem mouseMove_sameView (dragging : Bool) (position : PointerPosition) :
    SameView editor (editor.mouseMove dragging position) := by
  have hover : ∀ moved : BundleEditor, SameView moved (moved.updateTimelineHover position) := by
    intro moved
    obtain ⟨c, z, heq⟩ := moved.updateTimelineHover_effect position
    rw [heq]
    exact ⟨rfl, rfl, rfl, rfl, rfl, rfl⟩
  unfold mouseMove
  refine SameView.trans ?_ (hover _)
  split
  · rcases editor.dragVideoSegment_effect { positionX := position.x, dragging } with
      heq | ⟨drag, delta, t, -, heq⟩ <;> rw [heq] <;> exact ⟨rfl, rfl, rfl, rfl, rfl, rfl⟩
  · rcases editor.dragZoomSegment_effect { positionX := position.x, dragging } with
      heq | heq | ⟨_, _, _, t, -, -, -, heq⟩ | ⟨_, _, _, t, -, -, heq⟩ <;> rw [heq] <;>
      exact ⟨rfl, rfl, rfl, rfl, rfl, rfl⟩

theorem handle_keepsView {op : EditorOp} (h : op.keepsView = true) :
    SameView editor (editor.handle op) := by
  cases op with
  | layout | setReduceMotion | toggleCutMode | escape | openCropDialog | playbackBack
  | playbackForward => exact ⟨rfl, rfl, rfl, rfl, rfl, rfl⟩
  | pressTimeline x => exact editor.pressTimeline_sameView x
  | pressVideoSegment id x => exact editor.pressVideoSegment_sameView id x
  | pressZoomTrack x =>
    rcases editor.pressZoomTrack_effect x with heq | ⟨id, t, heq⟩ | ⟨t, range, -, -, -, heq⟩ <;>
      rw [handle, heq]
    · exact editor.pressTimeline_sameView x
    · exact (editor.beginZoomSegmentDrag_sameView id .move x).trans ⟨rfl, rfl, rfl, rfl, rfl, rfl⟩
    · exact editor.addZoom_sameView _ _
  | pressZoomSegment id x =>
    have hbegin := editor.beginZoomSegmentDrag_sameView id .move x
    rcases editor.pressZoomSegment_effect id x with heq | ⟨t, heq⟩ <;> rw [handle, heq]
    · exact hbegin
    · exact hbegin.trans ⟨rfl, rfl, rfl, rfl, rfl, rfl⟩
  | pressZoomSegmentEdge id edge x => exact editor.beginZoomSegmentDrag_sameView id _ x
  | mouseMove dragging position => exact editor.mouseMove_sameView dragging position
  | mouseExit => exact editor.exitTimeline_same.2
  | togglePlayback now audioStarts => exact (editor.togglePlayback_same now audioStarts).2
  | playbackFrame generation now => exact (editor.playbackFrame_same generation now).2
  | _ => cases h

end BundleEditor

end Blip.Capture
