import Blip.Capture.EditorEffects

/-!
# The timeline's duration

In every state the editor reaches, its duration is that of its segments and every segment is
positive, whatever else an edit does to them.
-/

namespace Blip.Capture

open BundleEditor (splitList KeepsTimeline)

/-- The duration is the segments', which are positive, as are the ranges of a drag. -/
structure DurationInv (editor : BundleEditor) : Prop where
  durationSecs : editor.durationSecs = totalDuration editor.segments
  positive : ∀ s ∈ editor.segments, s.sourceStartSecs < s.sourceEndSecs
  drag : ∀ drag, editor.videoSegmentDrag = some drag →
    drag.originalSourceStartSecs < drag.originalSourceEndSecs ∧
      drag.draftSourceStartSecs < drag.draftSourceEndSecs

/-- A split keeps the total. -/
theorem totalDuration_splitList {pre post : List VideoSegment} {segment : VideoSegment}
    {offset : Secs} (hleft : 0 ≤ offset)
    (hright : offset ≤ segment.sourceEndSecs - segment.sourceStartSecs) :
    totalDuration (splitList pre segment post offset) = totalDuration (pre ++ segment :: post) := by
  simp only [splitList, totalDuration_append, totalDuration_cons, VideoSegment.durationSecs]
  rw [max_eq_left (by linarith), max_eq_left (by linarith), max_eq_left (by linarith)]
  linarith

/-- A resize never proposes an empty range. -/
theorem dragDraft_positive {drag : VideoSegmentDrag} (deltaSecs : Secs) :
    (BundleEditor.dragDraft drag deltaSecs).1 < (BundleEditor.dragDraft drag deltaSecs).2 := by
  unfold BundleEditor.dragDraft resizeVideoSegmentRange
  cases drag.edge with
  | start => exact (min_le_right _ _).trans_lt (by norm_num)
  | «end» => exact lt_max_of_lt_right (by norm_num)

/-- A clipped segment is positive. -/
theorem clipSegment_positive {lo hi : Secs} {s s' : VideoSegment}
    (h : clipSegment lo hi s = some s') : s'.sourceStartSecs < s'.sourceEndSecs := by
  unfold clipSegment at h
  simp only [Option.ite_none_right_eq_some, Option.some.injEq] at h
  obtain ⟨hlt, rfl⟩ := h
  exact hlt

theorem durationInv_open (bundle : BlipBundle) (sourceRanges : List (Secs × Secs))
    (reduceMotion : Bool) :
    DurationInv (BundleEditor.openBundle bundle sourceRanges reduceMotion) := by
  refine ⟨rfl, ?_, fun drag hdrag => absurd hdrag (Option.some_ne_none drag).symm⟩
  simp only [BundleEditor.segments, BundleEditor.openBundle, BundleEditor.openTimeline]
  generalize (sharedSourceRange sourceRanges).getD (0, 0) = range
  cases hsegs : bundle.videoSegments with
  | none =>
    simp only [Option.getD_some]
    split
    · next hlt => simpa using hlt
    · simp
  | some list =>
    simp only [clampVideoTimelineToSourceRange, hsegs, Option.getD_some]
    intro s' hs'
    obtain ⟨s, -, hs⟩ := List.mem_filterMap.mp hs'
    exact clipSegment_positive hs

section Steps

variable {editor editor' : BundleEditor}

theorem DurationInv.same (h : DurationInv editor)
    (hsegs : editor'.bundle.videoSegments = editor.bundle.videoSegments)
    (hduration : editor'.durationSecs = editor.durationSecs)
    (hdrag : editor'.videoSegmentDrag = editor.videoSegmentDrag) : DurationInv editor' := by
  have hlist : editor'.segments = editor.segments := by
    unfold BundleEditor.segments
    rw [hsegs]
  exact ⟨by rw [hduration, hlist, h.durationSecs], hlist ▸ h.positive, hdrag ▸ h.drag⟩

theorem DurationInv.sameTimeline (h : DurationInv editor) (hsame : KeepsTimeline editor editor') :
    DurationInv editor' :=
  h.same (by rw [hsame.bundle]) hsame.durationSecs hsame.videoSegmentDrag

theorem DurationInv.of_edited {list : List VideoSegment} {zooms : List ZoomSegment}
    (hstep : BundleEditor.Edited editor editor' list zooms)
    (hpos : ∀ s ∈ list, s.sourceStartSecs < s.sourceEndSecs)
    (hdrag : ∀ drag, editor'.videoSegmentDrag = some drag →
      drag.originalSourceStartSecs < drag.originalSourceEndSecs ∧
        drag.draftSourceStartSecs < drag.draftSourceEndSecs) : DurationInv editor' := by
  have hlist := segments_of_edited hstep
  exact ⟨by rw [hlist, hstep.durationSecs], hlist ▸ hpos, hdrag⟩

/-- Positive segments stay positive when one is exchanged for a positive one. -/
theorem positive_middle {pre post : List VideoSegment} {x y : VideoSegment}
    (h : ∀ s ∈ pre ++ x :: post, s.sourceStartSecs < s.sourceEndSecs)
    (hy : y.sourceStartSecs < y.sourceEndSecs) :
    ∀ s ∈ pre ++ y :: post, s.sourceStartSecs < s.sourceEndSecs := by
  intro s hs
  rcases List.mem_append.mp hs with hs | hs
  · exact h s (List.mem_append_left _ hs)
  rcases List.mem_cons.mp hs with rfl | hs
  · exact hy
  · exact h s (List.mem_append_right _ (List.mem_cons_of_mem _ hs))

theorem DurationInv.split (h : DurationInv editor) (id : UInt64) (t : Secs) :
    DurationInv (editor.splitVideoSegment id t) := by
  rcases editor.splitVideoSegment_cases id t with
    heq | ⟨pre, segment, post, hsegs, -, hcan, heq⟩ <;> rw [heq]
  · exact h
  have hlist := segments_of_some hsegs
  have hpos := h.positive
  have hduration := h.durationSecs
  rw [hlist] at hpos hduration
  have hsegment := hpos segment (by simp)
  obtain ⟨hleft, hright⟩ := canSplitVideoSegment_iff.mp hcan
  rw [VideoSegment.durationSecs_eq hsegment.le] at hright
  refine ⟨?_, ?_, h.drag⟩
  · refine hduration.trans (Eq.symm ?_)
    exact totalDuration_splitList (by linarith) (by linarith)
  · show ∀ s ∈ splitList pre segment post (t - totalDuration pre), _
    unfold splitList
    rw [show ∀ l r : VideoSegment, pre ++ l :: r :: post = (pre ++ [l]) ++ r :: post by simp]
    refine @positive_middle _ _ segment _ ?_ (by simp only; linarith)
    rw [← show ∀ l r : VideoSegment, pre ++ l :: r :: post = (pre ++ [l]) ++ r :: post by simp]
    intro s hs
    simp only [List.mem_append, List.mem_cons] at hs
    rcases hs with hs | rfl | hs
    · exact hpos s (by simp [hs])
    · simp only
      linarith
    · rcases hs with rfl | hs
      · exact hsegment
      · exact hpos s (by simp [hs])

theorem DurationInv.beginVideoDrag (h : DurationInv editor) (id : UInt64)
    (edge : VideoSegmentEdge) (x : ℚ) :
    DurationInv (editor.beginVideoSegmentDrag id edge x) := by
  rcases editor.beginVideoSegmentDrag_cases id edge x with
    ⟨heq, -⟩ | ⟨pre, segment, post, hsegs, -, -, heq⟩ <;> rw [heq]
  · exact h
  have hsegment : segment.sourceStartSecs < segment.sourceEndSecs :=
    h.positive segment (by rw [segments_of_some hsegs]; simp)
  refine ⟨h.durationSecs, h.positive, ?_⟩
  intro drag hdrag
  cases hdrag
  exact ⟨hsegment, hsegment⟩

theorem DurationInv.mouseMove (h : DurationInv editor) (dragging : Bool)
    (position : PointerPosition) : DurationInv (editor.mouseMove dragging position) := by
  have hover : ∀ moved : BundleEditor, DurationInv moved →
      DurationInv (moved.updateTimelineHover position) := by
    intro moved hmoved
    obtain ⟨c, z, heq⟩ := moved.updateTimelineHover_effect position
    rw [heq]
    exact hmoved.same rfl rfl rfl
  unfold BundleEditor.mouseMove
  apply hover
  split
  · rcases editor.dragVideoSegment_effect { positionX := position.x, dragging } with
      heq | ⟨drag, delta, t, hdrag, heq⟩ <;> rw [heq]
    · exact h
    refine ⟨h.durationSecs, h.positive, ?_⟩
    intro drag' hdrag'
    cases hdrag'
    exact ⟨(h.drag drag hdrag).1, dragDraft_positive delta⟩
  · rcases editor.dragZoomSegment_effect { positionX := position.x, dragging } with
      heq | heq | ⟨_, _, _, t, -, -, -, heq⟩ | ⟨_, _, _, t, -, -, heq⟩ <;> rw [heq]
    · exact h
    all_goals exact h.same rfl rfl rfl

theorem DurationInv.mouseUp (h : DurationInv editor) :
    DurationInv editor.finishZoomSegmentDrag.finishVideoSegmentDrag := by
  have hzoom : DurationInv editor.finishZoomSegmentDrag := by
    rcases editor.finishZoomSegmentDrag_effect with heq | ⟨_, _, _, -, -, -, -, heq⟩ <;> rw [heq] <;>
      exact h.same rfl rfl rfl
  generalize editor.finishZoomSegmentDrag = released at hzoom
  rcases released.finishVideoSegmentDrag_effect with
    heq | ⟨drag, pre, segment, post, -, heffect⟩
  · rw [heq]
    exact ⟨hzoom.durationSecs, hzoom.positive, fun drag hdrag => absurd hdrag (Option.some_ne_none drag).symm⟩
  have hpos := hzoom.positive
  rw [segments_of_some heffect.before_segments] at hpos
  refine .of_edited heffect.edited (positive_middle hpos (hzoom.drag drag heffect.inProgress).2) ?_
  rw [heffect.videoSegmentDrag]
  exact fun drag hdrag => absurd hdrag (Option.some_ne_none drag).symm

theorem DurationInv.deleteSelected (h : DurationInv editor) :
    DurationInv editor.deleteSelected := by
  rcases editor.deleteSelected_cases with heq | ⟨id, -, heq⟩ | heq <;> rw [heq]
  · exact h
  · exact h.same rfl rfl rfl
  rcases editor.deleteSelectedVideoSegment_effect with heq | ⟨pre, segment, post, -, heffect⟩
  · rwa [heq]
  have hpos := h.positive
  rw [segments_of_some heffect.before_segments] at hpos
  refine .of_edited heffect.edited ?_ (by rw [heffect.videoSegmentDrag]; exact h.drag)
  intro s hs
  exact hpos s (by rcases List.mem_append.mp hs with hs | hs <;> simp [hs])

theorem DurationInv.activateCut (h : DurationInv editor) (rightId : UInt64) :
    DurationInv (editor.activateVideoCut rightId) := by
  rcases editor.activateVideoCut_effect rightId with
    ⟨heq, -⟩ | ⟨edit, list, list', hcut, heffect⟩
  · rwa [heq]
  have hε : (0 : Secs) < f64Epsilon := by norm_num [f64Epsilon]
  have hpos := h.positive
  rw [segments_of_some heffect.before_segments] at hpos
  refine .of_edited heffect.edited ?_ (by rw [heffect.videoSegmentDrag]; exact h.drag)
  obtain ⟨pre, left, right, post, rfl, -, -, -, ⟨hgap, -, -, rfl⟩ | ⟨-, -, -, rfl⟩⟩ :=
    editVideoCut_cases hcut
  · have hleft := hpos left (by simp)
    exact positive_middle hpos (by simp only; linarith)
  · have hleft := hpos left (by simp)
    refine @positive_middle pre post left _ ?_ (lt_max_of_lt_left hleft)
    intro s hs
    refine hpos s ?_
    simp only [List.mem_append, List.mem_cons] at hs ⊢
    tauto

theorem DurationInv.expandEdge (h : DurationInv editor) (id : UInt64) (edge : VideoSegmentEdge) :
    DurationInv (editor.activateVideoSegmentEdge id edge) := by
  rcases editor.activateVideoSegmentEdge_effect id edge with
    heq | ⟨pre, segment, post, -, -, heffect⟩
  · rwa [heq]
  have hpos := h.positive
  rw [segments_of_some heffect.before_segments] at hpos
  have hsegment := hpos segment (by simp)
  refine .of_edited heffect.edited (positive_middle hpos ?_)
    (by rw [heffect.videoSegmentDrag]; exact h.drag)
  have hlong := heffect.long
  have hε : (0 : Secs) < f64Epsilon := by norm_num [f64Epsilon]
  cases edge with
  | start =>
    simp only [BundleEditor.expandSegmentEdge] at hlong ⊢
    have := (lt_max_iff.mp hlong).resolve_right (by linarith)
    linarith
  | «end» =>
    simp only [BundleEditor.expandSegmentEdge] at hlong ⊢
    have := (lt_max_iff.mp hlong).resolve_right (by linarith)
    linarith

theorem DurationInv.handle (h : DurationInv editor) (op : EditorOp) :
    DurationInv (editor.handle op) := by
  cases op with
  | layout | setReduceMotion | toggleCutMode | openCropDialog | moveTimelineZoomSlider | mouseExit
  | pinch | scroll | resizeTick | playbackBack | playbackForward | togglePlayback | playbackFrame =>
    exact h.sameTimeline (editor.handle_quiet rfl)
  | escape => exact h.same rfl rfl rfl
  | deleteSelected => exact h.deleteSelected
  | pressTimeline x =>
    rcases editor.pressTimeline_effect x with heq | ⟨t, heq⟩ <;> rw [BundleEditor.handle, heq] <;>
      exact h.same rfl rfl rfl
  | pressVideoSegment id x =>
    rcases editor.pressVideoSegment_effect id x with
      heq | ⟨t, -, ⟨-, heq⟩ | ⟨-, heq⟩⟩ <;> rw [BundleEditor.handle, heq]
    · exact h
    · exact h.split id t
    · rcases editor.selectVideoSegment_effect id with hselect | ⟨-, hselect⟩ <;> rw [hselect] <;>
        exact h.same rfl rfl rfl
  | pressVideoSegmentEdge id edge x => exact h.beginVideoDrag id edge x
  | pressZoomTrack x =>
    rcases editor.pressZoomTrack_effect x with
      heq | ⟨id, t, heq⟩ | ⟨t, range, -, -, -, heq⟩ <;> rw [BundleEditor.handle, heq]
    · rcases editor.pressTimeline_effect x with heq | ⟨t, heq⟩ <;> rw [heq] <;>
        exact h.same rfl rfl rfl
    · rcases editor.beginZoomSegmentDrag_effect id .move x with hbegin | ⟨_, -, -, hbegin⟩ <;>
        rw [hbegin] <;> exact h.same rfl rfl rfl
    · unfold BundleEditor.addZoom
      split <;> exact h.same rfl rfl rfl
  | pressZoomSegment id x =>
    rcases editor.pressZoomSegment_effect id x with heq | ⟨t, heq⟩ <;>
      rw [BundleEditor.handle, heq] <;>
      rcases editor.beginZoomSegmentDrag_effect id .move x with hbegin | ⟨_, -, -, hbegin⟩ <;>
      rw [hbegin] <;> exact h.same rfl rfl rfl
  | pressZoomSegmentEdge id edge x =>
    rcases editor.beginZoomSegmentDrag_effect id (.resize edge) x with hbegin | ⟨_, -, -, hbegin⟩ <;>
      rw [BundleEditor.handle, hbegin] <;> exact h.same rfl rfl rfl
  | clickCut rightId => exact h.activateCut rightId
  | clickVideoSegmentEdge id edge => exact h.expandEdge id edge
  | mouseMove dragging position => exact h.mouseMove dragging position
  | mouseUp => exact h.mouseUp

end Steps

end Blip.Capture
