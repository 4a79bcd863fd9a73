import Blip.Common.Splice
import Blip.Capture.Editor

/-!
# What each timeline operation can do

One inversion lemma per operation: either the editor is left as it was, or the segment list is cut
around the segment concerned and the new list, zooms and duration are named. Invariants and the
time-map results are read off these lemmas without unfolding an operation again.
-/

namespace Blip.Capture

open Splice

/-- `position(|segment| segment.id == id)` finds nothing, or cuts the list at the first match. -/
theorem findSegment_cases (segments : List VideoSegment) (id : UInt64) :
    segments.findIdx? (fun segment => segment.id == id) = none ∨
    ∃ pre segment post, segments = pre ++ segment :: post ∧ segment.id = id ∧
      (∀ s ∈ pre, s.id ≠ id) ∧
      segments.findIdx? (fun segment => segment.id == id) = some pre.length := by
  cases hfind : segments.findIdx? (fun segment => segment.id == id) with
  | none => exact .inl rfl
  | some index =>
    obtain ⟨pre, segment, post, rfl, rfl, hid, hpre⟩ := exists_split_of_findIdx? hfind
    exact .inr ⟨pre, segment, post, rfl, by simpa using hid, fun s hs => by simpa using hpre s hs,
      rfl⟩

theorem canSplitVideoSegment_iff {durationSecs offsetSecs : Secs} :
    canSplitVideoSegment durationSecs offsetSecs = true ↔
      1 ≤ offsetSecs ∧ 1 ≤ durationSecs - offsetSecs := by
  rw [canSplitVideoSegment, Bool.and_eq_true, decide_eq_true_iff, decide_eq_true_iff]
  rfl

/-- `edit_video_cut` fills a gap or merges two neighbours, or does nothing. -/
theorem editVideoCut_cases {segments segments' : List VideoSegment} {rightId : UInt64}
    {edit : VideoCutEdit} (h : editVideoCut segments rightId = some (edit, segments')) :
    ∃ pre left right post, segments = pre ++ left :: right :: post ∧ right.id = rightId ∧
      edit.leftId = left.id ∧ edit.timelineStartSecs = totalDuration (pre ++ [left]) ∧
      ((f64Epsilon < right.sourceStartSecs - left.sourceEndSecs ∧
          edit.insertedDurationSecs = right.sourceStartSecs - left.sourceEndSecs ∧
          edit.removedId = none ∧
          segments' = pre ++ { left with sourceEndSecs := right.sourceStartSecs } :: right :: post) ∨
        (right.sourceStartSecs - left.sourceEndSecs ≤ f64Epsilon ∧
          edit.insertedDurationSecs = 0 ∧ edit.removedId = some right.id ∧
          segments' = pre ++
            { left with sourceEndSecs := max left.sourceEndSecs right.sourceEndSecs } :: post)) := by
  have hε : (0 : Secs) < f64Epsilon := by norm_num [f64Epsilon]
  rcases findSegment_cases segments rightId with hnone | ⟨front, right, post, rfl, hid, -, hfind⟩
  · simp [editVideoCut, hnone] at h
  rcases List.eq_nil_or_concat front with rfl | ⟨pre, left, rfl⟩
  · simp only [editVideoCut, hfind, List.length_nil, reduceCtorEq] at h
  rw [List.concat_eq_append] at h hfind ⊢
  have hlen : (pre ++ [left]).length = pre.length + 1 := by simp
  rw [hlen] at hfind
  have hlist : pre ++ [left] ++ right :: post = pre ++ left :: right :: post := by simp
  have htake : (pre ++ [left] ++ right :: post).take (pre.length + 1) = pre ++ [left] := by
    rw [← hlen]; exact List.take_left' rfl
  have hleft : (pre ++ [left] ++ right :: post)[pre.length]? = some left := by
    rw [hlist]; exact getElem?_middle pre _ left
  have hright : (pre ++ [left] ++ right :: post)[pre.length + 1]? = some right := by
    rw [← hlen]; exact getElem?_middle (pre ++ [left]) post right
  have hset : ∀ l, (pre ++ [left] ++ right :: post).set pre.length l = pre ++ l :: right :: post := by
    intro l; rw [hlist, set_middle]
  have herase : ∀ l, (pre ++ l :: right :: post).eraseIdx (pre.length + 1) = pre ++ l :: post := by
    intro l; simpa using eraseIdx_middle (pre ++ [l]) post right
  simp only [editVideoCut, hfind, htake, hleft, hright, hset, herase] at h
  refine ⟨pre, left, right, post, hlist, hid, ?_⟩
  split at h
  · next hgap =>
    obtain ⟨rfl, rfl⟩ := by simpa using h
    have hpos : f64Epsilon < right.sourceStartSecs - left.sourceEndSecs := by
      rcases max_cases (right.sourceStartSecs - left.sourceEndSecs) 0 with ⟨hm, -⟩ | ⟨hm, -⟩ <;>
        linarith
    have hmax : max (right.sourceStartSecs - left.sourceEndSecs) 0
        = right.sourceStartSecs - left.sourceEndSecs := max_eq_left (by linarith)
    exact ⟨rfl, by simp, .inl ⟨hpos, hmax, rfl, rfl⟩⟩
  · next hgap =>
    obtain ⟨rfl, rfl⟩ := by simpa using h
    have hle : right.sourceStartSecs - left.sourceEndSecs ≤ f64Epsilon :=
      (le_max_left _ _).trans (not_lt.mp hgap)
    exact ⟨rfl, by simp, .inr ⟨hle, rfl, rfl, rfl⟩⟩

namespace BundleEditor

variable (editor : BundleEditor)

/-- The current segment list. -/
def segments : List VideoSegment := editor.bundle.videoSegments.getD []

@[simp] theorem stopPlayback_bundle : editor.stopPlayback.bundle = editor.bundle := rfl

@[simp] theorem setPlaybackTime_bundle (t : Secs) :
    (editor.setPlaybackTime t).bundle = editor.bundle := rfl

@[simp] theorem setPlaybackTime_videoSegmentDrag (t : Secs) :
    (editor.setPlaybackTime t).videoSegmentDrag = editor.videoSegmentDrag := rfl

@[simp] theorem setPlaybackTime_sourceStartSecs (t : Secs) :
    (editor.setPlaybackTime t).sourceStartSecs = editor.sourceStartSecs := rfl

@[simp] theorem setPlaybackTime_sourceEndSecs (t : Secs) :
    (editor.setPlaybackTime t).sourceEndSecs = editor.sourceEndSecs := rfl

@[simp] theorem setPlaybackTime_durationSecs (t : Secs) :
    (editor.setPlaybackTime t).durationSecs = editor.durationSecs := rfl

/-- An animation changes nothing but the view, its generation and the tick tasks. -/
theorem animateVideoTimelineResize_frame (a b c d : Secs) :
    (editor.animateVideoTimelineResize a b c d).bundle = editor.bundle ∧
    (editor.animateVideoTimelineResize a b c d).durationSecs = editor.durationSecs ∧
    (editor.animateVideoTimelineResize a b c d).sourceStartSecs = editor.sourceStartSecs ∧
    (editor.animateVideoTimelineResize a b c d).sourceEndSecs = editor.sourceEndSecs ∧
    (editor.animateVideoTimelineResize a b c d).videoSegmentDrag = editor.videoSegmentDrag := by
  unfold animateVideoTimelineResize
  split <;> simp

/-- The part of the editor that timeline edits are about. -/
structure Frame (before after : BundleEditor) : Prop where
  sourceStartSecs : after.sourceStartSecs = before.sourceStartSecs
  sourceEndSecs : after.sourceEndSecs = before.sourceEndSecs

/-- An operation that leaves the bundle, its duration and a drag in progress as they were. -/
structure Unedited (before after : BundleEditor) : Prop extends Frame before after where
  bundle : after.bundle = before.bundle
  durationSecs : after.durationSecs = before.durationSecs
  videoSegmentDrag : after.videoSegmentDrag = before.videoSegmentDrag

/-- An operation that replaces the segments and zooms and recomputes the duration. -/
structure Edited (before after : BundleEditor) (segments : List VideoSegment)
    (zooms : List ZoomSegment) : Prop extends Frame before after where
  bundle : after.bundle = { videoSegments := some segments, zoomSegments := zooms }
  durationSecs : after.durationSecs = totalDuration segments

theorem Unedited.refl : Unedited editor editor := ⟨⟨rfl, rfl⟩, rfl, rfl, rfl⟩

theorem selectVideoSegment_unedited (id : UInt64) :
    Unedited editor (editor.selectVideoSegment id) := by
  unfold selectVideoSegment
  split
  · exact ⟨⟨rfl, rfl⟩, rfl, rfl, rfl⟩
  · exact .refl _

/-- The list after a split of `segment` at `offset` into it. -/
def splitList (pre : List VideoSegment) (segment : VideoSegment) (post : List VideoSegment)
    (offset : Secs) : List VideoSegment :=
  pre ++ { segment with sourceEndSecs := segment.sourceStartSecs + offset } ::
    { id := nextSegmentId (pre ++ segment :: post)
      sourceStartSecs := segment.sourceStartSecs + offset
      sourceEndSecs := segment.sourceEndSecs } :: post

/-- A split cuts one segment in two, each part at least a second long. -/
theorem splitVideoSegment_cases (id : UInt64) (t : Secs) :
    editor.splitVideoSegment id t = editor ∨
    ∃ pre segment post, editor.bundle.videoSegments = some (pre ++ segment :: post) ∧
      segment.id = id ∧
      canSplitVideoSegment segment.durationSecs (t - totalDuration pre) = true ∧
      editor.splitVideoSegment id t = { editor with
        bundle := { editor.bundle with
          videoSegments := some (splitList pre segment post (t - totalDuration pre)) }
        selectedVideoSegment := some (nextSegmentId (pre ++ segment :: post))
        selectedZoom := none
        currentTimeSecs := t } := by
  unfold splitVideoSegment
  cases hsegs : editor.bundle.videoSegments with
  | none => exact .inl rfl
  | some segments =>
    rcases findSegment_cases segments id with hnone | ⟨pre, segment, post, rfl, hid, -, hfind⟩
    · simp [hnone]
    · simp only [hfind, getElem?_middle, take_middle, set_middle, insertIdx_after_middle]
      split
      · next hcan => exact .inr ⟨pre, segment, post, rfl, hid, hcan, rfl⟩
      · exact .inl rfl

/-- A drag starts from the segment's own range and the neighbours' edges. -/
theorem beginVideoSegmentDrag_cases (id : UInt64) (edge : VideoSegmentEdge) (x : ℚ) :
    (editor.beginVideoSegmentDrag id edge x = editor ∧ ∀ s ∈ editor.segments, s.id ≠ id) ∨
    ∃ pre segment post, editor.bundle.videoSegments = some (pre ++ segment :: post) ∧
      segment.id = id ∧ (∀ s ∈ pre, s.id ≠ id) ∧
      editor.beginVideoSegmentDrag id edge x = { editor with
        videoSegmentDrag := some
          (editor.newVideoSegmentDrag (pre ++ segment :: post) pre.length segment edge x)
        videoTimelineResizeGeneration := editor.videoTimelineResizeGeneration + 1
        videoTimelineResizeAnimation := none
        selectedVideoSegment := some id
        selectedZoom := none
        cursorTimeSecs := none } := by
  unfold beginVideoSegmentDrag
  cases hsegs : editor.bundle.videoSegments with
  | none => exact .inl ⟨rfl, by simp [segments, hsegs]⟩
  | some segments =>
    rcases findSegment_cases segments id with hnone | ⟨pre, segment, post, rfl, hid, hpre, hfind⟩
    · refine .inl ⟨by simp only [hnone], ?_⟩
      intro s hs
      rw [BundleEditor.segments, hsegs, Option.getD_some] at hs
      simpa using List.findIdx?_eq_none_iff.mp hnone s hs
    · simp only [hfind, getElem?_middle]
      exact .inr ⟨pre, segment, post, rfl, hid, hpre, rfl⟩

/-- A pointer move only replaces the draft range of the drag in progress. -/
theorem dragVideoSegment_cases (event : MouseMoveEvent) :
    editor.dragVideoSegment event = editor ∨
    ∃ drag deltaSecs, editor.videoSegmentDrag = some drag ∧
      Frame editor (editor.dragVideoSegment event) ∧
      (editor.dragVideoSegment event).bundle = editor.bundle ∧
      (editor.dragVideoSegment event).durationSecs = editor.durationSecs ∧
      (editor.dragVideoSegment event).videoSegmentDrag = some { drag with
        draftSourceStartSecs := (dragDraft drag deltaSecs).1
        draftSourceEndSecs := (dragDraft drag deltaSecs).2 } := by
  unfold dragVideoSegment
  cases hdrag : editor.videoSegmentDrag with
  | none => exact .inl rfl
  | some drag =>
    simp only
    split
    · exact .inl rfl
    split
    · exact .inl rfl
    · refine .inr ⟨drag, (event.positionX - drag.pointerStartX) / editor.timelineBounds.width *
        drag.timelineViewDurationSecs, rfl, ?_⟩
      split <;> exact ⟨⟨rfl, rfl⟩, rfl, rfl, rfl⟩

/-- Releasing the button writes the draft range to the dragged segment, if it is still there. -/
theorem finishVideoSegmentDrag_cases :
    editor.finishVideoSegmentDrag.videoSegmentDrag = none ∧
    (Frame editor editor.finishVideoSegmentDrag ∧
        editor.finishVideoSegmentDrag.bundle = editor.bundle ∧
        editor.finishVideoSegmentDrag.durationSecs = editor.durationSecs ∨
      ∃ drag pre segment post, editor.videoSegmentDrag = some drag ∧
        editor.bundle.videoSegments = some (pre ++ segment :: post) ∧
        segment.id = drag.id ∧ (∀ s ∈ pre, s.id ≠ drag.id) ∧
        Edited editor editor.finishVideoSegmentDrag
          (pre ++ { segment with
            sourceStartSecs := drag.draftSourceStartSecs
            sourceEndSecs := drag.draftSourceEndSecs } :: post)
          (rippleDrag drag)) := by
  unfold finishVideoSegmentDrag
  cases hdrag : editor.videoSegmentDrag with
  | none => exact ⟨hdrag, .inl ⟨⟨rfl, rfl⟩, rfl, rfl⟩⟩
  | some drag =>
    cases hsegs : editor.bundle.videoSegments with
    | none =>
      simp only [hsegs]
      exact ⟨trivial, .inl ⟨⟨rfl, rfl⟩, trivial, trivial⟩⟩
    | some segments =>
      simp only [hsegs]
      rcases findSegment_cases segments drag.id with
        hnone | ⟨pre, segment, post, rfl, hid, hpre, hfind⟩
      · simp only [hnone]
        exact ⟨trivial, .inl ⟨⟨rfl, rfl⟩, trivial, trivial⟩⟩
      · simp only [hfind, getElem?_middle, set_middle]
        refine ⟨(animateVideoTimelineResize_frame ..).2.2.2.2, .inr ⟨drag, pre, segment, post,
          rfl, rfl, hid, hpre, ⟨?_, ?_⟩, ?_, ?_⟩⟩
        · exact (animateVideoTimelineResize_frame ..).2.2.1
        · exact (animateVideoTimelineResize_frame ..).2.2.2.1
        · exact (animateVideoTimelineResize_frame ..).1
        · exact (animateVideoTimelineResize_frame ..).2.1

/-- Deleting drops one segment of a list that keeps at least one. -/
theorem deleteSelectedVideoSegment_cases :
    editor.deleteSelectedVideoSegment = editor ∨
    ∃ id pre segment post, editor.selectedVideoSegment = some id ∧
      editor.bundle.videoSegments = some (pre ++ segment :: post) ∧ pre ++ post ≠ [] ∧
      segment.id = id ∧ (∀ s ∈ pre, s.id ≠ id) ∧
      editor.deleteSelectedVideoSegment.videoSegmentDrag = editor.videoSegmentDrag ∧
      Edited editor editor.deleteSelectedVideoSegment (pre ++ post)
        (rippleDeleteRanges editor.bundle.zoomSegments (totalDuration pre) segment.durationSecs) := by
  unfold deleteSelectedVideoSegment
  cases hsegs : editor.bundle.videoSegments with
  | none => exact .inl rfl
  | some segments =>
    cases hsel : editor.selectedVideoSegment with
    | none => exact .inl rfl
    | some id =>
      simp only
      split
      · exact .inl rfl
      · next hlen =>
        rcases findSegment_cases segments id with hnone | ⟨pre, segment, post, rfl, hid, hpre, hfind⟩
        · simp [hnone]
        · simp only [hfind, getElem?_middle, take_middle, eraseIdx_middle]
          have hne : pre ++ post ≠ [] := by
            intro hnil
            obtain ⟨rfl, rfl⟩ := List.append_eq_nil_iff.mp hnil
            simp at hlen
          exact .inr ⟨id, pre, segment, post, rfl, rfl, hne, hid, hpre, trivial, ⟨⟨rfl, rfl⟩, rfl, rfl⟩⟩

/-- Deleting a zoom leaves the segments alone. -/
theorem deleteSelected_cases :
    editor.deleteSelected = editor ∨
    (∃ id, editor.selectedZoom = some id ∧ editor.deleteSelected = { editor with
      bundle := { editor.bundle with
        zoomSegments := editor.bundle.zoomSegments.filter (fun segment => segment.id != id) }
      selectedZoom := none
      zoomSegmentDrag := none }) ∨
    editor.deleteSelected = editor.deleteSelectedVideoSegment := by
  unfold deleteSelected
  cases hsel : editor.selectedZoom with
  | none => exact .inr (.inr rfl)
  | some id =>
    simp only
    split
    · exact .inl rfl
    · exact .inr (.inl ⟨id, rfl, rfl⟩)

/-- Activating a cut replaces the segments by those of `edit_video_cut`; only a filled gap moves the
zooms. -/
theorem activateVideoCut_cases (rightId : UInt64) :
    editor.activateVideoCut rightId = editor ∨
    ∃ segments edit segments', editor.bundle.videoSegments = some segments ∧
      editVideoCut segments rightId = some (edit, segments') ∧
      (editor.activateVideoCut rightId).videoSegmentDrag = editor.videoSegmentDrag ∧
      Edited editor (editor.activateVideoCut rightId) segments'
        (if 0 < edit.insertedDurationSecs then
          rippleInsertRanges editor.bundle.zoomSegments edit.timelineStartSecs
            edit.insertedDurationSecs
        else editor.bundle.zoomSegments) := by
  unfold activateVideoCut
  cases hsegs : editor.bundle.videoSegments with
  | none => exact .inl rfl
  | some segments =>
    rw [Option.bind_some]
    cases hcut : editVideoCut segments rightId with
    | none => exact .inl rfl
    | some result =>
      obtain ⟨edit, segments'⟩ := result
      refine .inr ⟨segments, edit, segments', rfl, hcut, ?_⟩
      by_cases hanim : 0 < edit.insertedDurationSecs
      · simp only [hanim, decide_true, if_true, true_and]
        exact ⟨(animateVideoTimelineResize_frame ..).2.2.2.2,
          ⟨(animateVideoTimelineResize_frame ..).2.2.1,
            (animateVideoTimelineResize_frame ..).2.2.2.1⟩,
          (animateVideoTimelineResize_frame ..).1, (animateVideoTimelineResize_frame ..).2.1⟩
      · simp only [hanim, decide_false, Bool.false_eq_true, if_false, false_and]
        exact ⟨trivial, ⟨rfl, rfl⟩, rfl, rfl⟩

/-- Expanding an edge moves it to the end of the source, when that lengthens the segment. -/
theorem activateVideoSegmentEdge_cases (id : UInt64) (edge : VideoSegmentEdge) :
    editor.activateVideoSegmentEdge id edge = editor ∨
    ∃ pre segment post, editor.bundle.videoSegments = some (pre ++ segment :: post) ∧
      segment.id = id ∧ (∀ s ∈ pre, s.id ≠ id) ∧
      f64Epsilon < (editor.expandSegmentEdge segment edge (totalDuration pre)).2.2 ∧
      (editor.activateVideoSegmentEdge id edge).videoSegmentDrag = editor.videoSegmentDrag ∧
      Edited editor (editor.activateVideoSegmentEdge id edge)
        (pre ++ (editor.expandSegmentEdge segment edge (totalDuration pre)).1 :: post)
        (rippleInsertRanges editor.bundle.zoomSegments
          (editor.expandSegmentEdge segment edge (totalDuration pre)).2.1
          (editor.expandSegmentEdge segment edge (totalDuration pre)).2.2) := by
  unfold activateVideoSegmentEdge
  cases hsegs : editor.bundle.videoSegments with
  | none => exact .inl rfl
  | some segments =>
    rcases findSegment_cases segments id with hnone | ⟨pre, segment, post, rfl, hid, hpre, hfind⟩
    · simp [hnone]
    · simp only [hfind, getElem?_middle, take_middle, set_middle]
      split
      · exact .inl rfl
      · next hlong =>
        refine .inr ⟨pre, segment, post, rfl, hid, hpre, not_le.mp hlong, ?_⟩
        exact ⟨(animateVideoTimelineResize_frame ..).2.2.2.2,
          ⟨(animateVideoTimelineResize_frame ..).2.2.1,
            (animateVideoTimelineResize_frame ..).2.2.2.1⟩,
          (animateVideoTimelineResize_frame ..).1, (animateVideoTimelineResize_frame ..).2.1⟩

end BundleEditor

end Blip.Capture
