import Blip.Common.System
import Blip.Capture.EditorSteps

/-!
# The segments of an edited timeline stay in order

`timelineSystem` is the editor under the timeline operations of its interface. Every operation but
one keeps the segments sorted, disjoint, positive and inside the source. The exception is the 0.01 s
that `resize_video_segment_range` keeps at any cost: a segment with less room than that between its
limits is pushed past them. `timeline_segmentsWf` says that this, and a wrapped segment identifier,
are the only ways out.
-/

namespace Blip.Capture

open BundleEditor (Edited Unedited nextSegmentId splitList)

/-- What the timeline's segments are to be: in order, disjoint, positive, inside the source. -/
structure SegmentsWf (lo hi : Secs) (segments : List VideoSegment) : Prop where
  sorted : segments.Pairwise (fun a b => a.sourceEndSecs ≤ b.sourceStartSecs)
  positive : ∀ s ∈ segments, s.sourceStartSecs < s.sourceEndSecs
  within : ∀ s ∈ segments, lo ≤ s.sourceStartSecs ∧ s.sourceEndSecs ≤ hi
  distinct : (segments.map VideoSegment.id).Nodup

/-- A segment that can stand between `pre` and `post`. -/
structure SegmentFits (lo hi : Secs) (pre post : List VideoSegment) (x : VideoSegment) : Prop where
  positive : x.sourceStartSecs < x.sourceEndSecs
  low : lo ≤ x.sourceStartSecs
  high : x.sourceEndSecs ≤ hi
  after : ∀ s ∈ pre, s.sourceEndSecs ≤ x.sourceStartSecs
  before : ∀ s ∈ post, x.sourceEndSecs ≤ s.sourceStartSecs
  fresh : ∀ s ∈ pre ++ post, s.id ≠ x.id

/-- Every edit is the exchange of segments in the middle of a list, so one equivalence carries all
the ordering arguments. -/
theorem segmentsWf_middle_iff {lo hi : Secs} {pre post : List VideoSegment} {x : VideoSegment} :
    SegmentsWf lo hi (pre ++ x :: post) ↔
      SegmentsWf lo hi (pre ++ post) ∧ SegmentFits lo hi pre post x := by
  have hmem : ∀ s, s ∈ pre ++ x :: post ↔ s = x ∨ s ∈ pre ++ post := by
    intro s
    simp only [List.mem_append, List.mem_cons]
    tauto
  have hperm : ((pre ++ x :: post).map VideoSegment.id).Perm
      (x.id :: (pre ++ post).map VideoSegment.id) :=
    List.perm_middle.map VideoSegment.id
  constructor
  · intro h
    obtain ⟨hpre, hrest, hcross⟩ := List.pairwise_append.mp h.sorted
    obtain ⟨hx, hpost⟩ := List.pairwise_cons.mp hrest
    obtain ⟨hfresh, hnodup⟩ := List.nodup_cons.mp (hperm.nodup_iff.mp h.distinct)
    have hx' : x ∈ pre ++ x :: post := (hmem x).mpr (.inl rfl)
    refine ⟨⟨?_, ?_, ?_, hnodup⟩, ⟨h.positive x hx', (h.within x hx').1, (h.within x hx').2,
      fun s hs => hcross s hs x (by simp), hx, ?_⟩⟩
    · exact List.pairwise_append.mpr ⟨hpre, hpost, fun a ha b hb => hcross a ha b (by simp [hb])⟩
    · exact fun s hs => h.positive s ((hmem s).mpr (.inr hs))
    · exact fun s hs => h.within s ((hmem s).mpr (.inr hs))
    · exact fun s hs heq => hfresh (heq ▸ List.mem_map_of_mem hs)
  · rintro ⟨h, hfits⟩
    obtain ⟨hpre, hpost, hcross⟩ := List.pairwise_append.mp h.sorted
    refine ⟨?_, ?_, ?_, ?_⟩
    · refine List.pairwise_append.mpr ⟨hpre, List.pairwise_cons.mpr ⟨hfits.before, hpost⟩, ?_⟩
      intro a ha b hb
      rcases List.mem_cons.mp hb with rfl | hb
      · exact hfits.after a ha
      · exact hcross a ha b hb
    · intro s hs
      rcases (hmem s).mp hs with rfl | hs
      · exact hfits.positive
      · exact h.positive s hs
    · intro s hs
      rcases (hmem s).mp hs with rfl | hs
      · exact ⟨hfits.low, hfits.high⟩
      · exact h.within s hs
    · refine hperm.nodup_iff.mpr (List.nodup_cons.mpr ⟨?_, h.distinct⟩)
      intro hmem'
      obtain ⟨s, hs, hid⟩ := List.mem_map.mp hmem'
      exact hfits.fresh s hs hid

section SegmentEdits

variable {lo hi : Secs} {pre post : List VideoSegment}

/-- Exchanging the middle segment. -/
theorem SegmentsWf.replace {x y : VideoSegment} (h : SegmentsWf lo hi (pre ++ x :: post))
    (hy : SegmentFits lo hi pre post y) : SegmentsWf lo hi (pre ++ y :: post) :=
  segmentsWf_middle_iff.mpr ⟨(segmentsWf_middle_iff.mp h).1, hy⟩

/-- The middle segment narrowed or moved within its neighbours, under its own identifier. -/
theorem SegmentsWf.resize {x : VideoSegment} {start stop : Secs}
    (h : SegmentsWf lo hi (pre ++ x :: post)) (hpos : start < stop) (hlo : lo ≤ start)
    (hhi : stop ≤ hi) (hafter : ∀ s ∈ pre, s.sourceEndSecs ≤ start)
    (hbefore : ∀ s ∈ post, stop ≤ s.sourceStartSecs) :
    SegmentsWf lo hi
      (pre ++ { x with sourceStartSecs := start, sourceEndSecs := stop } :: post) :=
  h.replace ⟨hpos, hlo, hhi, hafter, hbefore, (segmentsWf_middle_iff.mp h).2.fresh⟩

/-- A split at a point inside the segment, under an identifier that is not taken. -/
theorem SegmentsWf.split {x : VideoSegment} {offset : Secs}
    (h : SegmentsWf lo hi (pre ++ x :: post)) (hleft : 0 < offset)
    (hright : offset < x.sourceEndSecs - x.sourceStartSecs)
    (hfresh : ∀ s ∈ pre ++ x :: post, s.id ≠ nextSegmentId (pre ++ x :: post)) :
    SegmentsWf lo hi (splitList pre x post offset) := by
  obtain ⟨hrest, hfits⟩ := segmentsWf_middle_iff.mp h
  have hpos := hfits.positive
  have hlow := hfits.low
  -- the left part takes the segment's place; the right part goes between it and what follows
  have hleftWf : SegmentsWf lo hi
      (pre ++ { x with sourceEndSecs := x.sourceStartSecs + offset } :: post) := by
    refine h.resize (by linarith) hfits.low (by linarith [hfits.high]) hfits.after ?_
    intro s hs
    have := hfits.before s hs
    linarith
  have hcut : ∀ l : VideoSegment, pre ++ l :: post = (pre ++ [l]) ++ post := by simp
  rw [hcut] at hleftWf
  unfold splitList
  rw [show ∀ l r : VideoSegment, pre ++ l :: r :: post = (pre ++ [l]) ++ r :: post by simp]
  refine segmentsWf_middle_iff.mpr ⟨hleftWf, ⟨by simp only; linarith, by simp only; linarith,
    hfits.high, ?_, hfits.before, ?_⟩⟩
  · intro s hs
    rcases List.mem_append.mp hs with hs | hs
    · have := hfits.after s hs
      simp only
      linarith
    · rw [List.mem_singleton.mp hs]
  · intro s hs
    simp only [List.mem_append, List.mem_singleton] at hs
    rcases hs with (hs | rfl) | hs
    · exact hfresh s (by simp [hs])
    · exact hfresh x (by simp)
    · exact hfresh s (by simp [hs])

/-- Filling the gap between two neighbours. -/
theorem SegmentsWf.fillGap {left right : VideoSegment}
    (h : SegmentsWf lo hi (pre ++ left :: right :: post)) :
    SegmentsWf lo hi
      (pre ++ { left with sourceEndSecs := right.sourceStartSecs } :: right :: post) := by
  obtain ⟨-, hleft⟩ := segmentsWf_middle_iff.mp h
  have hright : right ∈ pre ++ left :: right :: post := by simp
  have hgap := hleft.before right (by simp)
  have hpos := hleft.positive
  refine h.resize (by linarith) hleft.low ?_ hleft.after ?_
  · have := h.positive right hright
    have := (h.within right hright).2
    linarith
  · intro s hs
    rcases List.mem_cons.mp hs with rfl | hs
    · exact le_refl _
    · have hcross := (List.pairwise_cons.mp
        (List.pairwise_cons.mp (List.pairwise_append.mp h.sorted).2.1).2).1 s hs
      have := h.positive right hright
      linarith

/-- Merging two neighbours. -/
theorem SegmentsWf.merge {left right : VideoSegment}
    (h : SegmentsWf lo hi (pre ++ left :: right :: post)) :
    SegmentsWf lo hi (pre ++ { left with
      sourceEndSecs := max left.sourceEndSecs right.sourceEndSecs } :: post) := by
  obtain ⟨-, hleft⟩ := segmentsWf_middle_iff.mp h
  have hcut : pre ++ left :: right :: post = (pre ++ [left]) ++ right :: post := by simp
  rw [hcut] at h
  obtain ⟨hrest, hright⟩ := segmentsWf_middle_iff.mp h
  have hgap := hright.after left (by simp)
  have hposl := hleft.positive
  have hposr := hright.positive
  rw [List.append_assoc] at hrest
  have hmax : max left.sourceEndSecs right.sourceEndSecs = right.sourceEndSecs :=
    max_eq_right (by linarith)
  rw [hmax]
  exact hrest.resize (by linarith) hleft.low hright.high hleft.after hright.before

/-- Clipping every segment to the source, once the segments left have distinct identifiers. -/
theorem segmentsWf_clip {segments : List VideoSegment}
    (hsorted : segments.Pairwise (fun a b => a.sourceEndSecs ≤ b.sourceStartSecs))
    (hids : ((segments.filterMap (clipSegment lo hi)).map VideoSegment.id).Nodup) :
    SegmentsWf lo hi (segments.filterMap (clipSegment lo hi)) := by
  have hclip : ∀ s s', clipSegment lo hi s = some s' →
      max s.sourceStartSecs lo < min s.sourceEndSecs hi ∧
      s'.sourceStartSecs = max s.sourceStartSecs lo ∧ s'.sourceEndSecs = min s.sourceEndSecs hi := by
    intro s s' hs
    unfold clipSegment at hs
    simp only [Option.ite_none_right_eq_some, Option.some.injEq] at hs
    obtain ⟨hlt, rfl⟩ := hs
    exact ⟨hlt, rfl, rfl⟩
  refine ⟨hsorted.filterMap _ ?_, ?_, ?_, hids⟩
  · intro a b hab a' ha' b' hb'
    rw [(hclip a a' ha').2.2, (hclip b b' hb').2.1]
    exact (min_le_left _ _).trans (hab.trans (le_max_left _ _))
  · intro s' hs'
    obtain ⟨s, -, hs⟩ := List.mem_filterMap.mp hs'
    rw [(hclip s s' hs).2.1, (hclip s s' hs).2.2]
    exact (hclip s s' hs).1
  · intro s' hs'
    obtain ⟨s, -, hs⟩ := List.mem_filterMap.mp hs'
    rw [(hclip s s' hs).2.1, (hclip s s' hs).2.2]
    exact ⟨le_max_right _ _, min_le_right _ _⟩

end SegmentEdits

/-! ## Drags -/

/-- The drag has not moved: its draft is the range it started from. -/
def VideoSegmentDrag.Unmoved (drag : VideoSegmentDrag) : Prop :=
  drag.draftSourceStartSecs = drag.originalSourceStartSecs ∧
    drag.draftSourceEndSecs = drag.originalSourceEndSecs

/-- The dragged edge can come to rest inside its limits with 0.01 s of the segment left. -/
def VideoSegmentDrag.HasRoom (drag : VideoSegmentDrag) : Prop :=
  match drag.edge with
  | .start => drag.minimumSourceStartSecs ≤ drag.originalSourceEndSecs - 1 / 100
  | .end => drag.originalSourceStartSecs + 1 / 100 ≤ drag.maximumSourceEndSecs

instance (drag : VideoSegmentDrag) : Decidable drag.Unmoved :=
  inferInstanceAs (Decidable (_ ∧ _))

instance (drag : VideoSegmentDrag) : Decidable drag.HasRoom :=
  match h : drag.edge with
  | .start => decidable_of_iff (drag.minimumSourceStartSecs ≤ drag.originalSourceEndSecs - 1 / 100)
      (by simp [VideoSegmentDrag.HasRoom, h])
  | .end => decidable_of_iff (drag.originalSourceStartSecs + 1 / 100 ≤ drag.maximumSourceEndSecs)
      (by simp [VideoSegmentDrag.HasRoom, h])

/-- What a drag in progress knows about the segments. Deleting segments under it keeps this: nothing
else comes to lie between its limits. -/
structure DragWf (lo hi : Secs) (segments : List VideoSegment) (drag : VideoSegmentDrag) : Prop where
  low : lo ≤ drag.minimumSourceStartSecs
  high : drag.maximumSourceEndSecs ≤ hi
  ordered : drag.originalSourceStartSecs < drag.originalSourceEndSecs
  minimum_le : drag.minimumSourceStartSecs ≤ drag.originalSourceStartSecs
  le_maximum : drag.originalSourceEndSecs ≤ drag.maximumSourceEndSecs
  others : ∀ s ∈ segments, s.id ≠ drag.id →
    s.sourceEndSecs ≤ drag.minimumSourceStartSecs ∨ drag.maximumSourceEndSecs ≤ s.sourceStartSecs
  same : ∀ s ∈ segments, s.id = drag.id →
    s.sourceStartSecs = drag.originalSourceStartSecs ∧ s.sourceEndSecs = drag.originalSourceEndSecs
  draft : drag.Unmoved ∨ ∃ deltaSecs,
    (drag.draftSourceStartSecs, drag.draftSourceEndSecs) = BundleEditor.dragDraft drag deltaSecs

/-- With room, the draft range is positive and stays within the limits. -/
theorem DragWf.draft_within {lo hi : Secs} {segments : List VideoSegment} {drag : VideoSegmentDrag}
    (h : DragWf lo hi segments drag) (hroom : drag.Unmoved ∨ drag.HasRoom) :
    drag.draftSourceStartSecs < drag.draftSourceEndSecs ∧
      drag.minimumSourceStartSecs ≤ drag.draftSourceStartSecs ∧
      drag.draftSourceEndSecs ≤ drag.maximumSourceEndSecs := by
  have hordered := h.ordered
  have hmin := h.minimum_le
  have hmax := h.le_maximum
  have hunmoved : drag.Unmoved → drag.draftSourceStartSecs < drag.draftSourceEndSecs ∧
      drag.minimumSourceStartSecs ≤ drag.draftSourceStartSecs ∧
      drag.draftSourceEndSecs ≤ drag.maximumSourceEndSecs := by
    rintro ⟨hstart, hend⟩
    rw [hstart, hend]
    exact ⟨hordered, hmin, hmax⟩
  rcases hroom with hstill | hroom
  · exact hunmoved hstill
  rcases h.draft with hstill | ⟨deltaSecs, hdraft⟩
  · exact hunmoved hstill
  unfold BundleEditor.dragDraft resizeVideoSegmentRange at hdraft
  unfold VideoSegmentDrag.HasRoom at hroom
  cases hedge : drag.edge with
  | start =>
    simp only [hedge, Prod.mk.injEq] at hdraft hroom
    obtain ⟨hstart, hend⟩ := hdraft
    refine ⟨?_, ?_, by rw [hend]; exact hmax⟩
    · rw [hstart, hend]
      exact (min_le_right _ _).trans_lt (by norm_num)
    · rw [hstart]
      exact le_min (le_max_right _ _) hroom
  | «end» =>
    simp only [hedge, Prod.mk.injEq] at hdraft hroom
    obtain ⟨hstart, hend⟩ := hdraft
    refine ⟨?_, by rw [hstart]; exact hmin, ?_⟩
    · rw [hstart, hend]
      exact lt_max_of_lt_right (by norm_num)
    · rw [hend]
      exact max_le (min_le_right _ _) hroom

/-- A drag stays good when segments disappear. -/
theorem DragWf.mono {lo hi : Secs} {segments segments' : List VideoSegment}
    {drag : VideoSegmentDrag} (h : DragWf lo hi segments drag) (hsub : segments' ⊆ segments) :
    DragWf lo hi segments' drag :=
  { h with
    others := fun s hs => h.others s (hsub hs)
    same := fun s hs => h.same s (hsub hs) }

/-- Releasing the button with room keeps the segments in order: whatever is still before the dragged
segment ends before its lower limit, and whatever is after it starts after its upper limit. -/
theorem DragWf.finish {lo hi : Secs} {pre post : List VideoSegment} {segment : VideoSegment}
    {drag : VideoSegmentDrag} (hdrag : DragWf lo hi (pre ++ segment :: post) drag)
    (hsegs : SegmentsWf lo hi (pre ++ segment :: post)) (hid : segment.id = drag.id)
    (hroom : drag.Unmoved ∨ drag.HasRoom) :
    SegmentsWf lo hi (pre ++ { segment with
      sourceStartSecs := drag.draftSourceStartSecs
      sourceEndSecs := drag.draftSourceEndSecs } :: post) := by
  obtain ⟨hrest, hfits⟩ := segmentsWf_middle_iff.mp hsegs
  obtain ⟨hpos, hmin, hmax⟩ := hdrag.draft_within hroom
  obtain ⟨hstart, hend⟩ := hdrag.same segment (by simp) hid
  have hlow := hdrag.low
  have hhigh := hdrag.high
  have hordered := hdrag.ordered
  have hmin' := hdrag.minimum_le
  have hmax' := hdrag.le_maximum
  refine hsegs.resize hpos (by linarith) (by linarith) ?_ ?_
  · intro s hs
    have hne : s.id ≠ drag.id := hid ▸ hfits.fresh s (by simp [hs])
    have hafter := hfits.after s hs
    have hpos' := hrest.positive s (by simp [hs])
    rcases hdrag.others s (by simp [hs]) hne with h | h <;> linarith
  · intro s hs
    have hne : s.id ≠ drag.id := hid ▸ hfits.fresh s (by simp [hs])
    have hbefore := hfits.before s hs
    have hpos' := hrest.positive s (by simp [hs])
    rcases hdrag.others s (by simp [hs]) hne with h | h <;> linarith

/-- A drag starts with the neighbours' edges as its limits. -/
theorem dragWf_new {lo hi : Secs} {pre post : List VideoSegment} {segment : VideoSegment}
    {editor : BundleEditor} (hlo : editor.sourceStartSecs = lo) (hhi : editor.sourceEndSecs = hi)
    (h : SegmentsWf lo hi (pre ++ segment :: post)) (edge : VideoSegmentEdge) (x : ℚ) :
    DragWf lo hi (pre ++ segment :: post)
      (editor.newVideoSegmentDrag (pre ++ segment :: post) pre.length segment edge x) := by
  obtain ⟨hrest, hfits⟩ := segmentsWf_middle_iff.mp h
  have hcross := List.pairwise_append.mp hrest.sorted
  -- the limits, and what lies beyond each of them
  have hmin : ∃ m, (editor.newVideoSegmentDrag (pre ++ segment :: post) pre.length segment edge
      x).minimumSourceStartSecs = m ∧ lo ≤ m ∧ m ≤ segment.sourceStartSecs ∧
      ∀ s ∈ pre, s.sourceEndSecs ≤ m := by
    rcases List.eq_nil_or_concat pre with rfl | ⟨front, last, rfl⟩
    · exact ⟨lo, by simp [BundleEditor.newVideoSegmentDrag, hlo], le_refl _, hfits.low, by simp⟩
    · refine ⟨last.sourceEndSecs, by simp [BundleEditor.newVideoSegmentDrag], ?_,
        hfits.after last (by simp), ?_⟩
      · have hlast : last ∈ front.concat last ++ post := by simp
        have := hrest.positive last hlast
        have := (hrest.within last hlast).1
        linarith
      · intro s hs
        rw [List.concat_eq_append] at hs hcross hrest
        rcases List.mem_append.mp hs with hs | hs
        · have := (List.pairwise_append.mp hcross.1).2.2 s hs last (by simp)
          have := hrest.positive last (by simp)
          linarith
        · rw [List.mem_singleton.mp hs]
  have hmax : ∃ m, (editor.newVideoSegmentDrag (pre ++ segment :: post) pre.length segment edge
      x).maximumSourceEndSecs = m ∧ m ≤ hi ∧ segment.sourceEndSecs ≤ m ∧
      ∀ s ∈ post, m ≤ s.sourceStartSecs := by
    cases post with
    | nil => exact ⟨hi, by simp [BundleEditor.newVideoSegmentDrag, hhi], le_refl _, hfits.high,
        by simp⟩
    | cons next rest =>
      refine ⟨next.sourceStartSecs, by simp [BundleEditor.newVideoSegmentDrag], ?_,
        hfits.before next (by simp), ?_⟩
      · have := hrest.positive next (by simp)
        have := (hrest.within next (by simp)).2
        linarith
      · intro s hs
        rcases List.mem_cons.mp hs with rfl | hs
        · exact le_refl _
        · have := (List.pairwise_cons.mp hcross.2.1).1 s hs
          have := hrest.positive next (by simp)
          linarith
  obtain ⟨low, hlow, hlow₁, hlow₂, hlow₃⟩ := hmin
  obtain ⟨high, hhigh, hhigh₁, hhigh₂, hhigh₃⟩ := hmax
  refine ⟨by rw [hlow]; exact hlow₁, by rw [hhigh]; exact hhigh₁, hfits.positive,
    by rw [hlow]; exact hlow₂, by rw [hhigh]; exact hhigh₂, ?_, ?_, .inl ⟨rfl, rfl⟩⟩
  · intro s hs hne
    rw [hlow, hhigh]
    rcases List.mem_append.mp hs with hs | hs
    · exact .inl (hlow₃ s hs)
    · rcases List.mem_cons.mp hs with rfl | hs
      · exact absurd rfl hne
      · exact .inr (hhigh₃ s hs)
  · intro s hs heq
    rcases List.mem_append.mp hs with hs | hs
    · exact absurd heq (hfits.fresh s (by simp [hs]))
    · rcases List.mem_cons.mp hs with rfl | hs
      · exact ⟨rfl, rfl⟩
      · exact absurd heq (hfits.fresh s (by simp [hs]))

/-! ## The timeline under its interface -/

/-- The timeline operations of the interface. -/
inductive TimelineOp
  /-- The timeline is laid out in the window. -/
  | layout (bounds : TimelineBounds)
  | toggleCutMode
  /-- A press on a segment: a split in cut mode, a selection otherwise. -/
  | press (id : UInt64) (timelineTimeSecs : Secs)
  | beginDrag (id : UInt64) (edge : VideoSegmentEdge) (positionX : ℚ)
  | moveDrag (event : MouseMoveEvent)
  | finishDrag
  | deleteSelected
  | activateCut (rightId : UInt64)
  | expandEdge (id : UInt64) (edge : VideoSegmentEdge)
deriving DecidableEq, Repr

/-- The method an operation calls. -/
def BundleEditor.perform (editor : BundleEditor) : TimelineOp → BundleEditor
  | .layout bounds => { editor with timelineBounds := bounds }
  | .toggleCutMode => editor.toggleCutMode
  | .press id timelineTimeSecs => editor.activateVideoSegment id timelineTimeSecs
  | .beginDrag id edge positionX => editor.beginVideoSegmentDrag id edge positionX
  | .moveDrag event => editor.dragVideoSegment event
  | .finishDrag => editor.finishVideoSegmentDrag
  | .deleteSelected => editor.deleteSelected
  | .activateCut rightId => editor.activateVideoCut rightId
  | .expandEdge id edge => editor.activateVideoSegmentEdge id edge

/-- When the interface can call an operation. Presses and clicks need the button, which a drag holds
down until its release ends the drag; outer edges are offered on the first and last segment. -/
def BundleEditor.enabled (editor : BundleEditor) : TimelineOp → Bool
  | .press _ _ | .activateCut _ => editor.videoSegmentDrag.isNone
  | .expandEdge id .start =>
    editor.videoSegmentDrag.isNone && editor.segments.head?.any (fun s => s.id == id)
  | .expandEdge id .end =>
    editor.videoSegmentDrag.isNone && editor.segments.getLast?.any (fun s => s.id == id)
  | _ => true

/-- A stored timeline the editor may be asked to open: sorted, disjoint, of positive durations. -/
structure StoredWf (segments : List VideoSegment) : Prop where
  sorted : segments.Pairwise (fun a b => a.sourceEndSecs ≤ b.sourceStartSecs)
  positive : ∀ s ∈ segments, s.sourceStartSecs < s.sourceEndSecs

/-- The editor from the opening of a stored bundle on. -/
def timelineSystem : System BundleEditor TimelineOp where
  init editor := ∃ bundle sourceRanges reduceMotion,
    StoredWf (bundle.videoSegments.getD []) ∧
      editor = BundleEditor.openBundle bundle sourceRanges reduceMotion
  step editor op editor' := editor.enabled op = true ∧ editor' = editor.perform op

/-- The steps that keep the timeline in order: a release of a drag that had room for where it was
moved, and a split whose new identifier is not taken. -/
def TimelineStepOk (editor : BundleEditor) : TimelineOp → Prop
  | .press id timelineTimeSecs =>
    editor.cutMode = true →
      (∃ pre segment post, editor.segments = pre ++ segment :: post ∧ segment.id = id ∧
        canSplitVideoSegment segment.durationSecs (timelineTimeSecs - totalDuration pre) = true) →
      ∀ s ∈ editor.segments, s.id ≠ nextSegmentId editor.segments
  | .finishDrag =>
    ∀ drag, editor.videoSegmentDrag = some drag →
      (∃ s ∈ editor.segments, s.id = drag.id) → drag.Unmoved ∨ drag.HasRoom
  | _ => True

/-- Performing operations in order. -/
def BundleEditor.performAll (editor : BundleEditor) (ops : List TimelineOp) : BundleEditor :=
  ops.foldl BundleEditor.perform editor

/-- Whether the interface can call the operations in order. -/
def BundleEditor.enabledAll (editor : BundleEditor) : List TimelineOp → Bool
  | [] => true
  | op :: ops => editor.enabled op && (editor.perform op).enabledAll ops

/-- Operations the interface can call in order are a run. -/
theorem run_performAll {editor : BundleEditor} {ops : List TimelineOp}
    (h : editor.enabledAll ops = true) : timelineSystem.Run editor ops (editor.performAll ops) := by
  induction ops generalizing editor with
  | nil => exact .nil editor
  | cons op ops ih =>
    rw [BundleEditor.enabledAll, Bool.and_eq_true] at h
    exact .cons ⟨h.1, rfl⟩ (ih h.2)

/-- What holds of the editor between timeline operations. -/
structure TimelineInv (lo hi : Secs) (editor : BundleEditor) : Prop where
  sourceStartSecs : editor.sourceStartSecs = lo
  sourceEndSecs : editor.sourceEndSecs = hi
  segments : SegmentsWf lo hi editor.segments
  drag : ∀ drag, editor.videoSegmentDrag = some drag → DragWf lo hi editor.segments drag

section Steps

variable {lo hi : Secs} {editor editor' : BundleEditor}

theorem TimelineInv.of_unedited (h : TimelineInv lo hi editor) (hstep : Unedited editor editor') :
    TimelineInv lo hi editor' := by
  have hsegs : editor'.segments = editor.segments := by
    unfold BundleEditor.segments
    rw [hstep.bundle]
  refine ⟨hstep.sourceStartSecs.trans h.sourceStartSecs,
    hstep.sourceEndSecs.trans h.sourceEndSecs, hsegs ▸ h.segments, ?_⟩
  intro drag hdrag
  rw [hstep.videoSegmentDrag] at hdrag
  exact hsegs ▸ h.drag drag hdrag

theorem TimelineInv.of_edited {segments : List VideoSegment} {zooms : List ZoomSegment}
    (h : TimelineInv lo hi editor) (hstep : Edited editor editor' segments zooms)
    (hsegs : SegmentsWf lo hi segments)
    (hdrag : ∀ drag, editor'.videoSegmentDrag = some drag → DragWf lo hi segments drag) :
    TimelineInv lo hi editor' := by
  have hsegs' : editor'.segments = segments := by
    unfold BundleEditor.segments
    rw [hstep.bundle]
    rfl
  exact ⟨hstep.sourceStartSecs.trans h.sourceStartSecs,
    hstep.sourceEndSecs.trans h.sourceEndSecs, hsegs' ▸ hsegs, hsegs' ▸ hdrag⟩

theorem segments_of_some {segments : List VideoSegment}
    (h : editor.bundle.videoSegments = some segments) : editor.segments = segments := by
  unfold BundleEditor.segments
  rw [h]
  rfl

/-- The segments an editor opens with. -/
theorem timelineInv_open {bundle : BlipBundle} {sourceRanges : List (Secs × Secs)}
    {reduceMotion : Bool} {lo hi : Secs}
    (hrange : (sharedSourceRange sourceRanges).getD (0, 0) = (lo, hi))
    (hstored : StoredWf (bundle.videoSegments.getD []))
    (hids : (((bundle.videoSegments.getD []).filterMap (clipSegment lo hi)).map
      VideoSegment.id).Nodup) :
    TimelineInv lo hi (BundleEditor.openBundle bundle sourceRanges reduceMotion) := by
  refine ⟨by simp [BundleEditor.openBundle, hrange], by simp [BundleEditor.openBundle, hrange], ?_,
    fun drag hdrag => by simp [BundleEditor.openBundle] at hdrag⟩
  simp only [BundleEditor.segments, BundleEditor.openBundle, hrange, BundleEditor.openTimeline]
  cases hsegs : bundle.videoSegments with
  | none =>
    by_cases hlt : lo < hi
    · simp only [hlt, if_true, Option.getD_some]
      exact ⟨by simp, by simpa using hlt, by simp, by simp⟩
    · simp only [hlt, if_false, Option.getD_some]
      exact ⟨by simp, by simp, by simp, by simp⟩
  | some segments =>
    rw [hsegs, Option.getD_some] at hstored hids
    simp only [clampVideoTimelineToSourceRange, hsegs, Option.getD_some]
    exact segmentsWf_clip hstored.sorted hids

/-- A press: a split needs a fresh identifier, a selection needs nothing. -/
theorem TimelineInv.press (h : TimelineInv lo hi editor) {id : UInt64} {t : Secs}
    (hnone : editor.videoSegmentDrag = none) (hok : TimelineStepOk editor (.press id t)) :
    TimelineInv lo hi (editor.activateVideoSegment id t) := by
  unfold BundleEditor.activateVideoSegment
  by_cases hcut : editor.cutMode = true
  · rw [if_pos hcut]
    rcases BundleEditor.splitVideoSegment_cases editor id t with
      heq | ⟨pre, segment, post, hsegs, hid, hcan, heq⟩
    · rwa [heq]
    have hlist := segments_of_some hsegs
    have hfresh := hok hcut ⟨pre, segment, post, hlist, hid, hcan⟩
    have hwf := h.segments
    rw [hlist] at hfresh hwf
    obtain ⟨hleft, hright⟩ := canSplitVideoSegment_iff.mp hcan
    have hpos := (segmentsWf_middle_iff.mp hwf).2.positive
    rw [VideoSegment.durationSecs_eq hpos.le] at hright
    rw [heq]
    refine ⟨h.sourceStartSecs, h.sourceEndSecs,
      hwf.split (by linarith) (by linarith) hfresh, ?_⟩
    intro drag hdrag
    rw [show editor.videoSegmentDrag = some drag from hdrag] at hnone
    cases hnone
  · rw [if_neg hcut]
    have hselect := h.of_unedited (BundleEditor.selectVideoSegment_unedited editor id)
    exact hselect.of_unedited ⟨⟨rfl, rfl⟩, rfl, rfl, rfl⟩

theorem TimelineInv.beginDrag (h : TimelineInv lo hi editor) (id : UInt64)
    (edge : VideoSegmentEdge) (x : ℚ) :
    TimelineInv lo hi (editor.beginVideoSegmentDrag id edge x) := by
  rcases BundleEditor.beginVideoSegmentDrag_cases editor id edge x with
    ⟨heq, -⟩ | ⟨pre, segment, post, hsegs, -, -, heq⟩
  · rwa [heq]
  have hlist := segments_of_some hsegs
  have hwf := h.segments
  rw [hlist] at hwf
  rw [heq]
  refine ⟨h.sourceStartSecs, h.sourceEndSecs, h.segments, ?_⟩
  intro drag hdrag
  cases hdrag
  exact hlist ▸ dragWf_new h.sourceStartSecs h.sourceEndSecs hwf edge x

theorem TimelineInv.moveDrag (h : TimelineInv lo hi editor) (event : MouseMoveEvent) :
    TimelineInv lo hi (editor.dragVideoSegment event) := by
  rcases BundleEditor.dragVideoSegment_cases editor event with
    heq | ⟨drag, deltaSecs, hdrag, hframe, hbundle, -, hdraft⟩
  · rwa [heq]
  have hsegs : (editor.dragVideoSegment event).segments = editor.segments := by
    unfold BundleEditor.segments
    rw [hbundle]
  refine ⟨hframe.sourceStartSecs.trans h.sourceStartSecs,
    hframe.sourceEndSecs.trans h.sourceEndSecs, hsegs ▸ h.segments, ?_⟩
  intro drag' hdrag'
  rw [hdraft] at hdrag'
  cases hdrag'
  rw [hsegs]
  exact { h.drag drag hdrag with draft := .inr ⟨deltaSecs, rfl⟩ }

theorem TimelineInv.finishDrag (h : TimelineInv lo hi editor)
    (hok : TimelineStepOk editor .finishDrag) : TimelineInv lo hi editor.finishVideoSegmentDrag := by
  obtain ⟨hnone, ⟨hframe, hbundle, -⟩ | ⟨drag, pre, segment, post, hdrag, hsegs, hid, -, hedit⟩⟩ :=
    BundleEditor.finishVideoSegmentDrag_cases editor
  · have hlist : editor.finishVideoSegmentDrag.segments = editor.segments := by
      unfold BundleEditor.segments
      rw [hbundle]
    refine ⟨hframe.sourceStartSecs.trans h.sourceStartSecs,
      hframe.sourceEndSecs.trans h.sourceEndSecs, hlist ▸ h.segments, ?_⟩
    intro drag hdrag
    rw [hnone] at hdrag
    cases hdrag
  · have hlist := segments_of_some hsegs
    have hwf := h.segments
    have hdragWf := h.drag drag hdrag
    have hroom := hok drag hdrag
    rw [hlist] at hwf hdragWf hroom
    refine h.of_edited hedit (hdragWf.finish hwf hid (hroom ⟨segment, by simp, hid⟩)) ?_
    intro drag' hdrag'
    rw [hnone] at hdrag'
    cases hdrag'

theorem TimelineInv.deleteSelected (h : TimelineInv lo hi editor) :
    TimelineInv lo hi editor.deleteSelected := by
  rcases BundleEditor.deleteSelected_cases editor with
    heq | ⟨id, -, heq⟩ | heq <;> rw [heq]
  · exact h
  · exact ⟨h.sourceStartSecs, h.sourceEndSecs, h.segments, h.drag⟩
  rcases BundleEditor.deleteSelectedVideoSegment_cases editor with
    heq | ⟨id, pre, segment, post, -, hsegs, -, -, -, hdrag, hedit⟩
  · rwa [heq]
  have hlist := segments_of_some hsegs
  have hwf := h.segments
  rw [hlist] at hwf
  refine h.of_edited hedit (segmentsWf_middle_iff.mp hwf).1 ?_
  intro drag hdrag'
  rw [hdrag] at hdrag'
  have hdragWf := h.drag drag hdrag'
  rw [hlist] at hdragWf
  exact hdragWf.mono (by intro s; simp only [List.mem_append, List.mem_cons]; tauto)

theorem TimelineInv.activateCut (h : TimelineInv lo hi editor) (rightId : UInt64)
    (hnone : editor.videoSegmentDrag = none) :
    TimelineInv lo hi (editor.activateVideoCut rightId) := by
  rcases BundleEditor.activateVideoCut_cases editor rightId with
    heq | ⟨segments, edit, segments', hsegs, hcut, hdrag, hedit⟩
  · rwa [heq]
  have hwf := h.segments
  rw [segments_of_some hsegs] at hwf
  have hno : ∀ drag, (editor.activateVideoCut rightId).videoSegmentDrag = some drag →
      DragWf lo hi segments' drag := by
    intro drag hsome
    rw [hdrag, hnone] at hsome
    cases hsome
  refine h.of_edited hedit ?_ hno
  obtain ⟨pre, left, right, post, rfl, -, -, -, ⟨-, -, -, rfl⟩ | ⟨-, -, -, rfl⟩⟩ :=
    editVideoCut_cases hcut
  · exact hwf.fillGap
  · exact hwf.merge

theorem TimelineInv.expandEdge (h : TimelineInv lo hi editor) {id : UInt64}
    {edge : VideoSegmentEdge} (hen : editor.enabled (.expandEdge id edge) = true) :
    TimelineInv lo hi (editor.activateVideoSegmentEdge id edge) := by
  rcases BundleEditor.activateVideoSegmentEdge_cases editor id edge with
    heq | ⟨pre, segment, post, hsegs, hid, hpre, -, hdrag, hedit⟩
  · rwa [heq]
  have hlist := segments_of_some hsegs
  have hwf := h.segments
  rw [hlist] at hwf
  have hfits := (segmentsWf_middle_iff.mp hwf).2
  have hpos := hfits.positive
  have hnone : editor.videoSegmentDrag = none := by
    cases edge <;> simp_all [BundleEditor.enabled]
  have hno : ∀ segments' drag,
      (editor.activateVideoSegmentEdge id edge).videoSegmentDrag = some drag →
        DragWf lo hi segments' drag := by
    intro segments' drag hsome
    rw [hdrag, hnone] at hsome
    cases hsome
  refine h.of_edited hedit ?_ (hno _)
  cases edge with
  | start =>
    -- the identifier is the first segment's, so nothing stands before the match
    have hnil : pre = [] := by
      cases pre with
      | nil => rfl
      | cons first rest =>
        exfalso
        simp only [BundleEditor.enabled, hlist, List.cons_append, List.head?_cons,
          Option.any_some, Bool.and_eq_true, beq_iff_eq] at hen
        exact hpre first (by simp) hen.2
    subst hnil
    simp only [BundleEditor.expandSegmentEdge, h.sourceStartSecs]
    refine hwf.resize ?_ (le_refl _) hfits.high (by simp) hfits.before
    linarith [hfits.low]
  | «end» =>
    have hnil : post = [] := by
      rcases List.eq_nil_or_concat post with rfl | ⟨rest, last, rfl⟩
      · rfl
      · exfalso
        have hlast : (pre ++ segment :: rest.concat last).getLast? = some last := by
          rw [show pre ++ segment :: rest.concat last = (pre ++ segment :: rest) ++ [last] by simp]
          exact List.getLast?_concat
        simp only [BundleEditor.enabled, hlist, hlast, Option.any_some, Bool.and_eq_true,
          beq_iff_eq] at hen
        exact hfits.fresh last (by simp) (hen.2.trans hid.symm)
    subst hnil
    simp only [BundleEditor.expandSegmentEdge, h.sourceEndSecs]
    refine hwf.resize ?_ hfits.low (le_refl _) hfits.after (by simp)
    linarith [hfits.high]

/-- Every operation that meets `TimelineStepOk` keeps the timeline in order. -/
theorem TimelineInv.step (h : TimelineInv lo hi editor) {op : TimelineOp}
    (hok : TimelineStepOk editor op) (hstep : timelineSystem.step editor op editor') :
    TimelineInv lo hi editor' := by
  obtain ⟨hen, rfl⟩ := hstep
  cases op with
  | layout bounds => exact h.of_unedited ⟨⟨rfl, rfl⟩, rfl, rfl, rfl⟩
  | toggleCutMode => exact h.of_unedited ⟨⟨rfl, rfl⟩, rfl, rfl, rfl⟩
  | press id t => exact h.press (by simpa [BundleEditor.enabled] using hen) hok
  | beginDrag id edge x => exact h.beginDrag id edge x
  | moveDrag event => exact h.moveDrag event
  | finishDrag => exact h.finishDrag hok
  | deleteSelected => exact h.deleteSelected
  | activateCut rightId => exact h.activateCut rightId (by simpa [BundleEditor.enabled] using hen)
  | expandEdge id edge => exact h.expandEdge hen

end Steps

/-- In every run whose drags have room when they are released and whose splits find a fresh
identifier, the segments stay sorted, disjoint, positive, inside the source and distinct. -/
theorem timeline_segmentsWf {bundle : BlipBundle} {sourceRanges : List (Secs × Secs)}
    {reduceMotion : Bool} {lo hi : Secs} {ops : List TimelineOp} {editor : BundleEditor}
    (hrange : (sharedSourceRange sourceRanges).getD (0, 0) = (lo, hi))
    (hstored : StoredWf (bundle.videoSegments.getD []))
    (hids : (((bundle.videoSegments.getD []).filter fun s =>
      max s.sourceStartSecs lo < min s.sourceEndSecs hi).map VideoSegment.id).Nodup)
    (hrun : (timelineSystem.restrict TimelineStepOk).Run
      (BundleEditor.openBundle bundle sourceRanges reduceMotion) ops editor) :
    editor.sourceStartSecs = lo ∧ editor.sourceEndSecs = hi ∧ SegmentsWf lo hi editor.segments := by
  have hclip : ∀ segments : List VideoSegment,
      (segments.filterMap (clipSegment lo hi)).map VideoSegment.id =
        (segments.filter fun s =>
          max s.sourceStartSecs lo < min s.sourceEndSecs hi).map VideoSegment.id := by
    intro segments
    induction segments with
    | nil => rfl
    | cons s segments ih =>
      by_cases hlt : max s.sourceStartSecs lo < min s.sourceEndSecs hi
      · rw [List.filterMap_cons_some (by simp only [clipSegment, if_pos hlt]; rfl),
          List.filter_cons_of_pos (by simpa using hlt), List.map_cons, List.map_cons, ih]
      · rw [List.filterMap_cons_none (by simp only [clipSegment, if_neg hlt]),
          List.filter_cons_of_neg (by simpa using hlt), ih]
  have hopen : TimelineInv lo hi (BundleEditor.openBundle bundle sourceRanges reduceMotion) :=
    timelineInv_open hrange hstored (hclip _ ▸ hids)
  have hinv : TimelineInv lo hi editor :=
    hrun.invariant (fun _ _ _ h hstep => h.step hstep.1 hstep.2) hopen
  exact ⟨hinv.sourceStartSecs, hinv.sourceEndSecs, hinv.segments⟩

/-- A bundle of two adjoining segments. -/
def twoSegmentBundle : BlipBundle where
  zoomSegments := []
  videoSegments := some [{ id := 1, sourceStartSecs := 0, sourceEndSecs := 5 },
    { id := 2, sourceStartSecs := 5, sourceEndSecs := 10 }]

/-- Cut the first segment at two seconds and shorten the part after the cut. -/
def cutAndTrimOps : List TimelineOp :=
  [.layout { originX := 0, width := 100 }, .toggleCutMode, .press 1 2, .beginDrag 3 .end 60,
    .moveDrag { positionX := 51, dragging := true }, .finishDrag]

theorem timeline_segmentsWf_cutAndTrim :
    SegmentsWf 0 8 ((BundleEditor.openBundle twoSegmentBundle [(0, 8)] true).performAll
      cutAndTrimOps).segments := by
  have hrange : (sharedSourceRange [(0, 8)]).getD (0, 0) = (0, 8) := by decide +kernel
  have hrun : (timelineSystem.restrict TimelineStepOk).Run
      (BundleEditor.openBundle twoSegmentBundle [(0, 8)] true) cutAndTrimOps
      ((BundleEditor.openBundle twoSegmentBundle [(0, 8)] true).performAll cutAndTrimOps) := by
    refine .cons ⟨trivial, rfl, rfl⟩ (.cons ⟨trivial, rfl, rfl⟩ (.cons ⟨fun _ _ => ?_, rfl, rfl⟩
      (.cons ⟨trivial, rfl, rfl⟩ (.cons ⟨trivial, rfl, rfl⟩ (.cons ⟨?_, rfl, rfl⟩ (.nil _))))))
    · decide +kernel
    · show ∀ drag ∈ BundleEditor.videoSegmentDrag _, _
      decide +kernel
  exact (timeline_segmentsWf hrange ⟨by decide +kernel, by decide +kernel⟩ (by decide +kernel)
    hrun).2.2

/-- Drag the start of the second segment by a pixel. -/
def dragSecondStartOps : List TimelineOp :=
  [.layout { originX := 0, width := 100 }, .beginDrag 2 .start 60,
    .moveDrag { positionX := 61, dragging := true }, .finishDrag]

/-- A source that ends 0.005 s into the second segment leaves that segment less than the 0.01 s a
resize keeps, so dragging its start pushes it into the first. -/
theorem timeline_segments_overlap :
    timelineSystem.Run (BundleEditor.openBundle twoSegmentBundle [(0, 1001 / 200)] true)
        dragSecondStartOps
        ((BundleEditor.openBundle twoSegmentBundle [(0, 1001 / 200)] true).performAll
          dragSecondStartOps) ∧
      StoredWf (twoSegmentBundle.videoSegments.getD []) ∧
      ¬ SegmentsWf 0 (1001 / 200)
        ((BundleEditor.openBundle twoSegmentBundle [(0, 1001 / 200)] true).performAll
          dragSecondStartOps).segments := by
  refine ⟨run_performAll (by decide +kernel), ⟨by decide +kernel, by decide +kernel⟩, fun h => ?_⟩
  have hsorted := h.sorted
  revert hsorted
  decide +kernel

end Blip.Capture
