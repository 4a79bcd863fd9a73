import Blip.Common.TimeMap
import Blip.Capture.Segments

/-!
# Segment lists and zoom segments move along time maps

Segment list surgery and the ripples of the zoom segments are separate code. `FollowsEdit` states
what they have to agree on: there is one map from old timeline times to new ones, the content shown
by the segments moves along it, and so do the ends of the zoom segments. This file has the parts of
the argument that are about lists: what each change of a segment list does to the content, what each
ripple does to the zooms, and the clipping of a stored timeline, which is about both.
-/

namespace Blip.Capture

open TimeMap

/-- What a segment puts on the timeline. -/
def VideoSegment.clip (segment : VideoSegment) : Clip Secs :=
  ⟨segment.sourceStartSecs, segment.durationSecs⟩

/-- The clips of a segment list. -/
def clips (segments : List VideoSegment) : List (Clip Secs) := segments.map VideoSegment.clip

/-- Move the zoom segments along an edit. Removals drop the zooms that become too short. -/
def rippleZooms (edit : TimeEdit Secs) (zooms : List ZoomSegment) : List ZoomSegment :=
  match edit with
  | .remove [] => zooms
  | .remove (_ :: _) => (zooms.map (.mapTimes edit.map edit.mapEnd)).filter ZoomSegment.survives
  | .insert _ _ => zooms.map (.mapTimes edit.map edit.mapEnd)

/-- `after` is `before` with its content moved along `edit` and its zooms along `zoomEdit`. -/
structure FollowsEdit (before after : BlipBundle) (edit zoomEdit : TimeEdit Secs) : Prop where
  source : ∀ t, 0 ≤ t → t < videoTimelineDuration before → ¬ edit.Removes t →
    sourceTimeAt after (edit.map t) = sourceTimeAt before t
  duration : videoTimelineDuration after = videoTimelineDuration before + edit.change
  zooms : after.zoomSegments = rippleZooms zoomEdit before.zoomSegments
  /-- Inside a removed range the map collapses to where the range starts. -/
  collapse : ∀ ranges, zoomEdit = .remove ranges → ∀ range ∈ ranges, ∀ t, range.1 ≤ t →
    t ≤ range.1 + range.2 → zoomEdit.map t = zoomEdit.map range.1

/-! ## Segments as clips -/

@[simp] theorem clips_nil : clips [] = [] := rfl

@[simp] theorem clips_cons (segment : VideoSegment) (segments : List VideoSegment) :
    clips (segment :: segments) = segment.clip :: clips segments := rfl

@[simp] theorem clips_append (left right : List VideoSegment) :
    clips (left ++ right) = clips left ++ clips right := by
  simp [clips]

@[simp] theorem total_clips (segments : List VideoSegment) :
    total (clips segments) = totalDuration segments := by
  induction segments with
  | nil => rfl
  | cons segment segments ih => rw [clips_cons, total_cons, ih, totalDuration_cons]; rfl

theorem clips_nonneg (segments : List VideoSegment) : ∀ clip ∈ clips segments, 0 ≤ clip.length := by
  intro clip hclip
  obtain ⟨segment, -, rfl⟩ := List.mem_map.mp hclip
  exact segment.durationSecs_nonneg

/-- `source_time_at` looks up what the clips show. -/
theorem sourceTimeIn_of_shows {segments : List VideoSegment} {t c : Secs}
    (h : Shows (clips segments) t c) : sourceTimeIn segments t = some c := by
  induction segments generalizing t with
  | nil => exact h.elim
  | cons segment rest ih =>
    rw [sourceTimeIn]
    rcases h with ⟨-, hlt, rfl⟩ | ⟨hle, hshow⟩
    · have hlt' : t < segment.durationSecs := hlt
      rw [if_pos (.inl hlt'), min_eq_left hlt'.le]
      rfl
    · have hrest : rest ≠ [] := by
        rintro rfl
        exact hshow
      have hnot : ¬ (t < segment.durationSecs ∨ rest = []) := by
        rintro (hlt | hnil)
        · exact not_lt.mpr hle hlt
        · exact hrest hnil
      rw [if_neg hnot]
      exact ih hshow

theorem sourceTimeAt_of_shows {bundle : BlipBundle} {segments : List VideoSegment} {t c : Secs}
    (hsegs : bundle.videoSegments = some segments) (h : Shows (clips segments) t c) :
    sourceTimeAt bundle t = some c := by
  simp only [sourceTimeAt, hsegs]
  rw [max_eq_left (h.nonneg (clips_nonneg segments))]
  exact sourceTimeIn_of_shows h

/-- A segment list whose content moved along an edit. -/
structure ListFollows (before after : List VideoSegment) (edit : TimeEdit Secs) : Prop where
  shows : ∀ t c, Shows (clips before) t c → ¬ edit.Removes t → Shows (clips after) (edit.map t) c
  total : totalDuration after = totalDuration before + edit.change

/-- The bundle follows an edit when its segment list does and its zooms are rippled. -/
theorem FollowsEdit.of_list {before after : BlipBundle} {segments segments' : List VideoSegment}
    {edit zoomEdit : TimeEdit Secs} (hbefore : before.videoSegments = some segments)
    (hafter : after.videoSegments = some segments') (h : ListFollows segments segments' edit)
    (hzooms : after.zoomSegments = rippleZooms zoomEdit before.zoomSegments)
    (horder : ∀ ranges, zoomEdit = .remove ranges → InOrder ranges) :
    FollowsEdit before after edit zoomEdit := by
  have hduration : videoTimelineDuration before = totalDuration segments := by
    rw [videoTimelineDuration, hbefore, Option.getD_some]
  refine ⟨?_, ?_, hzooms, ?_⟩
  · intro t h0 hlt hkept
    rw [hduration, ← total_clips] at hlt
    obtain ⟨c, hc⟩ := exists_shows h0 hlt
    rw [sourceTimeAt_of_shows hbefore hc, sourceTimeAt_of_shows hafter (h.shows t c hc hkept)]
  · rw [hduration, videoTimelineDuration, hafter, Option.getD_some]
    exact h.total
  · rintro ranges rfl range hrange t hlo hhi
    exact removeAll_eq_of_mem (horder ranges rfl) hrange hlo hhi

/-! ## Edits of a segment list -/

/-- Two segment lists that make up the same timeline. -/
structure SameTimeline (left right : List VideoSegment) : Prop where
  shows : ∀ t c, Shows (clips left) t c ↔ Shows (clips right) t c
  total : totalDuration left = totalDuration right

theorem SameTimeline.symm {left right : List VideoSegment} (h : SameTimeline left right) :
    SameTimeline right left :=
  ⟨fun t c => (h.shows t c).symm, h.total.symm⟩

/-- The same timeline has followed the edit that moves nothing. -/
theorem SameTimeline.listFollows {before after : List VideoSegment}
    (h : SameTimeline before after) : ListFollows before after .keep := by
  refine ⟨?_, by simp [h.total, TimeEdit.change, TimeEdit.keep]⟩
  intro t c hshow _
  rw [TimeEdit.map_keep]
  exact (h.shows t c).mp hshow

/-- Edits are about timelines: either list may be exchanged for one that makes up the same. -/
theorem ListFollows.congr {before before' after after' : List VideoSegment}
    {edit : TimeEdit Secs} (h : ListFollows before after edit) (hbefore : SameTimeline before' before)
    (hafter : SameTimeline after after') : ListFollows before' after' edit := by
  refine ⟨?_, by rw [hbefore.total, ← hafter.total]; exact h.total⟩
  intro t c hshow hkept
  exact (hafter.shows _ c).mp (h.shows t c ((hbefore.shows t c).mp hshow) hkept)

/-- The part of a segment before a source time. -/
def VideoSegment.before (segment : VideoSegment) (cutSecs : Secs) : VideoSegment :=
  { segment with sourceEndSecs := cutSecs }

/-- The part of a segment from a source time on. -/
def VideoSegment.from (segment : VideoSegment) (cutSecs : Secs) : VideoSegment :=
  { segment with sourceStartSecs := cutSecs }

section Edits

variable {pre post : List VideoSegment} {segment : VideoSegment}

private theorem total_singleton : total [segment.clip] = segment.durationSecs := by
  rw [total_cons, total_nil, add_zero]
  rfl

/-- Deleting a segment removes its range. -/
theorem listFollows_delete : ListFollows (pre ++ segment :: post) (pre ++ post)
    (.remove [(totalDuration pre, segment.durationSecs)]) := by
  have hmid : ∀ clip ∈ [segment.clip], 0 ≤ clip.length := clips_nonneg [segment]
  constructor
  · intro t c hshow hkept
    rw [← total_clips, ← total_singleton] at hkept ⊢
    rw [clips_append, clips_cons] at hshow
    rw [clips_append]
    exact shows_remove (clips_nonneg pre) hmid (clips_nonneg post) hshow hkept
  · simp only [TimeEdit.change, totalDuration_append, totalDuration_cons, List.map_cons,
      List.map_nil, List.sum_cons, List.sum_nil]
    ring

/-- Putting a segment in inserts its range. -/
theorem listFollows_insert : ListFollows (pre ++ post) (pre ++ segment :: post)
    (.insert (totalDuration pre) segment.durationSecs) := by
  have hmid : ∀ clip ∈ [segment.clip], 0 ≤ clip.length := clips_nonneg [segment]
  constructor
  · intro t c hshow _
    rw [← total_clips, ← total_singleton]
    rw [clips_append] at hshow
    rw [clips_append, clips_cons]
    exact shows_insert (clips_nonneg pre) hmid (clips_nonneg post) hshow
  · simp only [TimeEdit.change, totalDuration_append, totalDuration_cons]
    ring

/-- A segment and the two parts it is cut into, under whatever identifiers, make up the same
timeline. -/
theorem sameTimeline_cut (segment : VideoSegment) (cutSecs : Secs) {left right : VideoSegment}
    (hlo : segment.sourceStartSecs ≤ cutSecs) (hhi : cutSecs ≤ segment.sourceEndSecs)
    (hleft : left.clip = (segment.before cutSecs).clip)
    (hright : right.clip = (segment.from cutSecs).clip) :
    SameTimeline (pre ++ segment :: post) (pre ++ left :: right :: post) := by
  have hbefore : (segment.before cutSecs).durationSecs = cutSecs - segment.sourceStartSecs :=
    VideoSegment.durationSecs_eq hlo
  have hfrom : (segment.from cutSecs).durationSecs = segment.sourceEndSecs - cutSecs :=
    VideoSegment.durationSecs_eq hhi
  have hsum : segment.durationSecs =
      (cutSecs - segment.sourceStartSecs) + (segment.sourceEndSecs - cutSecs) := by
    rw [VideoSegment.durationSecs_eq (hlo.trans hhi)]
    ring
  have hwhole : segment.clip = ⟨segment.sourceStartSecs,
      (cutSecs - segment.sourceStartSecs) + (segment.sourceEndSecs - cutSecs)⟩ := by
    rw [← hsum]
    rfl
  have hleft' : left.clip = ⟨segment.sourceStartSecs, cutSecs - segment.sourceStartSecs⟩ := by
    rw [hleft, ← hbefore]
    rfl
  have hright' : right.clip = ⟨segment.sourceStartSecs + (cutSecs - segment.sourceStartSecs),
      segment.sourceEndSecs - cutSecs⟩ := by
    rw [hright, ← hfrom, add_sub_cancel]
    rfl
  constructor
  · intro t c
    simp only [clips_append, clips_cons, hwhole, hleft', hright']
    exact shows_cut_middle (by linarith) (by linarith)
  · simp only [totalDuration_append, totalDuration_cons]
    rw [show left.durationSecs = _ from congrArg Clip.length hleft',
      show right.durationSecs = _ from congrArg Clip.length hright', hsum]
    ring

/-- Trimming the start removes the part before the new start. -/
theorem listFollows_trimStart {startSecs : Secs} (hlo : segment.sourceStartSecs ≤ startSecs)
    (hhi : startSecs ≤ segment.sourceEndSecs) :
    ListFollows (pre ++ segment :: post) (pre ++ segment.from startSecs :: post)
      (.remove [(totalDuration pre, startSecs - segment.sourceStartSecs)]) := by
  have hlen : (segment.before startSecs).durationSecs = startSecs - segment.sourceStartSecs :=
    VideoSegment.durationSecs_eq hlo
  rw [← hlen]
  exact listFollows_delete.congr (sameTimeline_cut segment _ hlo hhi rfl rfl) ⟨fun _ _ => Iff.rfl, rfl⟩

/-- Trimming the end removes the part from the new end on. -/
theorem listFollows_trimEnd {endSecs : Secs} (hlo : segment.sourceStartSecs ≤ endSecs)
    (hhi : endSecs ≤ segment.sourceEndSecs) :
    ListFollows (pre ++ segment :: post) (pre ++ segment.before endSecs :: post)
      (.remove [(totalDuration pre + (endSecs - segment.sourceStartSecs),
        segment.sourceEndSecs - endSecs)]) := by
  have hlen : (segment.from endSecs).durationSecs = segment.sourceEndSecs - endSecs :=
    VideoSegment.durationSecs_eq hhi
  have hpre : totalDuration (pre ++ [segment.before endSecs]) =
      totalDuration pre + (endSecs - segment.sourceStartSecs) := by
    have hleft : (segment.before endSecs).durationSecs = endSecs - segment.sourceStartSecs :=
      VideoSegment.durationSecs_eq hlo
    rw [totalDuration_append, totalDuration_cons, totalDuration_nil, add_zero, hleft]
  have hcut : ∀ l, pre ++ segment.before endSecs :: l = (pre ++ [segment.before endSecs]) ++ l := by
    simp
  rw [← hlen, ← hpre, hcut post]
  refine listFollows_delete.congr ?_ ⟨fun _ _ => Iff.rfl, rfl⟩
  rw [← hcut]
  exact sameTimeline_cut segment _ hlo hhi rfl rfl

/-- Extending the start inserts the part before the old start. -/
theorem listFollows_extendStart {startSecs : Secs} (hlo : startSecs ≤ segment.sourceStartSecs)
    (hhi : segment.sourceStartSecs ≤ segment.sourceEndSecs) :
    ListFollows (pre ++ segment :: post) (pre ++ segment.from startSecs :: post)
      (.insert (totalDuration pre) (segment.sourceStartSecs - startSecs)) := by
  have hlen : ((segment.from startSecs).before segment.sourceStartSecs).durationSecs =
      segment.sourceStartSecs - startSecs := VideoSegment.durationSecs_eq hlo
  rw [← hlen]
  refine listFollows_insert.congr ⟨fun _ _ => Iff.rfl, rfl⟩ ?_
  exact (sameTimeline_cut (segment.from startSecs) _ hlo hhi rfl rfl).symm

/-- Extending the end inserts the part from the old end on. -/
theorem listFollows_extendEnd {endSecs : Secs}
    (hlo : segment.sourceStartSecs ≤ segment.sourceEndSecs) (hhi : segment.sourceEndSecs ≤ endSecs) :
    ListFollows (pre ++ segment :: post) (pre ++ segment.before endSecs :: post)
      (.insert (totalDuration pre + segment.durationSecs) (endSecs - segment.sourceEndSecs)) := by
  have hlen : ((segment.before endSecs).from segment.sourceEndSecs).durationSecs =
      endSecs - segment.sourceEndSecs := VideoSegment.durationSecs_eq hhi
  have hpre : totalDuration (pre ++ [segment]) = totalDuration pre + segment.durationSecs := by
    rw [totalDuration_append, totalDuration_cons, totalDuration_nil, add_zero]
  have hcut : ∀ l, pre ++ segment :: l = (pre ++ [segment]) ++ l := by simp
  rw [← hlen, ← hpre, hcut post]
  refine listFollows_insert.congr ⟨fun _ _ => Iff.rfl, rfl⟩ ?_
  rw [← hcut]
  exact (sameTimeline_cut (segment.before endSecs) _ hlo hhi rfl rfl).symm

/-- Merging across a gap inserts the gap. -/
theorem listFollows_merge {left right : VideoSegment}
    (hleft : left.sourceStartSecs ≤ left.sourceEndSecs)
    (hgap : left.sourceEndSecs ≤ right.sourceStartSecs)
    (hright : right.sourceStartSecs ≤ right.sourceEndSecs) :
    ListFollows (pre ++ left :: right :: post) (pre ++ left.before right.sourceEndSecs :: post)
      (.insert (totalDuration (pre ++ [left])) (right.sourceStartSecs - left.sourceEndSecs)) := by
  have hfill : ListFollows (pre ++ left :: right :: post)
      (pre ++ left.before right.sourceStartSecs :: right :: post)
      (.insert (totalDuration pre + left.durationSecs)
        (right.sourceStartSecs - left.sourceEndSecs)) := listFollows_extendEnd hleft hgap
  have hcut : SameTimeline (pre ++ left.before right.sourceEndSecs :: post)
      (pre ++ left.before right.sourceStartSecs :: right :: post) :=
    sameTimeline_cut _ _ (hleft.trans hgap) hright rfl rfl
  have hpre : totalDuration (pre ++ [left]) = totalDuration pre + left.durationSecs := by
    rw [totalDuration_append, totalDuration_cons, totalDuration_nil, add_zero]
  rw [hpre]
  exact hfill.congr ⟨fun _ _ => Iff.rfl, rfl⟩ hcut.symm

end Edits

/-! ## Zoom ripples -/

/-- The map of `ripple_delete_ranges` is the removal of its range. -/
theorem rippleDeleteTime_eq {startSecs durationSecs : Secs} (h : 0 ≤ durationSecs) (t : Secs) :
    rippleDeleteTime startSecs durationSecs t = removeAll [(startSecs, durationSecs)] t := by
  rw [removeAll_cons, removeAll_nil, rippleDeleteTime, removedBefore]
  simp only
  by_cases hlo : t ≤ startSecs
  · rw [if_pos hlo, max_eq_left ((min_le_left _ _).trans (by linarith)), sub_zero]
  · rw [if_neg hlo]
    by_cases hhi : startSecs + durationSecs ≤ t
    · rw [if_pos hhi, min_eq_right (by linarith), max_eq_right h]
    · rw [if_neg hhi, min_eq_left (by linarith), max_eq_right (by linarith)]
      ring

theorem rippleDeleteRanges_eq {startSecs durationSecs : Secs} (h : 0 ≤ durationSecs)
    (zooms : List ZoomSegment) : rippleDeleteRanges zooms startSecs durationSecs =
      rippleZooms (.remove [(startSecs, durationSecs)]) zooms := by
  have hmap : rippleDeleteTime startSecs durationSecs =
      (TimeEdit.remove [(startSecs, durationSecs)]).map := funext (rippleDeleteTime_eq h)
  rw [rippleDeleteRanges, hmap]
  rfl

theorem rippleInsertRanges_eq (startSecs durationSecs : Secs) (zooms : List ZoomSegment) :
    rippleInsertRanges zooms startSecs durationSecs =
      rippleZooms (.insert startSecs durationSecs) zooms := rfl

/-- A zoom that is too short stays too short when more is removed. -/
theorem survives_of_survives_remove (range : Secs × Secs) (zoom : ZoomSegment)
    (h : (zoom.mapTimes (TimeEdit.remove [range]).map (TimeEdit.remove [range]).mapEnd).survives =
      true) : zoom.survives = true := by
  unfold ZoomSegment.survives at h ⊢
  rw [decide_eq_true_iff] at h ⊢
  by_contra hshort
  have hbound : (0 : Secs) ≤ 1 / 100 := by norm_num
  exact absurd h (not_lt.mpr (removeAll_singleton_sub_le range hbound (not_lt.mp hshort)))

/-- Dropping elements between two passes of a map does not change what the second pass keeps, when
the second pass keeps only what the first does. -/
theorem filter_map_filter {α : Type*} {p : α → Bool} {f : α → α}
    (h : ∀ x, p (f x) = true → p x = true) (l : List α) :
    ((l.filter p).map f).filter p = (l.map f).filter p := by
  induction l with
  | nil => rfl
  | cons x l ih =>
    by_cases hx : p x = true
    · rw [List.filter_cons_of_pos hx, List.map_cons, List.map_cons, List.filter_cons,
        List.filter_cons, ih]
    · have hfx : ¬ p (f x) = true := fun hfx => hx (h x hfx)
      rw [List.filter_cons_of_neg hx, List.map_cons, List.filter_cons_of_neg hfx, ih]

/-- Rippling the zooms over one range after another, from right to left, ripples them over the whole
set at once. -/
theorem rippleDeleteAll_reverse {ranges : List (Secs × Secs)} (h : InOrder ranges)
    (zooms : List ZoomSegment) :
    rippleDeleteAll zooms ranges.reverse = rippleZooms (.remove ranges) zooms := by
  rw [rippleDeleteAll, List.foldl_reverse]
  induction ranges with
  | nil => rfl
  | cons range ranges ih =>
    have hrest : InOrder ranges :=
      ⟨fun other hother => h.1 other (by simp [hother]), (List.pairwise_cons.mp h.2).2⟩
    have hrange : 0 ≤ range.2 := h.1 range (by simp)
    rw [List.foldr_cons, ih hrest, rippleDeleteRanges_eq hrange]
    cases ranges with
    | nil => rfl
    | cons next ranges =>
      have hcomp : ∀ t, removeAll [range] (removeAll (next :: ranges) t) =
          removeAll (range :: next :: ranges) t := by
        intro t
        rw [← foldr_removeAll h, ← foldr_removeAll hrest]
        rfl
      simp only [rippleZooms]
      rw [filter_map_filter (survives_of_survives_remove range), List.map_map]
      congr 2
      funext zoom
      simp only [Function.comp, ZoomSegment.mapTimes, TimeEdit.map, TimeEdit.mapEnd, hcomp]

/-! ## Opening a stored timeline -/

section Clamp

variable (lo hi : Secs)

/-- What clipping keeps and removes of one segment. -/
def clipPieces (segment : VideoSegment) : List (Piece Secs) :=
  let clippedStartSecs := max segment.sourceStartSecs lo
  let clippedEndSecs := min segment.sourceEndSecs hi
  if clippedStartSecs < clippedEndSecs then
    (if segment.sourceStartSecs < clippedStartSecs then
      [⟨⟨segment.sourceStartSecs, clippedStartSecs - segment.sourceStartSecs⟩, false⟩] else []) ++
    (⟨⟨clippedStartSecs, clippedEndSecs - clippedStartSecs⟩, true⟩ ::
      if clippedEndSecs < segment.sourceEndSecs then
        [⟨⟨clippedEndSecs, segment.sourceEndSecs - clippedEndSecs⟩, false⟩] else [])
  else if 0 < segment.durationSecs then [⟨segment.clip, false⟩]
  else []

variable {lo hi}

theorem clipPieces_nonneg (segment : VideoSegment) :
    ∀ piece ∈ clipPieces lo hi segment, 0 ≤ piece.clip.length := by
  intro piece hpiece
  unfold clipPieces at hpiece
  simp only at hpiece
  split at hpiece
  · next hclip =>
    simp only [List.mem_append, List.mem_cons, List.mem_ite_nil_right, List.not_mem_nil,
      or_false] at hpiece
    rcases hpiece with ⟨hlt, rfl⟩ | rfl | ⟨hlt, rfl⟩ <;> simp only <;> linarith
  · split at hpiece
    · rw [List.mem_singleton.mp hpiece]
      exact segment.durationSecs_nonneg
    · simp at hpiece

/-- A piece may be left out when it has no length. -/
private theorem shows_optionalPiece {p : Prop} [Decidable p] {start length : Secs}
    (h : ¬ p → length = 0) {rest : List (Clip Secs)} (hrest : ∀ clip ∈ rest, 0 ≤ clip.length)
    {t c : Secs} : Shows (⟨start, length⟩ :: rest) t c ↔
      Shows (clipsOf (if p then [⟨⟨start, length⟩, false⟩] else []) ++ rest) t c := by
  by_cases hp : p
  · rw [if_pos hp]
    rfl
  · rw [if_neg hp, h hp]
    exact shows_empty hrest

/-- The pieces of a segment make up the segment. -/
theorem shows_clipPieces (segment : VideoSegment) {rest : List (Clip Secs)}
    (hrest : ∀ clip ∈ rest, 0 ≤ clip.length) (t c : Secs) :
    Shows (segment.clip :: rest) t c ↔ Shows (clipsOf (clipPieces lo hi segment) ++ rest) t c := by
  unfold clipPieces
  simp only
  by_cases hclip : max segment.sourceStartSecs lo < min segment.sourceEndSecs hi
  · rw [if_pos hclip]
    have hstart := le_max_left segment.sourceStartSecs lo
    have hend := min_le_left segment.sourceEndSecs hi
    generalize max segment.sourceStartSecs lo = cs at *
    generalize min segment.sourceEndSecs hi = ce at *
    have hwhole : segment.clip = ⟨segment.sourceStartSecs,
        (cs - segment.sourceStartSecs) + ((ce - cs) + (segment.sourceEndSecs - ce))⟩ := by
      simp only [VideoSegment.clip,
        VideoSegment.durationSecs_eq (hstart.trans (hclip.le.trans hend))]
      congr 1
      ring
    have hrightNonneg : ∀ clip ∈ clipsOf (if ce < segment.sourceEndSecs then
        [(⟨⟨ce, segment.sourceEndSecs - ce⟩, false⟩ : Piece Secs)] else []) ++ rest,
        0 ≤ clip.length := by
      intro clip hmem
      rcases List.mem_append.mp hmem with hmem | hmem
      · obtain ⟨piece, hpiece, rfl⟩ := List.mem_map.mp hmem
        rw [List.mem_ite_nil_right, List.mem_singleton] at hpiece
        rw [hpiece.2]
        simp only
        linarith
      · exact hrest clip hmem
    have hmidNonneg : ∀ clip ∈ (⟨cs, ce - cs⟩ : Clip Secs) :: (clipsOf
        (if ce < segment.sourceEndSecs then [(⟨⟨ce, segment.sourceEndSecs - ce⟩, false⟩ : Piece Secs)]
          else []) ++ rest), 0 ≤ clip.length := by
      intro clip hmem
      rcases List.mem_cons.mp hmem with rfl | hmem
      · simp only
        linarith
      · exact hrightNonneg clip hmem
    -- cut at both clipped ends, then leave out the outer parts that are empty
    calc Shows (segment.clip :: rest) t c
        ↔ Shows (⟨segment.sourceStartSecs, cs - segment.sourceStartSecs⟩ ::
            ⟨cs, (ce - cs) + (segment.sourceEndSecs - ce)⟩ :: rest) t c := by
          rw [hwhole, shows_cut (by linarith) (by linarith), add_sub_cancel]
      _ ↔ Shows (⟨segment.sourceStartSecs, cs - segment.sourceStartSecs⟩ :: ⟨cs, ce - cs⟩ ::
            ⟨ce, segment.sourceEndSecs - ce⟩ :: rest) t c := by
          refine shows_cons_congr _ (fun u => ?_) t
          rw [shows_cut (by linarith) (by linarith), add_sub_cancel]
      _ ↔ Shows (⟨segment.sourceStartSecs, cs - segment.sourceStartSecs⟩ :: ⟨cs, ce - cs⟩ ::
            (clipsOf (if ce < segment.sourceEndSecs then
              [⟨⟨ce, segment.sourceEndSecs - ce⟩, false⟩] else []) ++ rest)) t c := by
          refine shows_cons_congr _ (fun u => shows_cons_congr _ (fun v => ?_) u) t
          exact shows_optionalPiece
            (fun hnot => by linarith [le_antisymm hend (not_lt.mp hnot)]) hrest
      _ ↔ _ := by
          rw [shows_optionalPiece (p := segment.sourceStartSecs < cs)
            (fun hnot => by linarith [le_antisymm hstart (not_lt.mp hnot)]) hmidNonneg]
          simp only [clipsOf, List.map_append, List.map_cons, List.append_assoc, List.cons_append]
  · rw [if_neg hclip]
    exact shows_optionalPiece (fun hnot => le_antisymm (not_lt.mp hnot) segment.durationSecs_nonneg)
      hrest

theorem total_clipPieces (segment : VideoSegment) :
    total (clipsOf (clipPieces lo hi segment)) = segment.durationSecs := by
  unfold clipPieces
  simp only
  by_cases hclip : max segment.sourceStartSecs lo < min segment.sourceEndSecs hi
  · rw [if_pos hclip]
    have hstart := le_max_left segment.sourceStartSecs lo
    have hend := min_le_left segment.sourceEndSecs hi
    rw [VideoSegment.durationSecs_eq (hstart.trans (hclip.le.trans hend))]
    generalize max segment.sourceStartSecs lo = cs at *
    generalize min segment.sourceEndSecs hi = ce at *
    simp only [clipsOf, List.map_append, List.map_cons, total_append, total_cons]
    split_ifs <;> simp only [List.map_cons, List.map_nil, total_cons, total_nil] <;> linarith
  · rw [if_neg hclip]
    by_cases hpos : 0 < segment.durationSecs
    · rw [if_pos hpos]
      exact (total_clips [segment]).trans (by simp)
    · rw [if_neg hpos]
      exact (le_antisymm (not_lt.mp hpos) segment.durationSecs_nonneg).symm

/-- The ranges the removed pieces take up are the deletions the clamp collects. -/
theorem removedRanges_clipPieces (segment : VideoSegment) (startSecs : Secs) :
    removedRanges startSecs (clipPieces lo hi segment) = clipDeletions lo hi startSecs segment := by
  unfold clipPieces clipDeletions
  simp only
  by_cases hclip : max segment.sourceStartSecs lo < min segment.sourceEndSecs hi
  · rw [if_pos hclip, if_pos hclip]
    have hstart := le_max_left segment.sourceStartSecs lo
    generalize max segment.sourceStartSecs lo = cs at *
    generalize min segment.sourceEndSecs hi = ce at *
    have hat : startSecs + (cs - segment.sourceStartSecs) + (ce - cs) =
        startSecs + ce - segment.sourceStartSecs := by ring
    by_cases hleft : segment.sourceStartSecs < cs
    · rw [if_pos hleft, if_pos hleft]
      by_cases hright : ce < segment.sourceEndSecs
      · simp [removedRanges, hright, hat]
      · simp [removedRanges, hright]
    · have hcs : cs = segment.sourceStartSecs := le_antisymm (not_lt.mp hleft) hstart
      subst hcs
      have hat' : startSecs + (ce - segment.sourceStartSecs) =
          startSecs + ce - segment.sourceStartSecs := by ring
      by_cases hright : ce < segment.sourceEndSecs
      · simp [removedRanges, hright, hat']
      · simp [removedRanges, hright]
  · rw [if_neg hclip, if_neg hclip]
    split_ifs <;> simp [removedRanges, VideoSegment.clip]

/-- The kept pieces are what is left of the segment. -/
theorem keptClips_clipPieces (segment : VideoSegment) :
    keptClips (clipPieces lo hi segment) = clips (clipSegment lo hi segment).toList := by
  unfold clipPieces clipSegment
  simp only
  by_cases hclip : max segment.sourceStartSecs lo < min segment.sourceEndSecs hi
  · rw [if_pos hclip, if_pos hclip]
    simp only [Option.toList_some, clips_cons, clips_nil]
    have hlen : ({ segment with
        sourceStartSecs := max segment.sourceStartSecs lo
        sourceEndSecs := min segment.sourceEndSecs hi } : VideoSegment).clip =
        ⟨max segment.sourceStartSecs lo,
          min segment.sourceEndSecs hi - max segment.sourceStartSecs lo⟩ := by
      simp only [VideoSegment.clip]
      congr 1
      exact VideoSegment.durationSecs_eq hclip.le
    rw [hlen]
    split_ifs <;> simp [keptClips, clipsOf]
  · rw [if_neg hclip, if_neg hclip]
    split_ifs <;> simp [keptClips, clipsOf]

theorem clampDeletions_eq (segments : List VideoSegment) (startSecs : Secs) :
    removedRanges startSecs (segments.flatMap (clipPieces lo hi)) =
      clampDeletions lo hi startSecs segments := by
  induction segments generalizing startSecs with
  | nil => rfl
  | cons segment segments ih =>
    rw [List.flatMap_cons, removedRanges_append, removedRanges_clipPieces, total_clipPieces, ih]
    rfl

theorem keptClips_flatMap (segments : List VideoSegment) :
    keptClips (segments.flatMap (clipPieces lo hi)) =
      clips (segments.filterMap (clipSegment lo hi)) := by
  induction segments with
  | nil => rfl
  | cons segment segments ih =>
    have hfront : segment :: segments = [segment] ++ segments := rfl
    rw [List.flatMap_cons, keptClips, List.filter_append, clipsOf_append, ← keptClips,
      ← keptClips, ih, keptClips_clipPieces, hfront, List.filterMap_append, clips_append]
    congr 2

theorem shows_flatMap (segments : List VideoSegment) (t c : Secs) :
    Shows (clips segments) t c ↔ Shows (clipsOf (segments.flatMap (clipPieces lo hi))) t c := by
  induction segments generalizing t with
  | nil => rfl
  | cons segment segments ih =>
    rw [clips_cons, shows_clipPieces segment (clips_nonneg segments) t c, List.flatMap_cons,
      clipsOf_append]
    exact shows_append_congr ih

theorem flatMap_clipPieces_nonneg (segments : List VideoSegment) :
    ∀ piece ∈ segments.flatMap (clipPieces lo hi), 0 ≤ piece.clip.length := by
  intro piece hpiece
  obtain ⟨segment, -, hmem⟩ := List.mem_flatMap.mp hpiece
  exact clipPieces_nonneg segment piece hmem

/-- Clipping a stored list removes its deletions, all of them at once. -/
theorem listFollows_clamp (segments : List VideoSegment) :
    ListFollows segments (segments.filterMap (clipSegment lo hi))
      (.remove (clampDeletions lo hi 0 segments)) := by
  have hnonneg : ∀ piece ∈ segments.flatMap (clipPieces lo hi), 0 ≤ piece.clip.length :=
    flatMap_clipPieces_nonneg segments
  rw [← clampDeletions_eq]
  constructor
  · intro t c hshow hkept
    rw [← keptClips_flatMap]
    exact shows_removeAll hnonneg ((shows_flatMap segments t c).mp hshow) hkept
  · have htotal : total (clipsOf (segments.flatMap (clipPieces lo hi))) = totalDuration segments := by
      induction segments with
      | nil => rfl
      | cons segment segments ih =>
        rw [List.flatMap_cons, clipsOf_append, total_append, total_clipPieces, totalDuration_cons,
          ih (flatMap_clipPieces_nonneg segments)]
    rw [← total_clips, ← keptClips_flatMap, total_keptClips _ 0, htotal]

/-- The deletions come in timeline order, and none is empty. -/
theorem clampDeletions_inOrder (segments : List VideoSegment) :
    InOrder (clampDeletions lo hi 0 segments) := by
  rw [← clampDeletions_eq]
  exact removedRanges_inOrder 0 (flatMap_clipPieces_nonneg segments)

theorem clampDeletions_pos (segments : List VideoSegment) (startSecs : Secs) :
    ∀ range ∈ clampDeletions lo hi startSecs segments, 0 < range.2 := by
  induction segments generalizing startSecs with
  | nil => simp [clampDeletions]
  | cons segment segments ih =>
    intro range hrange
    rcases List.mem_append.mp hrange with hrange | hrange
    · unfold clipDeletions at hrange
      simp only at hrange
      split at hrange
      · simp only [List.mem_append, List.mem_ite_nil_right, List.mem_singleton] at hrange
        rcases hrange with ⟨hlt, rfl⟩ | ⟨hlt, rfl⟩ <;> simp only <;> linarith
      · simp only [List.mem_ite_nil_right, List.mem_singleton] at hrange
        rcases hrange with ⟨hlt, rfl⟩
        exact hlt
    · exact ih _ range hrange

/-- Opening clips the stored segments and ripples the zooms over the whole set of deletions. -/
theorem followsEdit_clamp {bundle : BlipBundle} {segments : List VideoSegment}
    (hsegs : bundle.videoSegments = some segments) :
    FollowsEdit bundle (clampVideoTimelineToSourceRange bundle lo hi)
      (.remove (clampDeletions lo hi 0 segments)) (.remove (clampDeletions lo hi 0 segments)) := by
  have horder : InOrder (clampDeletions lo hi 0 segments) := clampDeletions_inOrder segments
  -- strictly increasing starts, so the stable sort by descending start reverses the list
  have hsort : (clampDeletions lo hi 0 segments).insertionSort (fun left right => right.1 ≤ left.1) =
      (clampDeletions lo hi 0 segments).reverse := by
    refine insertionSort_eq_reverse _ (horder.2.imp_of_mem ?_)
    intro a b ha _ hab
    have := clampDeletions_pos segments 0 a ha
    exact not_le.mpr (by linarith)
  refine .of_list hsegs ?_ (listFollows_clamp segments) ?_ ?_
  · simp only [clampVideoTimelineToSourceRange, hsegs]
  · simp only [clampVideoTimelineToSourceRange, hsegs]
    rw [hsort]
    exact rippleDeleteAll_reverse horder _
  · rintro ranges ⟨⟩
    exact horder

/-- The pieces kept are those whose content the source covers. -/
theorem kept_clipPieces_iff (segment : VideoSegment) :
    ∀ piece ∈ clipPieces lo hi segment, ∀ c, piece.clip.start ≤ c →
      c < piece.clip.start + piece.clip.length → (piece.kept = true ↔ lo ≤ c ∧ c < hi) := by
  intro piece hpiece c hlo hhi
  unfold clipPieces at hpiece
  simp only at hpiece
  have hmax := le_max_right segment.sourceStartSecs lo
  have hmin := min_le_right segment.sourceEndSecs hi
  split at hpiece
  · simp only [List.mem_append, List.mem_cons, List.mem_ite_nil_right, List.not_mem_nil,
      or_false] at hpiece
    rcases hpiece with ⟨hlt, rfl⟩ | rfl | ⟨hlt, rfl⟩ <;> simp only at hlo hhi ⊢
    · -- content before the source
      rw [add_sub_cancel] at hhi
      have hbefore : c < lo := (lt_max_iff.mp hhi).resolve_left (not_lt.mpr hlo)
      exact iff_of_false Bool.false_ne_true fun h => absurd h.1 (not_le.mpr hbefore)
    · rw [add_sub_cancel] at hhi
      exact iff_of_true trivial ⟨hmax.trans hlo, hhi.trans_le hmin⟩
    · -- content past the source
      rw [add_sub_cancel] at hhi
      have hpast : hi ≤ c := (min_le_iff.mp hlo).resolve_left (not_le.mpr hhi)
      exact iff_of_false Bool.false_ne_true fun h => absurd h.2 (not_lt.mpr hpast)
  · next hclip =>
    split at hpiece
    · next hpos =>
      rw [List.mem_singleton] at hpiece
      subst hpiece
      simp only [VideoSegment.clip] at hlo hhi
      have hend : segment.sourceStartSecs + segment.durationSecs = segment.sourceEndSecs := by
        have hordered : segment.sourceStartSecs ≤ segment.sourceEndSecs := by
          rcases lt_max_iff.mp hpos with h | h
          · linarith
          · exact absurd h (lt_irrefl 0)
        rw [VideoSegment.durationSecs_eq hordered]
        ring
      rw [hend] at hhi
      refine iff_of_false Bool.false_ne_true fun h => hclip ?_
      exact (max_le hlo h.1).trans_lt (lt_min hhi h.2)
    · simp at hpiece

/-- What opening removes is what the source does not cover. -/
theorem removes_clamp_iff {bundle : BlipBundle} {segments : List VideoSegment}
    (hsegs : bundle.videoSegments = some segments) {t : Secs} (h0 : 0 ≤ t)
    (hlt : t < videoTimelineDuration bundle) :
    (TimeEdit.remove (clampDeletions lo hi 0 segments)).Removes t ↔
      ∃ c, sourceTimeAt bundle t = some c ∧ ¬ (lo ≤ c ∧ c < hi) := by
  rw [videoTimelineDuration, hsegs, Option.getD_some, ← total_clips] at hlt
  obtain ⟨c, hc⟩ := exists_shows h0 hlt
  have hkept : ∀ piece ∈ segments.flatMap (clipPieces lo hi), ∀ c, piece.clip.start ≤ c →
      c < piece.clip.start + piece.clip.length → (piece.kept = true ↔ lo ≤ c ∧ c < hi) := by
    intro piece hpiece
    obtain ⟨segment, -, hmem⟩ := List.mem_flatMap.mp hpiece
    exact kept_clipPieces_iff segment piece hmem
  have hshow : Shows (clipsOf (segments.flatMap (clipPieces lo hi))) (t - 0) c := by
    rw [sub_zero]
    exact (shows_flatMap segments t c).mp hc
  rw [← clampDeletions_eq,
    removes_iff_of_start (flatMap_clipPieces_nonneg segments) hkept hshow,
    sourceTimeAt_of_shows hsegs hc]
  simp

end Clamp

end Blip.Capture
