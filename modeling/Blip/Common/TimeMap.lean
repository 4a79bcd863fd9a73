import Mathlib.Algebra.Order.Field.Basic
import Mathlib.Algebra.BigOperators.Group.List.Basic
import Mathlib.Data.List.Sort
import Mathlib.Tactic.Linarith
import Mathlib.Tactic.Ring

/-!
# Clips laid end to end, and the time maps of editing them

A timeline is a list of clips. `Shows clips t c` says that time `t` of the timeline shows content
`c`. Editing the list moves what later clips show to other times: `TimeEdit` names the two kinds of
change, a set of ranges removed at once and a range inserted, and `TimeEdit.map` is the map from old
times to new ones. `shows_removeAll` and `shows_insert` say that the content moves along it.
-/

namespace Blip.TimeMap

/-- Content from `start` on, for `length`. -/
structure Clip (K : Type*) where
  start : K
  length : K

variable {K : Type*} [Field K]

/-- The length of clips laid end to end. -/
def total (clips : List (Clip K)) : K := (clips.map Clip.length).sum

@[simp] theorem total_nil : total ([] : List (Clip K)) = 0 := rfl

@[simp] theorem total_cons (clip : Clip K) (clips : List (Clip K)) :
    total (clip :: clips) = clip.length + total clips := by
  simp [total]

@[simp] theorem total_append (left right : List (Clip K)) :
    total (left ++ right) = total left + total right := by
  simp [total]

variable [LinearOrder K]

/-- Time `t` of the clips laid end to end shows content `c`. -/
def Shows : List (Clip K) → K → K → Prop
  | [], _, _ => False
  | clip :: clips, t, c =>
    (0 ≤ t ∧ t < clip.length ∧ c = clip.start + t) ∨
      (clip.length ≤ t ∧ Shows clips (t - clip.length) c)

/-- How much of the range from `at` of a length lies before `t`. -/
def removedBefore (range : K × K) (t : K) : K := max 0 (min (t - range.1) range.2)

/-- Where time `t` goes when the ranges are removed, all of them at once. -/
def removeAll (ranges : List (K × K)) (t : K) : K :=
  t - (ranges.map fun range => removedBefore range t).sum

/-- A change of a timeline: ranges removed at once, or one range inserted. -/
inductive TimeEdit (K : Type*)
  | remove (ranges : List (K × K))
  | insert (start length : K)

namespace TimeEdit

/-- The edit that moves nothing. -/
def keep : TimeEdit K := .remove []

/-- Where an edit moves a time. -/
def map : TimeEdit K → K → K
  | remove ranges, t => removeAll ranges t
  | insert start length, t => if start ≤ t then t + length else t

/-- Where an edit moves the end of a range: an end at the insertion point stays. -/
def mapEnd : TimeEdit K → K → K
  | remove ranges, t => removeAll ranges t
  | insert start length, t => if start < t then t + length else t

/-- The times an edit removes. -/
def Removes : TimeEdit K → K → Prop
  | remove ranges, t => ∃ range ∈ ranges, range.1 ≤ t ∧ t < range.1 + range.2
  | insert _ _, _ => False

/-- By how much an edit lengthens the timeline. -/
def change : TimeEdit K → K
  | remove ranges => -(ranges.map Prod.snd).sum
  | insert _ length => length

end TimeEdit

/-! ## What clips show -/

@[simp] theorem removeAll_nil (t : K) : removeAll [] t = t := by
  simp [removeAll]

theorem removeAll_cons (range : K × K) (ranges : List (K × K)) (t : K) :
    removeAll (range :: ranges) t = removeAll ranges t - removedBefore range t := by
  simp only [removeAll, List.map_cons, List.sum_cons]
  ring

@[simp] theorem TimeEdit.map_keep (t : K) : (keep : TimeEdit K).map t = t := removeAll_nil t

@[simp] theorem TimeEdit.mapEnd_keep (t : K) : (keep : TimeEdit K).mapEnd t = t := removeAll_nil t

/-- Only nonnegative times show anything. -/
theorem Shows.nonneg {clips : List (Clip K)} (hlen : ∀ clip ∈ clips, 0 ≤ clip.length) {t c : K}
    (h : Shows clips t c) : 0 ≤ t := by
  cases clips with
  | nil => exact h.elim
  | cons clip clips =>
    rcases h with ⟨ht, -, -⟩ | ⟨ht, -⟩
    · exact ht
    · exact (hlen clip (by simp)).trans ht

/-- An equivalence of what lists show extends over a common first clip. -/
theorem shows_cons_congr (clip : Clip K) {left right : List (Clip K)} {c : K}
    (h : ∀ t, Shows left t c ↔ Shows right t c) (t : K) :
    Shows (clip :: left) t c ↔ Shows (clip :: right) t c := by
  simp only [Shows, h]

/-- An equivalence of what lists show extends over a common front. -/
theorem shows_append_congr {pre left right : List (Clip K)} {t c : K}
    (h : ∀ t, Shows left t c ↔ Shows right t c) :
    Shows (pre ++ left) t c ↔ Shows (pre ++ right) t c := by
  induction pre generalizing t with
  | nil => exact h t
  | cons clip pre ih => simp only [List.cons_append, Shows, ih]

variable [IsStrictOrderedRing K]

theorem total_nonneg {clips : List (Clip K)} (h : ∀ clip ∈ clips, 0 ≤ clip.length) :
    0 ≤ total clips := by
  induction clips with
  | nil => simp
  | cons clip clips ih =>
    rw [total_cons]
    exact add_nonneg (h clip (by simp)) (ih fun other hother => h other (by simp [hother]))

/-- Every time of the timeline shows something. -/
theorem exists_shows {clips : List (Clip K)} {t : K} (ht : 0 ≤ t) (htotal : t < total clips) :
    ∃ c, Shows clips t c := by
  induction clips generalizing t with
  | nil =>
    rw [total_nil] at htotal
    exact absurd ht (not_le.mpr htotal)
  | cons clip clips ih =>
    rw [total_cons] at htotal
    by_cases hin : t < clip.length
    · exact ⟨clip.start + t, .inl ⟨ht, hin, rfl⟩⟩
    · obtain ⟨c, hc⟩ := ih (t := t - clip.length) (by linarith) (by linarith)
      exact ⟨c, .inr ⟨not_lt.mp hin, hc⟩⟩

/-- Clips after `pre` show what they show, later by the length of `pre`. -/
theorem shows_append {pre post : List (Clip K)} (hpre : ∀ clip ∈ pre, 0 ≤ clip.length)
    (hpost : ∀ clip ∈ post, 0 ≤ clip.length) {t c : K} :
    Shows (pre ++ post) t c ↔ (Shows pre t c ∧ t < total pre) ∨
      (total pre ≤ t ∧ Shows post (t - total pre) c) := by
  induction pre generalizing t with
  | nil =>
    simp only [List.nil_append, Shows, false_and, false_or, total_nil, sub_zero]
    exact ⟨fun h => ⟨h.nonneg hpost, h⟩, fun h => h.2⟩
  | cons clip pre ih =>
    have hclip := hpre clip (by simp)
    have hrest := total_nonneg fun other hother => hpre other (List.mem_cons_of_mem clip hother)
    rw [List.cons_append, total_cons, Shows, Shows,
      ih fun other hother => hpre other (List.mem_cons_of_mem clip hother)]
    rw [show t - clip.length - total pre = t - (clip.length + total pre) by ring]
    constructor
    · rintro (⟨h0, hlt, rfl⟩ | ⟨hle, ⟨hshow, hlt⟩ | ⟨hle', hshow⟩⟩)
      · exact .inl ⟨.inl ⟨h0, hlt, rfl⟩, by linarith⟩
      · exact .inl ⟨.inr ⟨hle, hshow⟩, by linarith⟩
      · exact .inr ⟨by linarith, hshow⟩
    · rintro (⟨⟨h0, hlt, rfl⟩ | ⟨hle, hshow⟩, htotal⟩ | ⟨hle, hshow⟩)
      · exact .inl ⟨h0, hlt, rfl⟩
      · exact .inr ⟨hle, .inl ⟨hshow, by linarith⟩⟩
      · exact .inr ⟨by linarith, .inr ⟨by linarith, hshow⟩⟩

omit [IsStrictOrderedRing K] in
/-- A clip of no length shows nothing. -/
theorem shows_empty {start : K} {clips : List (Clip K)} (hlen : ∀ clip ∈ clips, 0 ≤ clip.length)
    {t c : K} : Shows (⟨start, 0⟩ :: clips) t c ↔ Shows clips t c := by
  simp only [Shows, sub_zero]
  constructor
  · rintro (⟨h0, hlt, -⟩ | ⟨-, hshow⟩)
    · exact absurd h0 (not_le.mpr hlt)
    · exact hshow
  · exact fun hshow => .inr ⟨hshow.nonneg hlen, hshow⟩

/-- Cutting a clip in two changes nothing. -/
theorem shows_cut {start a b : K} (ha : 0 ≤ a) (hb : 0 ≤ b) (clips : List (Clip K)) {t c : K} :
    Shows (⟨start, a + b⟩ :: clips) t c ↔ Shows (⟨start, a⟩ :: ⟨start + a, b⟩ :: clips) t c := by
  simp only [Shows]
  rw [show t - a - b = t - (a + b) by ring]
  constructor
  · rintro (⟨h0, hlt, rfl⟩ | ⟨hle, hshow⟩)
    · by_cases hin : t < a
      · exact .inl ⟨h0, hin, rfl⟩
      · exact .inr ⟨not_lt.mp hin, .inl ⟨by linarith, by linarith, by ring⟩⟩
    · exact .inr ⟨by linarith, .inr ⟨by linarith, hshow⟩⟩
  · rintro (⟨h0, hlt, rfl⟩ | ⟨hle, ⟨h0, hlt, rfl⟩ | ⟨hle', hshow⟩⟩)
    · exact .inl ⟨h0, by linarith, rfl⟩
    · exact .inl ⟨by linarith, by linarith, by ring⟩
    · exact .inr ⟨by linarith, hshow⟩

/-- Cutting a clip in the middle of a list changes nothing. -/
theorem shows_cut_middle {pre post : List (Clip K)} {start a b : K} (ha : 0 ≤ a) (hb : 0 ≤ b)
    {t c : K} : Shows (pre ++ ⟨start, a + b⟩ :: post) t c ↔
      Shows (pre ++ ⟨start, a⟩ :: ⟨start + a, b⟩ :: post) t c :=
  shows_append_congr fun _ => shows_cut ha hb post

/-! ## Removing or inserting clips -/

/-- Ranges from `t` on leave `t` in place. -/
theorem removeAll_of_le {ranges : List (K × K)} {t : K} (h : ∀ range ∈ ranges, t ≤ range.1) :
    removeAll ranges t = t := by
  induction ranges with
  | nil => exact removeAll_nil t
  | cons range ranges ih =>
    have hzero : removedBefore range t = 0 := by
      have := h range (by simp)
      exact max_eq_left ((min_le_left _ _).trans (by linarith))
    rw [removeAll_cons, hzero, sub_zero]
    exact ih fun other hother => h other (by simp [hother])

theorem removedBefore_of_le {range : K × K} {t : K} (hlen : 0 ≤ range.2)
    (h : range.1 + range.2 ≤ t) : removedBefore range t = range.2 := by
  unfold removedBefore
  rw [min_eq_right (by linarith), max_eq_right hlen]

section Splice

variable {pre mid post : List (Clip K)}

omit [IsStrictOrderedRing K] in
private theorem nonneg_append (hmid : ∀ clip ∈ mid, 0 ≤ clip.length)
    (hpost : ∀ clip ∈ post, 0 ≤ clip.length) : ∀ clip ∈ mid ++ post, 0 ≤ clip.length := by
  intro clip hclip
  rcases List.mem_append.mp hclip with h | h
  · exact hmid clip h
  · exact hpost clip h

/-- Removing clips moves what follows them along the edit's map. -/
theorem shows_remove (hpre : ∀ clip ∈ pre, 0 ≤ clip.length)
    (hmid : ∀ clip ∈ mid, 0 ≤ clip.length) (hpost : ∀ clip ∈ post, 0 ≤ clip.length) {t c : K}
    (hshow : Shows (pre ++ (mid ++ post)) t c)
    (hkept : ¬ (TimeEdit.remove [(total pre, total mid)]).Removes t) :
    Shows (pre ++ post) ((TimeEdit.remove [(total pre, total mid)]).map t) c := by
  have hmid' := total_nonneg hmid
  rw [shows_append hpre (nonneg_append hmid hpost), shows_append hmid hpost] at hshow
  rw [shows_append hpre hpost, TimeEdit.map]
  rcases hshow with ⟨hshow, hlt⟩ | ⟨hle, ⟨hshow, hlt⟩ | ⟨hle', hshow⟩⟩
  · rw [removeAll_of_le (by simpa using hlt.le)]
    exact .inl ⟨hshow, hlt⟩
  · refine absurd ⟨(total pre, total mid), by simp, hle, ?_⟩ hkept
    show t < total pre + total mid
    linarith
  · have hwhole : removedBefore (total pre, total mid) t = total mid :=
      removedBefore_of_le hmid' (by simp only; linarith)
    rw [removeAll_cons, removeAll_nil, hwhole]
    refine .inr ⟨by linarith, ?_⟩
    rwa [show t - total mid - total pre = t - total pre - total mid by ring]

/-- Inserting clips moves what follows them along the edit's map. -/
theorem shows_insert (hpre : ∀ clip ∈ pre, 0 ≤ clip.length)
    (hmid : ∀ clip ∈ mid, 0 ≤ clip.length) (hpost : ∀ clip ∈ post, 0 ≤ clip.length) {t c : K}
    (hshow : Shows (pre ++ post) t c) :
    Shows (pre ++ (mid ++ post)) ((TimeEdit.insert (total pre) (total mid)).map t) c := by
  have hmid' := total_nonneg hmid
  rw [shows_append hpre hpost] at hshow
  rw [shows_append hpre (nonneg_append hmid hpost), shows_append hmid hpost]
  rcases hshow with ⟨hshow, hlt⟩ | ⟨hle, hshow⟩
  · rw [TimeEdit.map, if_neg (not_le.mpr hlt)]
    exact .inl ⟨hshow, hlt⟩
  · rw [TimeEdit.map, if_pos hle]
    refine .inr ⟨by linarith, .inr ⟨by linarith, ?_⟩⟩
    rwa [show t + total mid - total pre - total mid = t - total pre by ring]

end Splice

/-! ## Removing pieces -/

/-- A clip that an edit keeps or removes. -/
structure Piece (K : Type*) where
  clip : Clip K
  kept : Bool

/-- The timeline before the removal. -/
def clipsOf (pieces : List (Piece K)) : List (Clip K) := pieces.map Piece.clip

/-- The timeline after the removal. -/
def keptClips (pieces : List (Piece K)) : List (Clip K) := clipsOf (pieces.filter Piece.kept)

/-- The ranges the removed pieces take up, in old time. -/
def removedRanges : K → List (Piece K) → List (K × K)
  | _, [] => []
  | start, piece :: pieces =>
    (if piece.kept then [] else [(start, piece.clip.length)]) ++
      removedRanges (start + piece.clip.length) pieces

omit [Field K] [LinearOrder K] [IsStrictOrderedRing K] in
@[simp] theorem clipsOf_append (left right : List (Piece K)) :
    clipsOf (left ++ right) = clipsOf left ++ clipsOf right := by
  simp [clipsOf]

omit [LinearOrder K] [IsStrictOrderedRing K] in
/-- The pieces of `right` start where those of `left` end. -/
theorem removedRanges_append (left right : List (Piece K)) (start : K) :
    removedRanges start (left ++ right) =
      removedRanges start left ++ removedRanges (start + total (clipsOf left)) right := by
  induction left generalizing start with
  | nil => simp [removedRanges, clipsOf]
  | cons piece left ih =>
    simp only [List.cons_append, removedRanges, ih, clipsOf, List.map_cons, total_cons,
      List.append_assoc, add_assoc]

theorem start_le_of_mem_removedRanges {pieces : List (Piece K)} {start : K}
    (hlen : ∀ piece ∈ pieces, 0 ≤ piece.clip.length) :
    ∀ range ∈ removedRanges start pieces, start ≤ range.1 := by
  induction pieces generalizing start with
  | nil => simp [removedRanges]
  | cons piece pieces ih =>
    intro range hrange
    have hpiece := hlen piece (by simp)
    rcases List.mem_append.mp hrange with hrange | hrange
    · split at hrange
      · simp at hrange
      · rw [List.mem_singleton.mp hrange]
    · have := ih (fun other hother => hlen other (by simp [hother])) range hrange
      linarith

/-- What is not removed is shown where `removeAll` moves it. -/
theorem shows_removeAll_of_start {pieces : List (Piece K)} {start t c : K}
    (hlen : ∀ piece ∈ pieces, 0 ≤ piece.clip.length)
    (hshow : Shows (clipsOf pieces) (t - start) c)
    (hkept : ¬ (TimeEdit.remove (removedRanges start pieces)).Removes t) :
    Shows (keptClips pieces) (removeAll (removedRanges start pieces) t - start) c := by
  induction pieces generalizing start with
  | nil => exact hshow.elim
  | cons piece pieces ih =>
    have hpiece := hlen piece (by simp)
    have hrest : ∀ other ∈ pieces, 0 ≤ other.clip.length := fun other hother =>
      hlen other (by simp [hother])
    rcases hshow with ⟨h0, hlt, rfl⟩ | ⟨hle, hshow⟩
    · -- the time lies in this piece, so it is kept and nothing before it goes
      have hstay : removeAll (removedRanges (start + piece.clip.length) pieces) t = t := by
        refine removeAll_of_le fun range hrange => ?_
        have := start_le_of_mem_removedRanges hrest range hrange
        linarith
      cases hk : piece.kept with
      | false =>
        refine absurd ⟨(start, piece.clip.length), ?_, ?_, ?_⟩ hkept
        · simp [removedRanges, hk]
        · show start ≤ t
          linarith
        · show t < start + piece.clip.length
          linarith
      | true =>
        simp only [keptClips, clipsOf, removedRanges, hk, if_true, List.nil_append,
          List.filter_cons_of_pos, List.map_cons, hstay]
        exact .inl ⟨h0, hlt, rfl⟩
    · -- the time lies in a later piece
      have hshow' : Shows (clipsOf pieces) (t - (start + piece.clip.length)) c := by
        rwa [show t - (start + piece.clip.length) = t - start - piece.clip.length by ring]
      have hkept' : ¬ (TimeEdit.remove
          (removedRanges (start + piece.clip.length) pieces)).Removes t := by
        rintro ⟨range, hrange, hin⟩
        exact hkept ⟨range, List.mem_append_right _ hrange, hin⟩
      have hnext := ih hrest hshow' hkept'
      have hnonneg := hnext.nonneg (by
        intro clip hclip
        obtain ⟨other, hother, rfl⟩ := List.mem_map.mp hclip
        exact hrest other (List.mem_of_mem_filter hother))
      cases hk : piece.kept with
      | false =>
        have hwhole : removedBefore (start, piece.clip.length) t = piece.clip.length :=
          removedBefore_of_le hpiece (by simp only; linarith)
        simp only [keptClips, removedRanges, hk, Bool.false_eq_true, if_false,
          List.cons_append, List.nil_append, removeAll_cons, hwhole,
          List.filter_cons_of_neg, not_false_eq_true]
        rw [show removeAll (removedRanges (start + piece.clip.length) pieces) t -
          piece.clip.length - start = removeAll (removedRanges (start + piece.clip.length) pieces) t -
            (start + piece.clip.length) by ring]
        exact hnext
      | true =>
        simp only [keptClips, clipsOf, removedRanges, hk, if_true, List.nil_append,
          List.filter_cons_of_pos, List.map_cons]
        refine .inr ⟨by linarith, ?_⟩
        rw [show ∀ u, u - start - piece.clip.length = u - (start + piece.clip.length) by
          intro u; ring]
        exact hnext

/-- When the pieces kept are those whose content meets `P`, the times removed are those whose content
does not. -/
theorem removes_iff_of_start {P : K → Prop} {pieces : List (Piece K)} {start t c : K}
    (hlen : ∀ piece ∈ pieces, 0 ≤ piece.clip.length)
    (hP : ∀ piece ∈ pieces, ∀ c, piece.clip.start ≤ c → c < piece.clip.start + piece.clip.length →
      (piece.kept = true ↔ P c))
    (hshow : Shows (clipsOf pieces) (t - start) c) :
    (TimeEdit.remove (removedRanges start pieces)).Removes t ↔ ¬ P c := by
  induction pieces generalizing start with
  | nil => exact hshow.elim
  | cons piece pieces ih =>
    have hrest : ∀ other ∈ pieces, 0 ≤ other.clip.length := fun other hother =>
      hlen other (by simp [hother])
    have hmem : ∀ range, range ∈ removedRanges start (piece :: pieces) ↔
        (piece.kept = false ∧ range = (start, piece.clip.length)) ∨
          range ∈ removedRanges (start + piece.clip.length) pieces := by
      intro range
      rw [removedRanges, List.mem_append]
      cases piece.kept <;> simp
    rcases hshow with ⟨h0, hlt, rfl⟩ | ⟨hle, hshow⟩
    · -- the time lies in this piece, and every other range starts after it
      rw [← hP piece (by simp) _ (by linarith) (by linarith), Bool.not_eq_true]
      constructor
      · rintro ⟨range, hrange, hlo, hhi⟩
        rcases (hmem range).mp hrange with ⟨hk, -⟩ | hlater
        · exact hk
        · have := start_le_of_mem_removedRanges hrest range hlater
          linarith
      · intro hk
        refine ⟨(start, piece.clip.length), (hmem _).mpr (.inl ⟨hk, rfl⟩), ?_, ?_⟩
        · show start ≤ t
          linarith
        · show t < start + piece.clip.length
          linarith
    · -- the time lies in a later piece, past this one's range
      have hshow' : Shows (clipsOf pieces) (t - (start + piece.clip.length)) c := by
        rwa [show t - (start + piece.clip.length) = t - start - piece.clip.length by ring]
      rw [← ih hrest (fun other hother => hP other (by simp [hother])) hshow']
      constructor
      · rintro ⟨range, hrange, hlo, hhi⟩
        rcases (hmem range).mp hrange with ⟨-, rfl⟩ | hlater
        · simp only at hhi
          linarith
        · exact ⟨range, hlater, hlo, hhi⟩
      · rintro ⟨range, hrange, hin⟩
        exact ⟨range, (hmem range).mpr (.inr hrange), hin⟩

/-- Removing pieces moves what is kept along the edit's map. -/
theorem shows_removeAll {pieces : List (Piece K)} {t c : K}
    (hlen : ∀ piece ∈ pieces, 0 ≤ piece.clip.length) (hshow : Shows (clipsOf pieces) t c)
    (hkept : ¬ (TimeEdit.remove (removedRanges 0 pieces)).Removes t) :
    Shows (keptClips pieces) (removeAll (removedRanges 0 pieces) t) c := by
  have hshow' : Shows (clipsOf pieces) (t - 0) c := by rwa [sub_zero]
  simpa only [sub_zero] using shows_removeAll_of_start hlen hshow' hkept

omit [LinearOrder K] [IsStrictOrderedRing K] in
/-- Removing pieces shortens the timeline by the ranges they took up. -/
theorem total_keptClips (pieces : List (Piece K)) (start : K) :
    total (keptClips pieces) =
      total (clipsOf pieces) + (TimeEdit.remove (removedRanges start pieces)).change := by
  induction pieces generalizing start with
  | nil => simp [keptClips, clipsOf, removedRanges, TimeEdit.change]
  | cons piece pieces ih =>
    have hnext := ih (start + piece.clip.length)
    simp only [keptClips, clipsOf, TimeEdit.change] at hnext
    cases hk : piece.kept with
    | false =>
      simp only [keptClips, clipsOf, removedRanges, TimeEdit.change, hk, Bool.false_eq_true,
        if_false, List.cons_append, List.nil_append, List.filter_cons_of_neg, not_false_eq_true,
        List.map_cons, List.sum_cons, total_cons, hnext]
      ring
    | true =>
      simp only [keptClips, clipsOf, removedRanges, TimeEdit.change, hk, if_true, List.nil_append,
        List.filter_cons_of_pos, List.map_cons, total_cons, hnext]
      ring

/-! ## Removing ranges one after another -/

/-- Removing a range moves later times closer to earlier ones, never past them. -/
theorem removedBefore_le_add (range : K × K) {t u : K} (h : t ≤ u) :
    removedBefore range t ≤ removedBefore range u ∧
      removedBefore range u ≤ removedBefore range t + (u - t) := by
  unfold removedBefore
  constructor
  · exact max_le_max_left 0 (min_le_min_right _ (by linarith))
  · refine max_le ?_ ?_
    · linarith [le_max_left (0 : K) (min (t - range.1) range.2)]
    · rcases le_total (t - range.1) range.2 with hle | hle
      · have h₁ := min_le_left (u - range.1) range.2
        have h₂ := le_max_right (0 : K) (min (t - range.1) range.2)
        rw [min_eq_left hle] at h₂ ⊢
        linarith
      · have h₁ := min_le_right (u - range.1) range.2
        have h₂ := le_max_right (0 : K) (min (t - range.1) range.2)
        rw [min_eq_right hle] at h₂ ⊢
        linarith

/-- A range no longer than `bound` is no longer than `bound` after a removal. -/
theorem removeAll_singleton_sub_le (range : K × K) {t u bound : K} (hbound : 0 ≤ bound)
    (h : u - t ≤ bound) : removeAll [range] u - removeAll [range] t ≤ bound := by
  rw [removeAll_cons, removeAll_cons, removeAll_nil, removeAll_nil]
  rcases le_total t u with htu | hut
  · have := (removedBefore_le_add range htu).1
    linarith
  · have := (removedBefore_le_add range hut).2
    linarith

/-- Ranges in order, each ending before the next one starts. -/
def InOrder (ranges : List (K × K)) : Prop :=
  (∀ range ∈ ranges, 0 ≤ range.2) ∧ ranges.Pairwise fun a b => a.1 + a.2 ≤ b.1

theorem foldr_removeAll_mono (ranges : List (K × K)) {t u : K} (h : t ≤ u) :
    ranges.foldr (fun range t => removeAll [range] t) t ≤
      ranges.foldr (fun range t => removeAll [range] t) u := by
  induction ranges with
  | nil => exact h
  | cons range ranges ih =>
    have := (removedBefore_le_add range ih).2
    rw [List.foldr_cons, List.foldr_cons, removeAll_cons, removeAll_cons, removeAll_nil,
      removeAll_nil]
    linarith

/-- From right to left each removal finds the ranges before it still in place, so removing them one
after another removes the whole set at once. -/
theorem foldr_removeAll {ranges : List (K × K)} (h : InOrder ranges) (t : K) :
    ranges.foldr (fun range t => removeAll [range] t) t = removeAll ranges t := by
  induction ranges generalizing t with
  | nil => simp
  | cons range ranges ih =>
    obtain ⟨hlen, hpair⟩ := h
    obtain ⟨hfirst, hrest⟩ := List.pairwise_cons.mp hpair
    have hrange := hlen range (by simp)
    have hfold := ih ⟨fun other hother => hlen other (by simp [hother]), hrest⟩
    rw [List.foldr_cons, hfold, removeAll_cons, removeAll_cons, removeAll_nil]
    congr 1
    by_cases hlate : range.1 + range.2 ≤ t
    · -- `t` is past the range, and the later removals leave it there
      have hstay : range.1 + range.2 ≤ removeAll ranges t := by
        calc range.1 + range.2 = removeAll ranges (range.1 + range.2) :=
              (removeAll_of_le hfirst).symm
          _ ≤ removeAll ranges t := by
              rw [← hfold, ← hfold]
              exact foldr_removeAll_mono ranges hlate
      rw [removedBefore_of_le hrange hlate, removedBefore_of_le hrange hstay]
    · rw [removeAll_of_le]
      intro other hother
      have := hfirst other hother
      linarith

/-- The ranges of removed pieces are in order. -/
theorem removedRanges_inOrder {pieces : List (Piece K)} (start : K)
    (hlen : ∀ piece ∈ pieces, 0 ≤ piece.clip.length) : InOrder (removedRanges start pieces) := by
  induction pieces generalizing start with
  | nil => exact ⟨by simp [removedRanges], List.Pairwise.nil⟩
  | cons piece pieces ih =>
    have hrest : ∀ other ∈ pieces, 0 ≤ other.clip.length := fun other hother =>
      hlen other (by simp [hother])
    obtain ⟨hnonneg, hpair⟩ := ih (start + piece.clip.length) hrest
    cases hk : piece.kept with
    | true =>
      simp only [removedRanges, hk, if_true, List.nil_append]
      exact ⟨hnonneg, hpair⟩
    | false =>
      simp only [removedRanges, hk, Bool.false_eq_true, if_false, List.cons_append,
        List.nil_append]
      refine ⟨?_, List.pairwise_cons.mpr ⟨start_le_of_mem_removedRanges hrest, hpair⟩⟩
      intro range hrange
      rcases List.mem_cons.mp hrange with rfl | hrange
      · exact hlen piece (by simp)
      · exact hnonneg range hrange

/-- Going through ranges in ascending order and inserting each before the smaller ones reverses
them. -/
theorem insertionSort_eq_reverse {α : Type*} (r : α → α → Prop) [DecidableRel r] {l : List α}
    (h : l.Pairwise fun a b => ¬ r a b) : l.insertionSort r = l.reverse := by
  induction l with
  | nil => rfl
  | cons a l ih =>
    obtain ⟨hfirst, hrest⟩ := List.pairwise_cons.mp h
    have hlast : ∀ l' : List α, (∀ b ∈ l', ¬ r a b) → l'.orderedInsert r a = l' ++ [a] := by
      intro l' hl'
      induction l' with
      | nil => rfl
      | cons b l' ih' =>
        rw [List.orderedInsert_of_not_le _ _ (hl' b (by simp)),
          ih' fun c hc => hl' c (by simp [hc]), List.cons_append]
    rw [List.insertionSort_cons, ih hrest, List.reverse_cons]
    exact hlast _ fun b hb => hfirst b (List.mem_reverse.mp hb)

/-- Every time of a removed range goes where the range starts. -/
theorem removeAll_eq_of_mem {ranges : List (K × K)} (h : InOrder ranges) {range : K × K}
    (hmem : range ∈ ranges) {t : K} (hlo : range.1 ≤ t) (hhi : t ≤ range.1 + range.2) :
    removeAll ranges t = removeAll ranges range.1 := by
  induction ranges with
  | nil => simp at hmem
  | cons first ranges ih =>
    obtain ⟨hlen, hpair⟩ := h
    obtain ⟨hfirst, hrest⟩ := List.pairwise_cons.mp hpair
    have hfirst' := hlen first (by simp)
    rw [removeAll_cons, removeAll_cons]
    rcases List.mem_cons.mp hmem with rfl | hmem
    · have hlate : ∀ u, u ≤ range.1 + range.2 → removeAll ranges u = u := fun u hu =>
        removeAll_of_le fun other hother => hu.trans (hfirst other hother)
      rw [hlate t hhi, hlate range.1 (by linarith)]
      unfold removedBefore
      rw [min_eq_left (by linarith), max_eq_right (by linarith), sub_self, min_eq_left hfirst',
        max_self]
      ring
    · have hbefore := hfirst range hmem
      rw [ih ⟨fun other hother => hlen other (by simp [hother]), hrest⟩ hmem,
        removedBefore_of_le hfirst' (by linarith), removedBefore_of_le hfirst' hbefore]

end Blip.TimeMap
