import Mathlib.Data.List.Pairwise
import Blip.Capture.EditorEffects

/-!
# Zoom lists that fit a timeline

What a list of zoom segments is to be on a timeline of a given duration, and what keeps it so: a
ripple over a removed or an inserted range, a new zoom where there is room, and a range written to
one zoom within the limits of a drag. The order of the list plays no part.
-/

namespace Blip.Capture

open BundleEditor (movedZoomRange)

/-- Neither of two zooms reaches into the other. -/
def ZoomSegment.Apart (a b : ZoomSegment) : Prop :=
  a.endSecs ≤ b.startSecs ∨ b.endSecs ≤ a.startSecs

theorem ZoomSegment.Apart.symm {a b : ZoomSegment} (h : a.Apart b) : b.Apart a := Or.symm h

instance (a b : ZoomSegment) : Decidable (a.Apart b) := inferInstanceAs (Decidable (_ ∨ _))

instance : Std.Symm ZoomSegment.Apart := ⟨fun _ _ => ZoomSegment.Apart.symm⟩

/-- What the zooms of a timeline are to be: positive, on the timeline, disjoint, told apart by their
identifiers. -/
structure ZoomsWf (durationSecs : Secs) (zooms : List ZoomSegment) : Prop where
  positive : ∀ z ∈ zooms, z.startSecs < z.endSecs
  within : ∀ z ∈ zooms, 0 ≤ z.startSecs ∧ z.endSecs ≤ durationSecs
  disjoint : zooms.Pairwise ZoomSegment.Apart
  distinct : (zooms.map ZoomSegment.id).Nodup

/-- A zoom that can stand among others. -/
structure ZoomFits (durationSecs : Secs) (others : List ZoomSegment) (z : ZoomSegment) : Prop where
  positive : z.startSecs < z.endSecs
  low : 0 ≤ z.startSecs
  high : z.endSecs ≤ durationSecs
  apart : ∀ other ∈ others, z.Apart other
  fresh : ∀ other ∈ others, other.id ≠ z.id

section Zooms

variable {durationSecs durationSecs' : Secs} {zooms zooms' pre post : List ZoomSegment}

theorem ZoomsWf.perm (h : ZoomsWf durationSecs zooms) (hperm : zooms'.Perm zooms) :
    ZoomsWf durationSecs zooms' := by
  refine ⟨?_, ?_, ?_, ?_⟩
  · exact fun z hz => h.positive z (hperm.subset hz)
  · exact fun z hz => h.within z (hperm.subset hz)
  · exact (hperm.pairwise_iff ZoomSegment.Apart.symm).mpr h.disjoint
  · exact (hperm.map ZoomSegment.id).nodup_iff.mpr h.distinct

theorem zoomsWf_cons_iff {z : ZoomSegment} : ZoomsWf durationSecs (z :: zooms) ↔
    ZoomsWf durationSecs zooms ∧ ZoomFits durationSecs zooms z := by
  constructor
  · intro h
    obtain ⟨hapart, hdisjoint⟩ := List.pairwise_cons.mp h.disjoint
    obtain ⟨hfresh, hdistinct⟩ := List.nodup_cons.mp h.distinct
    obtain ⟨hlow, hhigh⟩ := h.within z (by simp)
    refine ⟨⟨fun y hy => h.positive y (by simp [hy]), fun y hy => h.within y (by simp [hy]),
      hdisjoint, hdistinct⟩, ⟨h.positive z (by simp), hlow, hhigh, hapart, ?_⟩⟩
    exact fun other hother heq => hfresh (heq ▸ List.mem_map_of_mem hother)
  · rintro ⟨h, hfits⟩
    refine ⟨?_, ?_, List.pairwise_cons.mpr ⟨hfits.apart, h.disjoint⟩, ?_⟩
    · intro y hy
      rcases List.mem_cons.mp hy with rfl | hy
      · exact hfits.positive
      · exact h.positive y hy
    · intro y hy
      rcases List.mem_cons.mp hy with rfl | hy
      · exact ⟨hfits.low, hfits.high⟩
      · exact h.within y hy
    · refine List.nodup_cons.mpr ⟨fun hmem => ?_, h.distinct⟩
      obtain ⟨other, hother, hid⟩ := List.mem_map.mp hmem
      exact hfits.fresh other hother hid

/-- One zoom against the rest of the list. -/
theorem zoomsWf_middle_iff {z : ZoomSegment} : ZoomsWf durationSecs (pre ++ z :: post) ↔
    ZoomsWf durationSecs (pre ++ post) ∧ ZoomFits durationSecs (pre ++ post) z := by
  rw [← zoomsWf_cons_iff]
  exact ⟨fun h => h.perm List.perm_middle.symm, fun h => h.perm List.perm_middle⟩

theorem ZoomsWf.sublist (h : ZoomsWf durationSecs zooms) (hsub : zooms'.Sublist zooms) :
    ZoomsWf durationSecs zooms' :=
  ⟨fun z hz => h.positive z (hsub.subset hz), fun z hz => h.within z (hsub.subset hz),
    h.disjoint.sublist hsub, h.distinct.sublist (hsub.map ZoomSegment.id)⟩

theorem ZoomsWf.longer (h : ZoomsWf durationSecs zooms) (hle : durationSecs ≤ durationSecs') :
    ZoomsWf durationSecs' zooms :=
  { h with within := fun z hz => ⟨(h.within z hz).1, (h.within z hz).2.trans hle⟩ }

/-! ## Ripples -/

/-- Moving the times of the zooms, as long as an end never comes to lie past a later start. -/
theorem ZoomsWf.mapTimes {mapStart mapEnd : Secs → Secs} (h : ZoomsWf durationSecs zooms)
    (hsub : zooms'.Sublist (zooms.map (.mapTimes mapStart mapEnd)))
    (hpositive : ∀ z ∈ zooms', z.startSecs < z.endSecs) (hlow : ∀ t, 0 ≤ t → 0 ≤ mapStart t)
    (hhigh : ∀ t, t ≤ durationSecs → mapEnd t ≤ durationSecs')
    (hcross : ∀ t u, t ≤ u → mapEnd t ≤ mapStart u) : ZoomsWf durationSecs' zooms' := by
  refine ⟨hpositive, ?_, ?_, ?_⟩
  · intro z' hz'
    obtain ⟨z, hz, rfl⟩ := List.mem_map.mp (hsub.subset hz')
    exact ⟨hlow _ (h.within z hz).1, hhigh _ (h.within z hz).2⟩
  · refine .sublist hsub (List.pairwise_map.mpr (h.disjoint.imp ?_))
    intro a b hab
    exact hab.imp (hcross _ _) (hcross _ _)
  · refine .sublist (hsub.map ZoomSegment.id) ?_
    rw [List.map_map]
    exact h.distinct

theorem rippleDeleteTime_mono {startSecs removedSecs t u : Secs} (h : t ≤ u) :
    rippleDeleteTime startSecs removedSecs t ≤ rippleDeleteTime startSecs removedSecs u := by
  unfold rippleDeleteTime
  split_ifs <;> linarith

/-- Closing a range of the timeline. -/
theorem ZoomsWf.rippleDelete {startSecs removedSecs : Secs} (h : ZoomsWf durationSecs zooms)
    (hstart : 0 ≤ startSecs) (hinside : startSecs + removedSecs ≤ durationSecs) :
    ZoomsWf (durationSecs - removedSecs) (rippleDeleteRanges zooms startSecs removedSecs) := by
  refine h.mapTimes List.filter_sublist ?_ ?_ ?_ (fun _ _ => rippleDeleteTime_mono)
  · intro z hz
    have hlong := (List.mem_filter.mp hz).2
    rw [ZoomSegment.survives, decide_eq_true_iff] at hlong
    linarith
  · intro t ht
    unfold rippleDeleteTime
    split_ifs <;> linarith
  · intro t ht
    unfold rippleDeleteTime
    split_ifs <;> linarith

/-- Opening a range of the timeline. -/
theorem ZoomsWf.rippleInsert {startSecs insertedSecs : Secs} (h : ZoomsWf durationSecs zooms)
    (hinserted : 0 ≤ insertedSecs) :
    ZoomsWf (durationSecs + insertedSecs) (rippleInsertRanges zooms startSecs insertedSecs) := by
  refine h.mapTimes (.refl _) ?_ ?_ ?_ ?_
  · intro z' hz'
    obtain ⟨z, hz, rfl⟩ := List.mem_map.mp hz'
    have hpos := h.positive z hz
    simp only [ZoomSegment.mapTimes]
    split_ifs <;> linarith
  · intro t ht
    split_ifs <;> linarith
  · intro t ht
    split_ifs <;> linarith
  · intro t u htu
    split_ifs <;> linarith

/-! ## A new zoom -/

theorem max?_getD_bound {l : List Secs} {default : Secs} {P : Secs → Prop} (hdefault : P default)
    (hl : ∀ t ∈ l, P t) : P (l.max?.getD default) := by
  cases hmax : l.max? with
  | none => exact hdefault
  | some t => exact hl t (List.max?_mem hmax)

theorem min?_getD_bound {l : List Secs} {default : Secs} {P : Secs → Prop} (hdefault : P default)
    (hl : ∀ t ∈ l, P t) : P (l.min?.getD default) := by
  cases hmin : l.min? with
  | none => exact hdefault
  | some t => exact hl t (List.min?_mem hmin)

theorem le_max?_getD {l : List Secs} {t : Secs} (ht : t ∈ l) (default : Secs) :
    t ≤ l.max?.getD default := by
  cases hmax : l.max? with
  | none =>
    rw [List.max?_eq_none_iff.mp hmax] at ht
    cases ht
  | some m => exact (List.max?_le_iff hmax).mp (le_refl m) t ht

theorem min?_getD_le {l : List Secs} {t : Secs} (ht : t ∈ l) (default : Secs) :
    l.min?.getD default ≤ t := by
  cases hmin : l.min? with
  | none =>
    rw [List.min?_eq_none_iff.mp hmin] at ht
    cases ht
  | some m => exact (List.le_min?_iff hmin).mp (le_refl m) t ht

/-- Off the zooms, `zoom_segment_range_at` finds a range that no zoom reaches into. -/
theorem ZoomsWf.rangeAt (h : ZoomsWf durationSecs zooms) {cursorSecs : Secs} {range : Secs × Secs}
    (hoff : ∀ z ∈ zooms, z.contains cursorSecs = false)
    (hrange : zoomSegmentRangeAt cursorSecs durationSecs zooms = some range) :
    0 ≤ range.1 ∧ range.2 ≤ durationSecs ∧
      ∀ z ∈ zooms, range.2 ≤ z.startSecs ∨ z.endSecs ≤ range.1 := by
  unfold zoomSegmentRangeAt at hrange
  simp only at hrange
  -- the cursor is brought onto the timeline, where every zoom is on one side of it
  have hside : ∀ z ∈ zooms, z.endSecs ≤ clampSecs 0 (max durationSecs 0) cursorSecs ∨
      clampSecs 0 (max durationSecs 0) cursorSecs ≤ z.startSecs := by
    intro z hz
    have hpositive := h.positive z hz
    obtain ⟨hlow, hhigh⟩ := h.within z hz
    have hout := hoff z hz
    rw [ZoomSegment.contains, Bool.and_eq_false_iff, decide_eq_false_iff_not,
      decide_eq_false_iff_not, not_le, not_le] at hout
    unfold clampSecs
    rw [max_eq_left (show (0 : Secs) ≤ durationSecs by linarith)]
    rcases hout with hbefore | hafter
    · exact .inr (max_le hlow ((min_le_right _ _).trans hbefore.le))
    · refine .inl (le_max_of_le_right (le_min hhigh hafter.le))
  generalize clampSecs 0 (max durationSecs 0) cursorSecs = cursor at hrange hside
  generalize hstart : ((zooms.filter fun z => decide (z.endSecs ≤ cursor)).map
    ZoomSegment.endSecs).max?.getD 0 = availableStartSecs at hrange
  generalize hend : ((zooms.filter fun z => decide (cursor ≤ z.startSecs)).map
    ZoomSegment.startSecs).min?.getD durationSecs = availableEndSecs at hrange
  split at hrange
  · cases hrange
  next hroom =>
  cases hrange
  have hlow : 0 ≤ availableStartSecs := by
    rw [← hstart]
    refine @max?_getD_bound _ 0 (0 ≤ ·) (le_refl _) ?_
    intro t ht
    obtain ⟨z, hz, rfl⟩ := List.mem_map.mp ht
    have hz := List.mem_of_mem_filter hz
    exact (h.within z hz).1.trans (h.positive z hz).le
  have hhigh : availableEndSecs ≤ durationSecs := by
    rw [← hend]
    refine @min?_getD_bound _ durationSecs (· ≤ durationSecs) (le_refl _) ?_
    intro t ht
    obtain ⟨z, hz, rfl⟩ := List.mem_map.mp ht
    have hz := List.mem_of_mem_filter hz
    exact (h.positive z hz).le.trans (h.within z hz).2
  simp only [clampSecs]
  have hlength : (0 : Secs) ≤ max (min durationSecs 3) 0 := le_max_right _ _
  generalize max (min durationSecs 3) 0 = length at hroom hlength
  rw [max_eq_left (show availableStartSecs ≤ availableEndSecs - length by linarith)]
  have hfrom : availableStartSecs ≤ max availableStartSecs
      (min (availableEndSecs - length) cursor) := le_max_left _ _
  have hto : max availableStartSecs (min (availableEndSecs - length) cursor) ≤
      availableEndSecs - length := max_le (by linarith) (min_le_left _ _)
  refine ⟨by linarith, by linarith, ?_⟩
  intro z hz
  rcases hside z hz with hbefore | hafter
  · have hmem : z.endSecs ∈ (zooms.filter fun z => decide (z.endSecs ≤ cursor)).map
        ZoomSegment.endSecs :=
      List.mem_map_of_mem (List.mem_filter.mpr ⟨hz, by simpa using hbefore⟩)
    have := le_max?_getD hmem 0
    exact .inr (by linarith)
  · have hmem : z.startSecs ∈ (zooms.filter fun z => decide (cursor ≤ z.startSecs)).map
        ZoomSegment.startSecs :=
      List.mem_map_of_mem (List.mem_filter.mpr ⟨hz, by simpa using hafter⟩)
    have := min?_getD_le hmem durationSecs
    exact .inl (by linarith)

/-! ## A range written to one zoom -/

theorem ZoomsWf.setRange {id : UInt64} {startSecs endSecs : Secs} (h : ZoomsWf durationSecs zooms)
    (hset : setZoomRange zooms id startSecs endSecs = some zooms') (hpositive : startSecs < endSecs)
    (hlow : 0 ≤ startSecs) (hhigh : endSecs ≤ durationSecs)
    (hothers : ∀ z ∈ zooms, z.id ≠ id → z.endSecs ≤ startSecs ∨ endSecs ≤ z.startSecs) :
    ZoomsWf durationSecs zooms' := by
  rcases BundleEditor.setZoomRange_cases zooms id startSecs endSecs with
    ⟨hnone, -⟩ | ⟨pre, zoom, post, rfl, rfl, hsome⟩
  · rw [hnone] at hset
    cases hset
  rw [hsome] at hset
  cases hset
  obtain ⟨hrest, hfits⟩ := zoomsWf_middle_iff.mp h
  refine zoomsWf_middle_iff.mpr ⟨hrest, ⟨hpositive, hlow, hhigh, ?_, hfits.fresh⟩⟩
  intro other hother
  have hmem : other ∈ pre ++ zoom :: post := by
    rcases List.mem_append.mp hother with hmem | hmem <;> simp [hmem]
  exact (hothers other hmem (hfits.fresh other hother)).symm

/-- Writing a range moves no other zoom. -/
theorem mem_setZoomRange {id : UInt64} {startSecs endSecs : Secs}
    (hset : setZoomRange zooms id startSecs endSecs = some zooms') :
    ∀ z ∈ zooms', z.id ≠ id → z ∈ zooms := by
  rcases BundleEditor.setZoomRange_cases zooms id startSecs endSecs with
    ⟨hnone, -⟩ | ⟨pre, zoom, post, rfl, rfl, hsome⟩
  · rw [hnone] at hset
    cases hset
  rw [hsome] at hset
  cases hset
  intro z hz hne
  rcases List.mem_append.mp hz with hz | hz
  · exact List.mem_append_left _ hz
  rcases List.mem_cons.mp hz with rfl | hz
  · exact absurd rfl hne
  · exact List.mem_append_right _ (List.mem_cons_of_mem _ hz)

end Zooms

/-! ## Drags of a zoom -/

/-- A zoom drag: its limits are on the timeline, no other zoom reaches between them, and a draft is
what a resize proposes. -/
structure ZoomDragWf (durationSecs : Secs) (zooms : List ZoomSegment) (drag : ZoomSegmentDrag) :
    Prop where
  low : 0 ≤ drag.minimumStartSecs
  minimum_le : drag.minimumStartSecs ≤ drag.originalStartSecs
  ordered : drag.originalStartSecs < drag.originalEndSecs
  le_maximum : drag.originalEndSecs ≤ drag.maximumEndSecs
  high : drag.maximumEndSecs ≤ durationSecs
  others : ∀ z ∈ zooms, z.id ≠ drag.id →
    z.endSecs ≤ drag.minimumStartSecs ∨ drag.maximumEndSecs ≤ z.startSecs
  draft : (drag.draftStartSecs, drag.draftEndSecs) =
      (drag.originalStartSecs, drag.originalEndSecs) ∨
    ∃ edge deltaSecs, drag.kind = .resize edge ∧ (drag.draftStartSecs, drag.draftEndSecs) =
      resizeZoomSegmentRange edge drag.originalStartSecs drag.originalEndSecs
        drag.minimumStartSecs drag.maximumEndSecs deltaSecs

/-- The dragged edge can come to rest inside its limits with 0.01 s of the zoom left. -/
def ZoomSegmentDrag.HasRoom (drag : ZoomSegmentDrag) : Prop :=
  (drag.kind = .resize .start → drag.minimumStartSecs ≤ drag.originalEndSecs - 1 / 100) ∧
    (drag.kind = .resize .end → drag.originalStartSecs + 1 / 100 ≤ drag.maximumEndSecs)

instance (drag : ZoomSegmentDrag) : Decidable drag.HasRoom := inferInstanceAs (Decidable (_ ∧ _))

section Drags

variable {durationSecs : Secs} {zooms zooms' : List ZoomSegment} {drag : ZoomSegmentDrag}

/-- A drag stays good while no other zoom moves or appears. -/
theorem ZoomDragWf.mono (h : ZoomDragWf durationSecs zooms drag)
    (hsub : ∀ z ∈ zooms', z.id ≠ drag.id → z ∈ zooms) : ZoomDragWf durationSecs zooms' drag :=
  { h with others := fun z hz hne => h.others z (hsub z hz hne) hne }

/-- A range within the limits of a drag is a range for its zoom. -/
theorem ZoomDragWf.setRange {range : Secs × Secs} (h : ZoomDragWf durationSecs zooms drag)
    (hzooms : ZoomsWf durationSecs zooms)
    (hset : setZoomRange zooms drag.id range.1 range.2 = some zooms') (hpositive : range.1 < range.2)
    (hlow : drag.minimumStartSecs ≤ range.1) (hhigh : range.2 ≤ drag.maximumEndSecs) :
    ZoomsWf durationSecs zooms' := by
  refine hzooms.setRange hset hpositive (h.low.trans hlow) (hhigh.trans h.high) ?_
  intro z hz hne
  exact (h.others z hz hne).imp (fun hle => hle.trans hlow) (fun hle => hhigh.trans hle)

/-- A moved zoom keeps its length and its limits. -/
theorem ZoomDragWf.moved (h : ZoomDragWf durationSecs zooms drag) (deltaSecs : Secs) :
    (movedZoomRange drag deltaSecs).1 < (movedZoomRange drag deltaSecs).2 ∧
      drag.minimumStartSecs ≤ (movedZoomRange drag deltaSecs).1 ∧
      (movedZoomRange drag deltaSecs).2 ≤ drag.maximumEndSecs := by
  have hordered := h.ordered
  have hmin := h.minimum_le
  have hmax := h.le_maximum
  simp only [movedZoomRange, clampSecs]
  rw [max_eq_left (show (0 : Secs) ≤ drag.originalEndSecs - drag.originalStartSecs by linarith),
    max_eq_left (show drag.minimumStartSecs ≤
      drag.maximumEndSecs - (drag.originalEndSecs - drag.originalStartSecs) by linarith)]
  refine ⟨by linarith, le_max_left _ _, ?_⟩
  have hstart : max drag.minimumStartSecs
      (min (drag.maximumEndSecs - (drag.originalEndSecs - drag.originalStartSecs))
        (drag.originalStartSecs + deltaSecs)) ≤
      drag.maximumEndSecs - (drag.originalEndSecs - drag.originalStartSecs) :=
    max_le (by linarith) (min_le_left _ _)
  linarith

/-- With room, a resized zoom is positive and keeps its limits. -/
theorem ZoomDragWf.resized (h : ZoomDragWf durationSecs zooms drag) (hroom : drag.HasRoom) :
    drag.draftStartSecs < drag.draftEndSecs ∧
      drag.minimumStartSecs ≤ drag.draftStartSecs ∧ drag.draftEndSecs ≤ drag.maximumEndSecs := by
  have hordered := h.ordered
  have hmin := h.minimum_le
  have hmax := h.le_maximum
  rcases h.draft with hdraft | ⟨edge, deltaSecs, hkind, hdraft⟩
  · obtain ⟨hstart, hend⟩ := Prod.mk.inj hdraft
    rw [hstart, hend]
    exact ⟨hordered, hmin, hmax⟩
  cases edge with
  | start =>
    obtain ⟨hstart, hend⟩ := Prod.mk.inj hdraft
    rw [hstart, hend]
    refine ⟨(min_le_right _ _).trans_lt (by norm_num), ?_, hmax⟩
    exact le_min (le_max_right _ _) (hroom.1 hkind)
  | «end» =>
    obtain ⟨hstart, hend⟩ := Prod.mk.inj hdraft
    rw [hstart, hend]
    refine ⟨lt_max_of_lt_right (by norm_num), hmin, ?_⟩
    exact max_le (min_le_right _ _) (hroom.2 hkind)

/-- A drag starts with the nearest other zooms, or the ends of the timeline, as its limits. -/
theorem zoomDragWf_new {editor : BundleEditor} {zoom : ZoomSegment}
    (h : ZoomsWf editor.durationSecs editor.bundle.zoomSegments)
    (hzoom : zoom ∈ editor.bundle.zoomSegments) (kind : ZoomSegmentDragKind) (x : ℚ) :
    ZoomDragWf editor.durationSecs editor.bundle.zoomSegments
      (editor.newZoomSegmentDrag zoom kind x) := by
  have hpositive := h.positive zoom hzoom
  obtain ⟨hlow, hhigh⟩ := h.within zoom hzoom
  refine ⟨?_, ?_, hpositive, ?_, ?_, ?_, .inl rfl⟩
  · refine @max?_getD_bound _ 0 (0 ≤ ·) (le_refl _) ?_
    intro t ht
    obtain ⟨z, hz, rfl⟩ := List.mem_map.mp ht
    have hz := List.mem_of_mem_filter hz
    exact (h.within z hz).1.trans (h.positive z hz).le
  · refine @max?_getD_bound _ 0 (· ≤ zoom.startSecs) hlow ?_
    intro t ht
    obtain ⟨z, hz, rfl⟩ := List.mem_map.mp ht
    have hbeside := (List.mem_filter.mp hz).2
    rw [Bool.and_eq_true, decide_eq_true_iff] at hbeside
    exact hbeside.2
  · refine @min?_getD_bound _ editor.durationSecs (zoom.endSecs ≤ ·) hhigh ?_
    intro t ht
    obtain ⟨z, hz, rfl⟩ := List.mem_map.mp ht
    have hbeside := (List.mem_filter.mp hz).2
    rw [Bool.and_eq_true, decide_eq_true_iff] at hbeside
    exact hbeside.2
  · refine @min?_getD_bound _ editor.durationSecs (· ≤ editor.durationSecs) (le_refl _) ?_
    intro t ht
    obtain ⟨z, hz, rfl⟩ := List.mem_map.mp ht
    have hz := List.mem_of_mem_filter hz
    exact (h.positive z hz).le.trans (h.within z hz).2
  · intro z hz hne
    -- two different zooms are apart, and the nearer end of the other is among those collected
    have hne' : z ≠ zoom := fun heq => hne (congrArg ZoomSegment.id heq)
    rcases h.disjoint.forall hz hzoom hne' with hbefore | hafter
    · refine .inl (le_max?_getD (List.mem_map_of_mem (List.mem_filter.mpr ⟨hz, ?_⟩)) 0)
      rw [Bool.and_eq_true, decide_eq_true_iff]
      exact ⟨bne_iff_ne.mpr hne, hbefore⟩
    · refine .inr (min?_getD_le (List.mem_map_of_mem (List.mem_filter.mpr ⟨hz, ?_⟩)) _)
      rw [Bool.and_eq_true, decide_eq_true_iff]
      exact ⟨bne_iff_ne.mpr hne, hafter⟩

end Drags

end Blip.Capture
