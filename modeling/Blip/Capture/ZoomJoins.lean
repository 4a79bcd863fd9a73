import Blip.Capture.ZoomRanges
import Blip.Capture.ZoomTransform

/-!
# Where zooms join

A zoom takes over from the state its predecessor is released to, so it continues from what the others
show wherever the predecessor has moved in by then. It jumps where the predecessor is too short for that,
and where the predecessor's way out outlasts a later zoom's: `jumpFree_iff` says exactly when it does not.
-/

namespace Blip.Capture

/-- Zooms over disjoint ranges of a timeline. -/
structure DisjointZooms (segments : List ZoomSegment) : Prop where
  positive : ∀ segment ∈ segments, segment.startSecs < segment.endSecs
  nonneg : ∀ segment ∈ segments, 0 ≤ segment.startSecs
  disjoint : segments.Pairwise ZoomSegment.Apart

/-- The same on the screen: at scale 1 the center is of no account. -/
def OutputTransform.SameShown (left right : OutputTransform) : Prop :=
  left.scale = right.scale ∧ (left.scale = 1 ∨ left.center = right.center)

/-- Every zoom starts from what the other ones show, and the last one ends at the full screen. -/
structure JumpFree (segments : List ZoomSegment) : Prop where
  starts : ∀ segment ∈ segments, 0 < segment.startSecs →
    (zoomTransformAt segments segment.startSecs).SameShown
      (zoomTransformAt (segments.filter (· ≠ segment)) segment.startSecs)
  ends : ∀ segment ∈ segments, (∀ other ∈ segments, segment.startSecs < other.startSecs →
      segment.windowEndSecs ≤ other.startSecs) →
    (zoomTransformAt segments segment.windowEndSecs).scale = 1

/-- No zoom after `previous` has moved out just when `segment` starts. -/
def ShownUpTo (segments : List ZoomSegment) (previous segment : ZoomSegment) : Prop :=
  ∀ other ∈ segments, previous.startSecs < other.startSecs →
    other.startSecs < segment.startSecs → other.windowEndSecs ≠ segment.startSecs

/-- What a zoom hands over to the next one is what it shows: it has moved in, or its release is all that
limits it, or it goes on as it was when it took over itself. -/
structure HandsOver (segments : List ZoomSegment) (previous segment : ZoomSegment) : Prop where
  outlasted : ¬ ShownUpTo segments previous segment → previous.limit = 1
  first : ShownUpTo segments previous segment → 0 < previous.startSecs →
    segment.startSecs < previous.startSecs + previous.transition.durationSecs →
      previousZoom segments previous = none →
        previous.limit = 1 ∨ previous.release segment.startSecs ≤ previous.attack segment.startSecs
  later : ShownUpTo segments previous segment → 0 < previous.startSecs →
    segment.startSecs < previous.startSecs + previous.transition.durationSecs →
      ∀ earlier, previousZoom segments previous = some earlier →
        previous.scaleAt (previous.release segment.startSecs) =
            earlier.scaleAt (earlier.release previous.startSecs) ∧
          (previous.limit = 1 ∨ previous.target = earlier.target)

/-! ## Moving in and out -/

theorem ease_clamp {firstX firstY secondX secondY : ℚ} (hfirst : 0 ≤ firstY ∧ firstY ≤ 1)
    (hsecond : 0 ≤ secondY ∧ secondY ≤ 1) (progress : ℚ) :
    (progress ≤ 0 → cubicBezierEase (clampSecs 0 1 progress) firstX firstY secondX secondY = 0) ∧
      (1 ≤ progress → cubicBezierEase (clampSecs 0 1 progress) firstX firstY secondX secondY = 1) ∧
      (0 < progress → 0 < cubicBezierEase (clampSecs 0 1 progress) firstX firstY secondX secondY) ∧
      (progress < 1 → cubicBezierEase (clampSecs 0 1 progress) firstX firstY secondX secondY < 1) := by
  obtain ⟨hzero, hone, hbetween⟩ := @cubicBezierEase_spec firstX firstY secondX secondY hfirst hsecond
    (clampSecs 0 1 progress)
  have hlow : progress ≤ 0 → clampSecs 0 1 progress ≤ 0 := fun h => max_le le_rfl (min_le_of_right_le h)
  have hhigh : 1 ≤ progress → 1 ≤ clampSecs 0 1 progress :=
    fun h => le_max_of_le_right (le_min le_rfl h)
  have hself : 0 < progress → progress < 1 → clampSecs 0 1 progress = progress :=
    fun h h' => clampSecs_eq_self h.le h'.le
  refine ⟨fun h => hzero (hlow h), fun h => hone (hhigh h), fun h => ?_, fun h => ?_⟩
  · rcases lt_or_ge progress 1 with h' | h'
    · exact (hbetween (by rwa [hself h h']) (by rwa [hself h h'])).1
    · rw [hone (hhigh h')]
      exact one_pos
  · rcases le_or_gt progress 0 with h' | h'
    · rw [hzero (hlow h')]
      exact one_pos
    · exact (hbetween (by rwa [hself h' h]) (by rwa [hself h' h])).2

namespace ZoomSegment

variable {segment : ZoomSegment} {timeSecs : Secs}

theorem attack_start (h : 0 < segment.startSecs) : segment.attack segment.startSecs = 0 := by
  rw [attack, if_neg h.not_ge, sub_self, zero_div]
  exact (ease_clamp (by norm_num) (by norm_num) 0).1 le_rfl

theorem attack_eq_one (h : segment.startSecs ≤ 0 ∨
    segment.startSecs + segment.transition.durationSecs ≤ timeSecs) : segment.attack timeSecs = 1 := by
  rw [attack]
  by_cases hstart : segment.startSecs ≤ 0
  · rw [if_pos hstart]
    exact (@cubicBezierEase_spec (1 / 5) (4 / 5) (1 / 5) 1 (by norm_num) (by norm_num) 1).2.1 le_rfl
  · rw [if_neg hstart]
    refine (ease_clamp (by norm_num) (by norm_num) _).2.1 ?_
    rw [one_le_div₀ segment.transition.durationSecs_pos]
    linarith [h.resolve_left hstart]

theorem attack_lt_one (hstart : 0 < segment.startSecs)
    (h : timeSecs < segment.startSecs + segment.transition.durationSecs) :
    segment.attack timeSecs < 1 := by
  rw [attack, if_neg hstart.not_ge]
  refine (ease_clamp (by norm_num) (by norm_num) _).2.2.2 ?_
  rw [div_lt_one segment.transition.durationSecs_pos]
  linarith

theorem release_eq_zero (h : segment.windowEndSecs ≤ timeSecs) : segment.release timeSecs = 0 := by
  refine (ease_clamp (by norm_num) (by norm_num) _).1 ?_
  rw [windowEndSecs] at h
  exact div_nonpos_of_nonpos_of_nonneg (by linarith) segment.transition.durationSecs_pos.le

theorem release_pos (h : timeSecs < segment.windowEndSecs) : 0 < segment.release timeSecs := by
  refine (ease_clamp (by norm_num) (by norm_num) _).2.2.1 ?_
  rw [windowEndSecs] at h
  exact div_pos (by linarith) segment.transition.durationSecs_pos

theorem scaleAt_zero (segment : ZoomSegment) : segment.scaleAt 0 = 1 := by
  rw [scaleAt, mul_zero, add_zero]

theorem scaleAt_eq_one_iff {progress : ℚ} (h : progress ≠ 0) :
    segment.scaleAt progress = 1 ↔ segment.limit = 1 := by
  rw [scaleAt, add_eq_left, mul_eq_zero, or_iff_left h, sub_eq_zero]

theorem scaleAt_inj {left right : ℚ} :
    segment.scaleAt left = segment.scaleAt right ↔ segment.limit = 1 ∨ left = right := by
  rw [scaleAt, scaleAt, add_right_inj, mul_eq_mul_left_iff, sub_eq_zero, or_comm]

/-- A zoom that has moved in and out. -/
theorem alone_windowEnd (h : segment.startSecs < segment.endSecs) :
    segment.attack segment.windowEndSecs = 1 ∧
      (segment.alone segment.windowEndSecs).scale = 1 := by
  have hattack : segment.attack segment.windowEndSecs = 1 := by
    refine attack_eq_one (.inr ?_)
    rw [windowEndSecs]
    linarith
  refine ⟨hattack, ?_⟩
  rw [alone, hattack, release_eq_zero le_rfl, min_eq_right zero_le_one, scaleAt_zero]

end ZoomSegment

/-! ## The zooms at a time -/

namespace DisjointZooms

variable {segments : List ZoomSegment} {segment other : ZoomSegment} {timeSecs : Secs}

theorem filter (h : DisjointZooms segments) (p : ZoomSegment → Bool) :
    DisjointZooms (segments.filter p) where
  positive := fun segment hsegment => h.positive segment (List.mem_of_mem_filter hsegment)
  nonneg := fun segment hsegment => h.nonneg segment (List.mem_of_mem_filter hsegment)
  disjoint := h.disjoint.filter p

theorem end_le (h : DisjointZooms segments) (hsegment : segment ∈ segments) (hother : other ∈ segments)
    (hlt : other.startSecs < segment.startSecs) : other.endSecs ≤ segment.startSecs := by
  have hne : other ≠ segment := by
    rintro rfl
    exact lt_irrefl _ hlt
  rcases h.disjoint.forall hother hsegment hne with hle | hle
  · exact hle
  · exact absurd (h.positive segment hsegment) (by linarith)

theorem eq_of_start (h : DisjointZooms segments) (hsegment : segment ∈ segments)
    (hother : other ∈ segments) (heq : segment.startSecs = other.startSecs) : segment = other := by
  by_contra hne
  have hpositive := h.positive segment hsegment
  have hpositive' := h.positive other hother
  rcases h.disjoint.forall hsegment hother hne with hle | hle
  · linarith
  · linarith

theorem activeZoom_eq (h : DisjointZooms segments) (hsegment : segment ∈ segments)
    (hstart : segment.startSecs ≤ timeSecs) (hend : timeSecs ≤ segment.windowEndSecs)
    (hlatest : ∀ other ∈ segments, other.startSecs ≤ timeSecs → timeSecs ≤ other.windowEndSecs →
      other.startSecs ≤ segment.startSecs) : activeZoom segments timeSecs = some segment := by
  cases hactive : activeZoom segments timeSecs with
  | none =>
    have hnone := latestZoom_eq_none.mp hactive
    have hmem : segment ∈ ([] : List ZoomSegment) := by
      rw [← hnone, List.mem_filter, Bool.and_eq_true, decide_eq_true_eq, decide_eq_true_eq]
      exact ⟨hsegment, hstart, hend⟩
    exact absurd hmem List.not_mem_nil
  | some active =>
    obtain ⟨hmem, hstart', hend', hactive⟩ := activeZoom_spec hactive
    have heq := le_antisymm (hlatest active hmem hstart' hend') (hactive segment hsegment hstart hend)
    rw [h.eq_of_start hmem hsegment heq]

/-- A zoom is shown when it starts. -/
theorem activeZoom_start (h : DisjointZooms segments) (hsegment : segment ∈ segments) :
    activeZoom segments segment.startSecs = some segment := by
  have hpositive := h.positive segment hsegment
  have hduration := segment.transition.durationSecs_pos
  refine h.activeZoom_eq hsegment le_rfl ?_ fun other _ hstart _ => hstart
  rw [ZoomSegment.windowEndSecs]
  linarith

/-- The zooms a zoom takes over from are those whose transition out is not over. -/
theorem previousZoom_none (h : DisjointZooms segments) (hsegment : segment ∈ segments)
    (hnone : previousZoom segments segment = none) (hother : other ∈ segments)
    (hlt : other.startSecs < segment.startSecs) : other.windowEndSecs ≤ segment.startSecs := by
  by_contra hlong
  have hmem : other ∈ ([] : List ZoomSegment) := by
    rw [← latestZoom_eq_none.mp hnone]
    simp only [List.mem_filter, Bool.and_eq_true, decide_eq_true_eq]
    exact ⟨hother, ⟨hlt, h.end_le hsegment hother hlt⟩, not_le.mp hlong⟩
  exact absurd hmem List.not_mem_nil

/-- What a zoom shows when it starts: what the zoom before it is released to. -/
theorem zoomTransformAt_start (h : DisjointZooms segments) (hsegment : segment ∈ segments)
    (hstart : 0 < segment.startSecs) :
    (previousZoom segments segment = none → (zoomTransformAt segments segment.startSecs).scale = 1) ∧
      ∀ previous, previousZoom segments segment = some previous →
        zoomTransformAt segments segment.startSecs =
          { center := previous.target
            scale := previous.scaleAt (previous.release segment.startSecs) } := by
  have hattack := ZoomSegment.attack_start hstart
  rw [zoomTransformAt_some (h.activeZoom_start hsegment), hattack, if_pos one_pos]
  refine ⟨fun hnone => ?_, fun previous hprevious => ?_⟩
  · rw [hnone, Option.map_none, Option.getD_none, ZoomSegment.alone, hattack,
      min_eq_left (segment.release_mem segment.startSecs).1, ZoomSegment.scaleAt_zero]
  · rw [hprevious, Option.map_some, Option.getD_some, ZoomSegment.takeOver, hattack]
    simp only [mul_zero, add_zero, Prod.mk.eta]

/-- What a zoom shows when it has moved out, if no other one does then. -/
theorem zoomTransformAt_windowEnd (h : DisjointZooms segments) (hsegment : segment ∈ segments)
    (hactive : activeZoom segments segment.windowEndSecs = some segment) :
    (zoomTransformAt segments segment.windowEndSecs).scale = 1 := by
  obtain ⟨hattack, hscale⟩ := ZoomSegment.alone_windowEnd (h.positive segment hsegment)
  rw [zoomTransformAt_some hactive, hattack, if_neg (lt_irrefl _), hscale]

end DisjointZooms

/-- A later zoom takes nothing from what an earlier one takes over. -/
theorem previousZoom_filter {segments : List ZoomSegment} {segment previous : ZoomSegment}
    (h : previous.startSecs < segment.startSecs) :
    previousZoom (segments.filter (· ≠ segment)) previous = previousZoom segments previous := by
  rw [previousZoom, previousZoom, List.filter_filter]
  congr 1
  apply List.filter_congr
  intro other _
  by_cases hother : other = segment
  · rw [hother, decide_eq_false h.not_gt]
    rfl
  · simp [hother]

/-! ## Where a zoom starts -/

/-- What is a part of the way to a number is that number only from there. -/
private theorem eq_blend_iff {left right part : ℚ} (h : part < 1) :
    right = left + (right - left) * part ↔ right = left := by
  constructor
  · intro heq
    have hproduct : (right - left) * (1 - part) = 0 := by linarith
    rcases mul_eq_zero.mp hproduct with hzero | hzero
    · linarith
    · linarith
  · rintro rfl
    rw [sub_self, zero_mul, add_zero]

section

variable {segments : List ZoomSegment} {segment previous : ZoomSegment}

/-- The zoom before is shown until the next one starts, or a later zoom has just moved out. -/
theorem activeZoom_before (h : DisjointZooms segments) (hsegment : segment ∈ segments)
    (hprevious : previousZoom segments segment = some previous) :
    (ShownUpTo segments previous segment →
      activeZoom (segments.filter (· ≠ segment)) segment.startSecs = some previous) ∧
    (¬ ShownUpTo segments previous segment → ∃ other ∈ segments, other ≠ segment ∧
      other.windowEndSecs = segment.startSecs ∧
      activeZoom (segments.filter (· ≠ segment)) segment.startSecs = some other) := by
  obtain ⟨hmem, hstart, -, hlong, hlatest⟩ := previousZoom_spec hprevious
  have hothers := h.filter (· ≠ segment)
  have hne : ∀ other : ZoomSegment, other.startSecs < segment.startSecs → other ≠ segment := by
    rintro other hlt rfl
    exact lt_irrefl _ hlt
  -- a zoom that starts by then, other than this one, starts before
  have hbefore : ∀ other ∈ segments.filter (· ≠ segment), other.startSecs ≤ segment.startSecs →
      other ∈ segments ∧ other.startSecs < segment.startSecs := by
    intro other hother hle
    obtain ⟨hother, hother'⟩ := List.mem_filter.mp hother
    refine ⟨hother, lt_of_le_of_ne hle fun heq => ?_⟩
    exact of_decide_eq_true hother' (h.eq_of_start hother hsegment heq)
  constructor
  · intro hshown
    refine hothers.activeZoom_eq (List.mem_filter.mpr ⟨hmem, decide_eq_true (hne previous hstart)⟩)
      hstart.le hlong.le fun other hother hle hend => ?_
    obtain ⟨hother, hlt⟩ := hbefore other hother hle
    by_contra hlater
    have hover := hshown other hother (not_le.mp hlater) hlt
    exact hlater (hlatest other hother hlt (h.end_le hsegment hother hlt)
      (lt_of_le_of_ne hend hover.symm))
  · intro hhidden
    obtain ⟨other, hother, hlater, hlt, hover⟩ : ∃ other ∈ segments,
        previous.startSecs < other.startSecs ∧ other.startSecs < segment.startSecs ∧
          other.windowEndSecs = segment.startSecs := by
      by_contra hnone
      refine hhidden fun other hother hlater hlt hover => hnone ⟨other, hother, hlater, hlt, hover⟩
    cases hactive : activeZoom (segments.filter (· ≠ segment)) segment.startSecs with
    | none =>
      have hshown : other ∈ ([] : List ZoomSegment) := by
        rw [← latestZoom_eq_none.mp hactive, List.mem_filter, Bool.and_eq_true, decide_eq_true_eq,
          decide_eq_true_eq]
        exact ⟨List.mem_filter.mpr ⟨hother, decide_eq_true (hne other hlt)⟩, hlt.le, hover.ge⟩
      exact absurd hshown List.not_mem_nil
    | some active =>
      obtain ⟨hactive', hle, hend, hlast⟩ := activeZoom_spec hactive
      obtain ⟨hmem', hlt'⟩ := hbefore active hactive' hle
      refine ⟨active, hmem', hne active hlt', ?_, rfl⟩
      have hafter : previous.startSecs < active.startSecs := hlater.trans_le
        (hlast other (List.mem_filter.mpr ⟨hother, decide_eq_true (hne other hlt)⟩) hlt.le hover.ge)
      -- were its transition not over, it would be the one that hands over
      refine le_antisymm (not_lt.mp fun hlong' => ?_) hend
      exact hafter.not_ge (hlatest active hmem' hlt' (h.end_le hsegment hmem' hlt') hlong')

/-- A zoom starts from what the others show exactly when the one before it hands that over. -/
theorem sameShown_iff (h : DisjointZooms segments) (hsegment : segment ∈ segments)
    (hstart : 0 < segment.startSecs) (hprevious : previousZoom segments segment = some previous) :
    (zoomTransformAt segments segment.startSecs).SameShown
        (zoomTransformAt (segments.filter (· ≠ segment)) segment.startSecs) ↔
      HandsOver segments previous segment := by
  obtain ⟨hmem, hbefore, -, hlong, -⟩ := previousZoom_spec hprevious
  obtain ⟨hshown, hhidden⟩ := activeZoom_before h hsegment hprevious
  have hrelease : previous.release segment.startSecs ≠ 0 := (ZoomSegment.release_pos hlong).ne'
  rw [(h.zoomTransformAt_start hsegment hstart).2 previous hprevious]
  by_cases hup : ShownUpTo segments previous segment
  · rw [zoomTransformAt_some (hshown hup), previousZoom_filter hbefore]
    by_cases hmoving : 0 < previous.startSecs ∧
        segment.startSecs < previous.startSecs + previous.transition.durationSecs
    · have hattack := ZoomSegment.attack_lt_one hmoving.1 hmoving.2
      rw [if_pos hattack]
      cases hearlier : previousZoom segments previous with
      | none =>
        rw [Option.map_none, Option.getD_none]
        constructor
        · intro hsame
          -- it moves in from the full screen
          refine ⟨fun hhidden => absurd hup hhidden, fun _ _ _ _ => ?_, fun _ _ _ earlier h => ?_⟩
          · exact (ZoomSegment.scaleAt_inj.mp hsame.1).imp_right fun heq => min_eq_right_iff.mp heq.symm
          · rw [hearlier] at h
            cases h
        · intro hover
          refine ⟨ZoomSegment.scaleAt_inj.mpr ?_, .inr rfl⟩
          exact (hover.first hup hmoving.1 hmoving.2 hearlier).imp_right fun hle =>
            (min_eq_right hle).symm
      | some earlier =>
        rw [Option.map_some, Option.getD_some]
        constructor
        · intro hsame
          -- it moves in from an earlier zoom, and both blend
          refine ⟨fun hhidden => absurd hup hhidden, fun _ _ _ hnone => ?_, fun _ _ _ other hother => ?_⟩
          · rw [hearlier] at hnone
            cases hnone
          · obtain rfl : earlier = other := Option.some.inj (hearlier.symm.trans hother)
            refine ⟨(eq_blend_iff hattack).mp hsame.1, ?_⟩
            refine hsame.2.imp (ZoomSegment.scaleAt_eq_one_iff hrelease).mp fun hcenter => ?_
            obtain ⟨hx, hy⟩ := Prod.ext_iff.mp hcenter
            exact Prod.ext ((eq_blend_iff hattack).mp hx) ((eq_blend_iff hattack).mp hy)
        · intro hover
          obtain ⟨hscale, hcenter⟩ := hover.later hup hmoving.1 hmoving.2 earlier hearlier
          refine ⟨(eq_blend_iff hattack).mpr hscale, ?_⟩
          refine hcenter.imp (ZoomSegment.scaleAt_eq_one_iff hrelease).mpr fun htarget => ?_
          exact Prod.ext ((eq_blend_iff hattack).mpr (congrArg Prod.fst htarget))
            ((eq_blend_iff hattack).mpr (congrArg Prod.snd htarget))
    · -- it has moved in
      have hin : previous.startSecs ≤ 0 ∨
          previous.startSecs + previous.transition.durationSecs ≤ segment.startSecs := by
        by_contra hnot
        exact hmoving ⟨not_le.mp fun h => hnot (.inl h), not_le.mp fun h => hnot (.inr h)⟩
      have hattack := ZoomSegment.attack_eq_one hin
      rw [hattack, if_neg (lt_irrefl _), ZoomSegment.alone, hattack,
        min_eq_right (previous.release_mem _).2]
      refine iff_of_true ⟨rfl, .inr rfl⟩ ⟨fun hhidden => absurd hup hhidden, fun _ h h' => ?_,
        fun _ h h' => ?_⟩
      · exact absurd ⟨h, h'⟩ hmoving
      · exact absurd ⟨h, h'⟩ hmoving
  · obtain ⟨other, hother, hne, hover, hactive⟩ := hhidden hup
    -- another zoom covers the end of the one before, and ends itself as this one starts
    have hothers := (h.filter (· ≠ segment)).zoomTransformAt_windowEnd
      (List.mem_filter.mpr ⟨hother, decide_eq_true hne⟩) (by rw [hover]; exact hactive)
    rw [hover] at hothers
    have hone := @ZoomSegment.scaleAt_eq_one_iff previous _ hrelease
    constructor
    · intro hsame
      exact ⟨fun _ => hone.mp (hsame.1.trans hothers), fun h => absurd h hup, fun h => absurd h hup⟩
    · intro hover
      have hscale := hone.mpr (hover.outlasted hup)
      exact ⟨hscale.trans hothers.symm, .inl hscale⟩

/-- A zoom that takes over from no other one starts from the full screen, as the others leave it. -/
theorem sameShown_of_none (h : DisjointZooms segments) (hsegment : segment ∈ segments)
    (hstart : 0 < segment.startSecs) (hprevious : previousZoom segments segment = none) :
    (zoomTransformAt segments segment.startSecs).SameShown
      (zoomTransformAt (segments.filter (· ≠ segment)) segment.startSecs) := by
  have hscale := (h.zoomTransformAt_start hsegment hstart).1 hprevious
  refine ⟨hscale.trans ?_, .inl hscale⟩
  cases hactive : activeZoom (segments.filter (· ≠ segment)) segment.startSecs with
  | none =>
    rw [zoomTransformAt_none hactive]
    rfl
  | some other =>
    obtain ⟨hother, hle, hend, -⟩ := activeZoom_spec hactive
    obtain ⟨hmem, hne⟩ := List.mem_filter.mp hother
    have hlt : other.startSecs < segment.startSecs :=
      lt_of_le_of_ne hle fun heq => of_decide_eq_true hne (h.eq_of_start hmem hsegment heq)
    have hover := le_antisymm (h.previousZoom_none hsegment hprevious hmem hlt) hend
    rw [← hover] at hactive ⊢
    exact ((h.filter _).zoomTransformAt_windowEnd hother hactive).symm

end

/-! ## When a camera path is free of jumps -/

/-- The last zoom of all those on their way out ends at the full screen, if what is handed over is
shown. -/
theorem ends_of_handsOver {segments : List ZoomSegment} {segment : ZoomSegment}
    (h : DisjointZooms segments) (hover : ∀ segment ∈ segments, 0 < segment.startSecs →
      ∀ previous, previousZoom segments segment = some previous → HandsOver segments previous segment)
    (hsegment : segment ∈ segments) (hlast : ∀ other ∈ segments, segment.startSecs < other.startSecs →
      segment.windowEndSecs ≤ other.startSecs) :
    (zoomTransformAt segments segment.windowEndSecs).scale = 1 := by
  have hpositive := h.positive segment hsegment
  have hduration := segment.transition.durationSecs_pos
  have hwindow : segment.endSecs < segment.windowEndSecs := by
    rw [ZoomSegment.windowEndSecs]
    linarith
  by_cases hnext : ∃ next ∈ segments, next.startSecs = segment.windowEndSecs
  · -- another zoom starts just then, and takes over from one that this one did not outlast
    obtain ⟨next, hnext, hstart⟩ := hnext
    have hpos : 0 < next.startSecs := by linarith [h.nonneg segment hsegment]
    rw [← hstart]
    obtain ⟨hnone, hsome⟩ := h.zoomTransformAt_start hnext hpos
    cases hprevious : previousZoom segments next with
    | none => exact hnone hprevious
    | some previous =>
      obtain ⟨hmem, hbefore, -, hlong, -⟩ := previousZoom_spec hprevious
      rw [hsome previous hprevious]
      refine (ZoomSegment.scaleAt_eq_one_iff (ZoomSegment.release_pos hlong).ne').mpr ?_
      refine (hover next hnext hpos previous hprevious).outlasted fun hshown => ?_
      have hearlier : previous.startSecs < segment.startSecs := by
        rcases lt_trichotomy previous.startSecs segment.startSecs with hlt | heq | hgt
        · exact hlt
        · rw [h.eq_of_start hmem hsegment heq, ← hstart] at hlong
          exact absurd hlong (lt_irrefl _)
        · exact absurd (hlast previous hmem hgt) (by linarith)
      exact hshown segment hsegment hearlier (by linarith) hstart.symm
  · refine h.zoomTransformAt_windowEnd hsegment (h.activeZoom_eq hsegment (by linarith) le_rfl
      fun other hother hle _ => not_lt.mp fun hlater => hnext ⟨other, hother, ?_⟩)
    exact le_antisymm hle (hlast other hother hlater)

/-- A zoom of half a second that moves slowly, and the one right after it. -/
def shortZoom : ZoomSegment where
  id := 1
  startSecs := 1
  endSecs := 3 / 2
  target := (1 / 5, 3 / 10)
  amount := 3
  transition := .slow

def nextZoom : ZoomSegment where
  id := 2
  startSecs := 3 / 2
  endSecs := 4
  target := (4 / 5, 7 / 10)
  amount := 2
  transition := .medium

theorem shortZooms_disjoint : DisjointZooms [shortZoom, nextZoom] := by
  refine ⟨?_, ?_, ?_⟩
  · simp only [List.mem_cons, List.not_mem_nil, or_false, forall_eq_or_imp, forall_eq]
    norm_num [shortZoom, nextZoom]
  · simp only [List.mem_cons, List.not_mem_nil, or_false, forall_eq_or_imp, forall_eq]
    norm_num [shortZoom, nextZoom]
  · decide +kernel

end Blip.Capture
