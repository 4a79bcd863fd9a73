import Blip.Capture.ContentRects
import Blip.Capture.PreviewRequests
import Blip.Common.Bisection
import Blip.Common.CubicBezier

/-!
# Easing

`cubic_bezier_ease` looks for the parameter at which a curve is as far along as the progress, by halving
the unit interval sixteen times, and eases by the curve's other coordinate there. The halving ends
further right for more progress, whatever the curve, and the exact parameter is in the interval that is
left.
-/

namespace Blip.Capture

/-! ## The parameter -/

theorem cubicBezierCoordinate_eq (parameter first second : ℚ) :
    cubicBezierCoordinate parameter first second = bezier first second parameter := rfl

theorem cubicBezierBisect_eq (progress firstX secondX : ℚ) (steps : ℕ) (low high : ℚ) :
    cubicBezierBisect progress firstX secondX steps low high =
      bisect (fun parameter => bezier firstX secondX parameter < progress) steps low high := by
  induction steps generalizing low high with
  | zero => rfl
  | succ steps ih =>
    rw [cubicBezierBisect, bisect_succ, ih, ih, cubicBezierCoordinate_eq]

/-- The interval that is left, when the progress is between the ends. -/
def easedRange (progress firstX secondX : ℚ) : ℚ × ℚ :=
  bisect (fun parameter => bezier firstX secondX parameter < progress) 16 0 1

/-- The parameter that the curve is taken at: the middle of the interval. -/
def easedParameter (progress firstX secondX : ℚ) : ℚ :=
  ((easedRange progress firstX secondX).1 + (easedRange progress firstX secondX).2) * (1 / 2)

section

variable {progress progress' firstX firstY secondX secondY : ℚ}

theorem cubicBezierEase_eq (h : 0 < progress) (h' : progress < 1) :
    cubicBezierEase progress firstX firstY secondX secondY =
      bezier firstY secondY (easedParameter progress firstX secondX) := by
  rw [cubicBezierEase, clampSecs_eq_self h.le h'.le]
  dsimp only
  rw [if_neg (not_or.mpr ⟨h.ne', h'.ne⟩), cubicBezierBisect_eq, cubicBezierCoordinate_eq]
  rfl

theorem clampSecs_of_nonpos (h : progress ≤ 0) : clampSecs 0 1 progress = 0 := by
  rw [clampSecs, min_eq_right (h.trans zero_le_one), max_eq_left h]

theorem clampSecs_of_one_le (h : 1 ≤ progress) : clampSecs 0 1 progress = 1 := by
  rw [clampSecs, min_eq_left h, max_eq_right zero_le_one]

theorem cubicBezierEase_of_nonpos (h : progress ≤ 0) :
    cubicBezierEase progress firstX firstY secondX secondY = 0 := by
  rw [cubicBezierEase, clampSecs_of_nonpos h]
  exact if_pos (.inl rfl)

theorem cubicBezierEase_of_one_le (h : 1 ≤ progress) :
    cubicBezierEase progress firstX firstY secondX secondY = 1 := by
  rw [cubicBezierEase, clampSecs_of_one_le h]
  exact if_pos (.inr rfl)

theorem easedParameter_mem (progress firstX secondX : ℚ) :
    0 < easedParameter progress firstX secondX ∧ easedParameter progress firstX secondX < 1 := by
  obtain ⟨hlow, hapart, hhigh⟩ := bisect_bounds
    (fun parameter => bezier firstX secondX parameter < progress) 16 (zero_lt_one' ℚ)
  rw [easedParameter, easedRange]
  exact ⟨by linarith, by linarith⟩

/-- More progress is at a later parameter. -/
theorem easedParameter_mono (h : progress ≤ progress') :
    easedParameter progress firstX secondX ≤ easedParameter progress' firstX secondX := by
  obtain ⟨hlow, hhigh⟩ := bisect_mono
    (fun parameter (hbelow : bezier firstX secondX parameter < progress) => hbelow.trans_le h) 16
    (zero_lt_one' ℚ)
  rw [easedParameter, easedParameter, easedRange, easedRange]
  linarith

/-! ## Values -/

/-- Easing keeps the ends, and what is between them between them. -/
theorem cubicBezierEase_spec (hfirst : 0 ≤ firstY ∧ firstY ≤ 1) (hsecond : 0 ≤ secondY ∧ secondY ≤ 1)
    (progress : ℚ) :
    (progress ≤ 0 → cubicBezierEase progress firstX firstY secondX secondY = 0) ∧
      (1 ≤ progress → cubicBezierEase progress firstX firstY secondX secondY = 1) ∧
      (0 < progress → progress < 1 → 0 < cubicBezierEase progress firstX firstY secondX secondY ∧
        cubicBezierEase progress firstX firstY secondX secondY < 1) := by
  refine ⟨cubicBezierEase_of_nonpos, cubicBezierEase_of_one_le, fun h h' => ?_⟩
  obtain ⟨hpos, hlt⟩ := easedParameter_mem progress firstX secondX
  have hmono := bezier_strictMonoOn hfirst hsecond
  have hlow := hmono ⟨le_rfl, zero_le_one⟩ ⟨hpos.le, hlt.le⟩ hpos
  have hhigh := hmono ⟨hpos.le, hlt.le⟩ ⟨zero_le_one, le_rfl⟩ hlt
  rw [bezier_zero] at hlow
  rw [bezier_one] at hhigh
  rw [cubicBezierEase_eq h h']
  exact ⟨hlow, hhigh⟩

theorem cubicBezierEase_mem (hfirst : 0 ≤ firstY ∧ firstY ≤ 1) (hsecond : 0 ≤ secondY ∧ secondY ≤ 1)
    (progress : ℚ) : 0 ≤ cubicBezierEase progress firstX firstY secondX secondY ∧
      cubicBezierEase progress firstX firstY secondX secondY ≤ 1 := by
  obtain ⟨hzero, hone, hbetween⟩ := @cubicBezierEase_spec firstX firstY secondX secondY hfirst hsecond
    progress
  rcases le_or_gt progress 0 with h | h
  · rw [hzero h]
    exact ⟨le_rfl, zero_le_one⟩
  · rcases le_or_gt 1 progress with h' | h'
    · rw [hone h']
      exact ⟨zero_le_one, le_rfl⟩
    · exact ⟨(hbetween h h').1.le, (hbetween h h').2.le⟩

/-- Easing never goes back. -/
theorem cubicBezierEase_mono (hfirst : 0 ≤ firstY ∧ firstY ≤ 1) (hsecond : 0 ≤ secondY ∧ secondY ≤ 1)
    (h : progress ≤ progress') : cubicBezierEase progress firstX firstY secondX secondY ≤
      cubicBezierEase progress' firstX firstY secondX secondY := by
  rcases le_or_gt progress 0 with hlow | hlow
  · rw [cubicBezierEase_of_nonpos hlow]
    exact (cubicBezierEase_mem hfirst hsecond progress').1
  rcases le_or_gt 1 progress' with hhigh | hhigh
  · rw [cubicBezierEase_of_one_le hhigh]
    exact (cubicBezierEase_mem hfirst hsecond progress).2
  rw [cubicBezierEase_eq hlow (h.trans_lt hhigh), cubicBezierEase_eq (hlow.trans_le h) hhigh]
  obtain ⟨hpos, hlt⟩ := easedParameter_mem progress firstX secondX
  obtain ⟨hpos', hlt'⟩ := easedParameter_mem progress' firstX secondX
  exact (bezier_strictMonoOn hfirst hsecond).monotoneOn ⟨hpos.le, hlt.le⟩ ⟨hpos'.le, hlt'.le⟩
    (easedParameter_mono h)

/-! ## The exact curve -/

theorem cast_mem {value : ℚ} (h : 0 ≤ value ∧ value ≤ 1) : (value : ℝ) ∈ Set.Icc 0 1 :=
  ⟨by exact_mod_cast h.1, by exact_mod_cast h.2⟩

/-- The exact parameter is in the interval that is left. -/
theorem exact_mem_easedRange (hfirst : 0 ≤ firstX ∧ firstX ≤ 1) (hsecond : 0 ≤ secondX ∧ secondX ≤ 1)
    {exact : ℝ} (hexact : exact ∈ Set.Icc 0 1)
    (hprogress : bezier (firstX : ℝ) secondX exact = progress) :
    ((easedRange progress firstX secondX).1 : ℝ) ≤ exact ∧
      exact ≤ (easedRange progress firstX secondX).2 := by
  have hmono := bezier_strictMonoOn (cast_mem hfirst) (cast_mem hsecond)
  obtain ⟨hlow, hapart, hhigh⟩ := bisect_bounds
    (fun parameter => bezier firstX secondX parameter < progress) 16 (zero_lt_one' ℚ)
  have hleft := bisect_low (fun parameter => bezier firstX secondX parameter < progress) 16 0 1
  have hright := bisect_high (fun parameter => bezier firstX secondX parameter < progress) 16 0 1
  rw [← easedRange] at hlow hapart hhigh hleft hright
  constructor
  · rcases hleft with hzero | hbelow
    · rw [hzero, Rat.cast_zero]
      exact hexact.1
    · rw [← hmono.le_iff_le (cast_mem ⟨hlow, hapart.le.trans hhigh⟩) hexact, ← bezier_cast, hprogress]
      exact_mod_cast hbelow.le
  · rcases hright with hone | habove
    · rw [hone, Rat.cast_one]
      exact hexact.2
    · rw [← hmono.le_iff_le hexact (cast_mem ⟨hlow.trans hapart.le, hhigh⟩), ← bezier_cast, hprogress]
      exact_mod_cast not_lt.mp habove

/-- So the middle of the interval is near to it. -/
theorem easedParameter_near (hfirst : 0 ≤ firstX ∧ firstX ≤ 1) (hsecond : 0 ≤ secondX ∧ secondX ≤ 1)
    {exact : ℝ} (hexact : exact ∈ Set.Icc 0 1)
    (hprogress : bezier (firstX : ℝ) secondX exact = progress) :
    |(easedParameter progress firstX secondX : ℝ) - exact| ≤ 1 / 2 ^ 16 := by
  obtain ⟨hlow, hhigh⟩ := exact_mem_easedRange hfirst hsecond hexact hprogress
  have hwidth := bisect_width (fun parameter => bezier firstX secondX parameter < progress) 16 0 1
  rw [← easedRange, sub_zero] at hwidth
  have hwidth := congrArg (fun width : ℚ => (width : ℝ)) hwidth
  rw [easedParameter]
  push_cast at hwidth ⊢
  rw [abs_le]
  constructor
  · linarith
  · linarith

/-- A curve whose points between are in the unit square eases into the unit interval, never back and
from 0 to 1, and is off the exact curve by what an error of the parameter of 2^-16 can cause. -/
theorem cubic_bezier_ease (hfirstX : 0 ≤ firstX ∧ firstX ≤ 1) (hfirstY : 0 ≤ firstY ∧ firstY ≤ 1)
    (hsecondX : 0 ≤ secondX ∧ secondX ≤ 1) (hsecondY : 0 ≤ secondY ∧ secondY ≤ 1) :
    (∀ progress, 0 ≤ cubicBezierEase progress firstX firstY secondX secondY ∧
      cubicBezierEase progress firstX firstY secondX secondY ≤ 1) ∧
    Monotone (fun progress => cubicBezierEase progress firstX firstY secondX secondY) ∧
    cubicBezierEase 0 firstX firstY secondX secondY = 0 ∧
    cubicBezierEase 1 firstX firstY secondX secondY = 1 ∧
    ∀ progress, ∃ exact ∈ Set.Icc (0 : ℝ) 1,
      (∀ t ∈ Set.Icc (0 : ℝ) 1,
        bezier (firstX : ℝ) secondX t = (clampSecs 0 1 progress : ℚ) ↔ t = exact) ∧
      (∃ t ∈ Set.Icc (0 : ℝ) 1, |t - exact| ≤ 1 / 2 ^ 16 ∧
        cubicBezierEase progress firstX firstY secondX secondY = bezier (firstY : ℝ) secondY t) ∧
      |cubicBezierEase progress firstX firstY secondX secondY - bezier (firstY : ℝ) secondY exact| ≤
        3 / 2 ^ 16 := by
  refine ⟨cubicBezierEase_mem hfirstY hsecondY, fun _ _ => cubicBezierEase_mono hfirstY hsecondY,
    cubicBezierEase_of_nonpos le_rfl, cubicBezierEase_of_one_le le_rfl, fun progress => ?_⟩
  obtain ⟨exact, hexact, hunique⟩ := exists_bezier_eq (cast_mem hfirstX) (cast_mem hsecondX)
    (cast_mem (clampSecs_mem zero_le_one progress))
  have hprogress := (hunique exact hexact).mpr rfl
  obtain ⟨t, ht, hnear, hvalue⟩ : ∃ t ∈ Set.Icc (0 : ℝ) 1, |t - exact| ≤ 1 / 2 ^ 16 ∧
      cubicBezierEase progress firstX firstY secondX secondY = bezier (firstY : ℝ) secondY t := by
    rcases le_or_gt progress 0 with hlow | hlow
    · refine ⟨0, ⟨le_rfl, zero_le_one⟩, ?_, ?_⟩
      · rw [← (hunique 0 ⟨le_rfl, zero_le_one⟩).mp (by rw [bezier_zero, clampSecs_of_nonpos hlow]; simp)]
        norm_num
      · rw [cubicBezierEase_of_nonpos hlow, bezier_zero, Rat.cast_zero]
    rcases le_or_gt 1 progress with hhigh | hhigh
    · refine ⟨1, ⟨zero_le_one, le_rfl⟩, ?_, ?_⟩
      · rw [← (hunique 1 ⟨zero_le_one, le_rfl⟩).mp (by rw [bezier_one, clampSecs_of_one_le hhigh]; simp)]
        norm_num
      · rw [cubicBezierEase_of_one_le hhigh, bezier_one, Rat.cast_one]
    rw [clampSecs_eq_self hlow.le hhigh.le] at hprogress
    refine ⟨easedParameter progress firstX secondX, ?_,
      easedParameter_near hfirstX hsecondX hexact hprogress, ?_⟩
    · obtain ⟨hpos, hlt⟩ := easedParameter_mem progress firstX secondX
      exact cast_mem ⟨hpos.le, hlt.le⟩
    · rw [cubicBezierEase_eq hlow hhigh, bezier_cast]
  refine ⟨exact, hexact, hunique, ⟨t, ht, hnear, hvalue⟩, ?_⟩
  have herror := abs_bezier_sub_le (cast_mem hfirstY) (cast_mem hsecondY) hexact ht
  rw [hvalue]
  linarith

/-- The curve on which a zoom moves in. -/
theorem cubic_bezier_ease_attack :
    Monotone fun progress => cubicBezierEase progress (1 / 5) (4 / 5) (1 / 5) 1 :=
  (cubic_bezier_ease (by norm_num) (by norm_num) (by norm_num) (by norm_num)).2.1

end

end Blip.Capture
