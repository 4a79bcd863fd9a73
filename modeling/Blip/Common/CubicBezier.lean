import Mathlib.Algebra.Order.Field.Basic
import Mathlib.Order.Interval.Set.Basic
import Mathlib.Order.Monotone.Basic
import Mathlib.Tactic.Linarith
import Mathlib.Tactic.Ring
import Mathlib.Topology.Instances.Real.Lemmas
import Mathlib.Topology.Order.IntermediateValue

/-!
# Cubic Bézier coordinates

A coordinate of a cubic Bézier curve from 0 to 1, by the curve's parameter and the coordinates of the
two points between. While these are in the unit interval the coordinate increases strictly, at most
three times as fast as the parameter: the slope of a chord is a mean of its slopes for the four corners
of the unit square.
-/

namespace Blip

variable {K : Type*} [Field K]

/-- A coordinate of a cubic Bézier curve. -/
def bezier (first second parameter : K) : K :=
  3 * (1 - parameter) * (1 - parameter) * parameter * first +
    3 * (1 - parameter) * parameter * parameter * second + parameter * parameter * parameter

/-- The slope of the chord between two parameters. -/
def bezierSlope (first second s t : K) : K :=
  first * (3 - 6 * (s + t) + 3 * (s * s + s * t + t * t)) +
    second * (3 * (s + t) - 3 * (s * s + s * t + t * t)) + (s * s + s * t + t * t)

@[simp] theorem bezier_zero (first second : K) : bezier first second 0 = 0 := by
  rw [bezier]
  ring

@[simp] theorem bezier_one (first second : K) : bezier first second 1 = 1 := by
  rw [bezier]
  ring

theorem bezier_sub (first second s t : K) :
    bezier first second t - bezier first second s = (t - s) * bezierSlope first second s t := by
  rw [bezier, bezier, bezierSlope]
  ring

/-! ## The corners -/

/-- A form in the distances of two parameters from a place. -/
def chordForm (a b : K) : K := a * a + a * b + b * b

theorem bezierSlope_zero_zero (s t : K) : bezierSlope 0 0 s t = chordForm s t := by
  rw [bezierSlope, chordForm]
  ring

theorem bezierSlope_one_one (s t : K) : bezierSlope 1 1 s t = chordForm (1 - s) (1 - t) := by
  rw [bezierSlope, chordForm]
  ring

theorem bezierSlope_one_zero (s t : K) :
    bezierSlope 1 0 s t = chordForm (2 * s - 1) (2 * t - 1) := by
  rw [bezierSlope, chordForm]
  ring

theorem bezierSlope_zero_one (s t : K) : bezierSlope 0 1 s t =
    2 * (s * (1 - s)) + 2 * (t * (1 - t)) + s * (1 - t) + t * (1 - s) := by
  rw [bezierSlope]
  ring

theorem bezierSlope_mean (first second s t : K) : bezierSlope first second s t =
    (1 - first) * (1 - second) * bezierSlope 0 0 s t + first * second * bezierSlope 1 1 s t +
      (1 - first) * second * bezierSlope 0 1 s t + first * (1 - second) * bezierSlope 1 0 s t := by
  simp only [bezierSlope]
  ring

section

variable [LinearOrder K] [IsStrictOrderedRing K] {a b first second s t bound : K}

theorem chordForm_pos (h : a ≠ b) : 0 < chordForm a b := by
  have hdifference : 0 < (a - b) * (a - b) := mul_self_pos.mpr (sub_ne_zero.mpr h)
  have hsum := mul_self_nonneg (a + b)
  rw [chordForm]
  linarith

theorem chordForm_nonneg (a b : K) : 0 ≤ chordForm a b := by
  have ha := mul_self_nonneg a
  have hb := mul_self_nonneg b
  have hsum := mul_self_nonneg (a + b)
  rw [chordForm]
  linarith

theorem chordForm_le (ha : |a| ≤ 1) (hb : |b| ≤ 1) : chordForm a b ≤ 3 := by
  have haa : a * a ≤ 1 := (abs_le_one_iff_mul_self_le_one).mp ha
  have hbb : b * b ≤ 1 := (abs_le_one_iff_mul_self_le_one).mp hb
  have hdifference := mul_self_nonneg (a - b)
  rw [chordForm]
  linarith

/-- The corners have weights that are not negative; they add up to one. -/
theorem corner_weights (hfirst : first ∈ Set.Icc 0 1) (hsecond : second ∈ Set.Icc 0 1) :
    0 ≤ (1 - first) * (1 - second) ∧ 0 ≤ first * second ∧ 0 ≤ (1 - first) * second ∧
      0 ≤ first * (1 - second) := by
  have hfirst' := sub_nonneg.mpr hfirst.2
  have hsecond' := sub_nonneg.mpr hsecond.2
  exact ⟨mul_nonneg hfirst' hsecond', mul_nonneg hfirst.1 hsecond.1,
    mul_nonneg hfirst' hsecond.1, mul_nonneg hfirst.1 hsecond'⟩

/-- A chord is not flatter than at every corner. -/
theorem le_bezierSlope (hfirst : first ∈ Set.Icc 0 1) (hsecond : second ∈ Set.Icc 0 1)
    (hnone : bound ≤ bezierSlope 0 0 s t) (hboth : bound ≤ bezierSlope 1 1 s t)
    (hright : bound ≤ bezierSlope 0 1 s t) (hleft : bound ≤ bezierSlope 1 0 s t) :
    bound ≤ bezierSlope first second s t := by
  obtain ⟨hwnone, hwboth, hwright, hwleft⟩ := corner_weights hfirst hsecond
  have hnone := mul_le_mul_of_nonneg_left hnone hwnone
  have hboth := mul_le_mul_of_nonneg_left hboth hwboth
  have hright := mul_le_mul_of_nonneg_left hright hwright
  have hleft := mul_le_mul_of_nonneg_left hleft hwleft
  rw [bezierSlope_mean]
  linarith

/-- A chord is not steeper than at every corner. -/
theorem bezierSlope_le (hfirst : first ∈ Set.Icc 0 1) (hsecond : second ∈ Set.Icc 0 1)
    (hnone : bezierSlope 0 0 s t ≤ bound) (hboth : bezierSlope 1 1 s t ≤ bound)
    (hright : bezierSlope 0 1 s t ≤ bound) (hleft : bezierSlope 1 0 s t ≤ bound) :
    bezierSlope first second s t ≤ bound := by
  obtain ⟨hwnone, hwboth, hwright, hwleft⟩ := corner_weights hfirst hsecond
  have hnone := mul_le_mul_of_nonneg_left hnone hwnone
  have hboth := mul_le_mul_of_nonneg_left hboth hwboth
  have hright := mul_le_mul_of_nonneg_left hright hwright
  have hleft := mul_le_mul_of_nonneg_left hleft hwleft
  rw [bezierSlope_mean]
  linarith

theorem bezierSlope_pos (hfirst : first ∈ Set.Icc 0 1) (hsecond : second ∈ Set.Icc 0 1) (hs : 0 ≤ s)
    (hlt : s < t) (ht : t ≤ 1) : 0 < bezierSlope first second s t := by
  have hnone : 0 < bezierSlope 0 0 s t := by
    rw [bezierSlope_zero_zero]
    exact chordForm_pos hlt.ne
  have hboth : 0 < bezierSlope 1 1 s t := by
    rw [bezierSlope_one_one]
    exact chordForm_pos fun h => hlt.ne (by linarith)
  have hleft : 0 < bezierSlope 1 0 s t := by
    rw [bezierSlope_one_zero]
    exact chordForm_pos fun h => hlt.ne (by linarith)
  have hright : 0 < bezierSlope 0 1 s t := by
    rw [bezierSlope_zero_one]
    have hss := mul_nonneg hs (sub_nonneg.mpr (hlt.le.trans ht))
    have htt := mul_nonneg (hs.trans hlt.le) (sub_nonneg.mpr ht)
    have hst := mul_nonneg hs (sub_nonneg.mpr ht)
    have hts := mul_pos (hs.trans_lt hlt) (sub_pos.mpr (hlt.trans_le ht))
    linarith
  -- the flattest of the four corners is a bound
  refine (lt_min (lt_min hnone hboth) (lt_min hright hleft)).trans_le
    (le_bezierSlope hfirst hsecond ?_ ?_ ?_ ?_)
  · exact (min_le_left _ _).trans (min_le_left _ _)
  · exact (min_le_left _ _).trans (min_le_right _ _)
  · exact (min_le_right _ _).trans (min_le_left _ _)
  · exact (min_le_right _ _).trans (min_le_right _ _)

theorem bezierSlope_le_three (hfirst : first ∈ Set.Icc 0 1) (hsecond : second ∈ Set.Icc 0 1)
    (hs : s ∈ Set.Icc 0 1) (ht : t ∈ Set.Icc 0 1) : bezierSlope first second s t ≤ 3 := by
  obtain ⟨hs, hs'⟩ := hs
  obtain ⟨ht, ht'⟩ := ht
  refine bezierSlope_le hfirst hsecond ?_ ?_ ?_ ?_
  · rw [bezierSlope_zero_zero]
    exact chordForm_le (abs_le.mpr ⟨by linarith, hs'⟩) (abs_le.mpr ⟨by linarith, ht'⟩)
  · rw [bezierSlope_one_one]
    exact chordForm_le (abs_le.mpr ⟨by linarith, by linarith⟩) (abs_le.mpr ⟨by linarith, by linarith⟩)
  · have hform := chordForm_nonneg (2 * s - 1) (2 * t - 1)
    rw [bezierSlope_zero_one]
    rw [chordForm] at hform
    linarith
  · rw [bezierSlope_one_zero]
    exact chordForm_le (abs_le.mpr ⟨by linarith, by linarith⟩) (abs_le.mpr ⟨by linarith, by linarith⟩)

/-! ## The coordinate -/

theorem bezier_strictMonoOn (hfirst : first ∈ Set.Icc 0 1) (hsecond : second ∈ Set.Icc 0 1) :
    StrictMonoOn (bezier first second) (Set.Icc 0 1) := by
  intro s hs t ht hlt
  have hslope := bezierSlope_pos hfirst hsecond hs.1 hlt ht.2
  rw [← sub_pos, bezier_sub]
  exact mul_pos (sub_pos.mpr hlt) hslope

/-- What an error of the parameter can cause. -/
theorem abs_bezier_sub_le (hfirst : first ∈ Set.Icc 0 1) (hsecond : second ∈ Set.Icc 0 1)
    (hs : s ∈ Set.Icc 0 1) (ht : t ∈ Set.Icc 0 1) :
    |bezier first second t - bezier first second s| ≤ 3 * |t - s| := by
  wlog hle : s ≤ t generalizing s t
  · rw [abs_sub_comm, abs_sub_comm t]
    exact this ht hs (not_le.mp hle).le
  have hmono := (bezier_strictMonoOn hfirst hsecond).monotoneOn hs ht hle
  rw [abs_of_nonneg (sub_nonneg.mpr hmono), abs_of_nonneg (sub_nonneg.mpr hle), bezier_sub, mul_comm]
  exact mul_le_mul_of_nonneg_right (bezierSlope_le_three hfirst hsecond hs ht) (sub_nonneg.mpr hle)

end

/-! ## Over the reals -/

theorem bezier_cast (first second t : ℚ) :
    ((bezier first second t : ℚ) : ℝ) = bezier (first : ℝ) (second : ℝ) (t : ℝ) := by
  rw [bezier, bezier]
  push_cast
  rfl

theorem continuous_bezier (first second : ℝ) : Continuous (bezier first second) := by
  unfold bezier
  fun_prop

/-- A coordinate has every value of the unit interval, at one parameter. -/
theorem exists_bezier_eq {first second value : ℝ} (hfirst : first ∈ Set.Icc 0 1)
    (hsecond : second ∈ Set.Icc 0 1) (hvalue : value ∈ Set.Icc 0 1) :
    ∃ exact ∈ Set.Icc (0 : ℝ) 1, ∀ t ∈ Set.Icc (0 : ℝ) 1, bezier first second t = value ↔ t = exact := by
  have hends : value ∈ Set.Icc (bezier first second 0) (bezier first second 1) := by
    rwa [bezier_zero, bezier_one]
  obtain ⟨exact, hmem, rfl⟩ :=
    intermediate_value_Icc zero_le_one (continuous_bezier first second).continuousOn hends
  refine ⟨exact, hmem, fun t ht => ?_⟩
  exact (bezier_strictMonoOn hfirst hsecond).injOn.eq_iff ht hmem

end Blip
