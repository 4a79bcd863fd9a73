import Mathlib.Algebra.Order.Field.Rat
import Mathlib.Algebra.Order.Round
import Mathlib.Data.Rat.Floor

/-!
# Rounding

`f64::round`, on the numbers the floats stand for.
-/

namespace Blip

/-- `f64::round`: the nearest integer, halves away from zero. -/
def f64Round (value : ℚ) : ℤ := if 0 ≤ value then round value else -round (-value)

@[simp] theorem f64Round_intCast (value : ℤ) : f64Round value = value := by
  rw [f64Round]
  split
  · exact round_intCast value
  · rw [← Int.cast_neg, round_intCast, neg_neg]

private theorem round_mono {left right : ℚ} (h : left ≤ right) : round left ≤ round right := by
  rw [round_eq, round_eq]
  exact Int.floor_mono (by linarith)

private theorem round_nonneg {value : ℚ} (h : 0 ≤ value) : 0 ≤ round value := by
  simpa using round_mono h

theorem f64Round_mono {left right : ℚ} (h : left ≤ right) : f64Round left ≤ f64Round right := by
  by_cases hleft : 0 ≤ left
  · rw [f64Round, f64Round, if_pos hleft, if_pos (hleft.trans h)]
    exact round_mono h
  · rw [f64Round, if_neg hleft, f64Round]
    have hneg : 0 ≤ round (-left) := round_nonneg (by linarith)
    split
    · have := @round_nonneg right ‹_›
      omega
    · exact neg_le_neg (round_mono (neg_le_neg h))

theorem f64Round_nonneg {value : ℚ} (h : 0 ≤ value) : 0 ≤ f64Round value := by
  rw [f64Round, if_pos h]
  exact round_nonneg h

end Blip
