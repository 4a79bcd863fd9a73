import Mathlib.Algebra.Order.Field.Basic
import Mathlib.Order.Monotone.Basic
import Mathlib.Tactic.FieldSimp
import Mathlib.Tactic.Linarith
import Mathlib.Tactic.Ring

/-!
# Bisection

An interval is halved a number of times, each time kept on the side where a predicate changes from true
to false. What is said of the ends holds for any predicate, also for one that is not monotone.
-/

namespace Blip

variable {K : Type*} [Field K]

/-- The ends of an interval after some halvings. -/
def bisect (below : K → Prop) [DecidablePred below] : ℕ → K → K → K × K
  | 0, low, high => (low, high)
  | steps + 1, low, high =>
    let middle := (low + high) * (1 / 2)
    if below middle then bisect below steps middle high else bisect below steps low middle

theorem bisect_succ (below : K → Prop) [DecidablePred below] (steps : ℕ) (low high : K) :
    bisect below (steps + 1) low high =
      if below ((low + high) * (1 / 2)) then bisect below steps ((low + high) * (1 / 2)) high
      else bisect below steps low ((low + high) * (1 / 2)) := rfl

/-- The low end is the one it was at first, or one where the predicate holds. -/
theorem bisect_low (below : K → Prop) [DecidablePred below] (steps : ℕ) (low high : K) :
    (bisect below steps low high).1 = low ∨ below (bisect below steps low high).1 := by
  induction steps generalizing low high with
  | zero => exact .inl rfl
  | succ steps ih =>
    rw [bisect_succ]
    split
    · rename_i hbelow
      rcases ih ((low + high) * (1 / 2)) high with heq | hfound
      · rw [heq]
        exact .inr hbelow
      · exact .inr hfound
    · exact ih low _

/-- The high end is the one it was at first, or one where the predicate fails. -/
theorem bisect_high (below : K → Prop) [DecidablePred below] (steps : ℕ) (low high : K) :
    (bisect below steps low high).2 = high ∨ ¬ below (bisect below steps low high).2 := by
  induction steps generalizing low high with
  | zero => exact .inl rfl
  | succ steps ih =>
    rw [bisect_succ]
    split
    · exact ih _ high
    · rename_i hnot
      rcases ih low ((low + high) * (1 / 2)) with heq | hfound
      · rw [heq]
        exact .inr hnot
      · exact .inr hfound

section

variable [LinearOrder K] [IsStrictOrderedRing K] {below below' : K → Prop} [DecidablePred below]
  [DecidablePred below'] {low high : K}

theorem left_lt_middle (h : low < high) : low < (low + high) * (1 / 2) := by linarith

theorem middle_lt_right (h : low < high) : (low + high) * (1 / 2) < high := by linarith

/-- The ends stay in the interval and apart. -/
theorem bisect_bounds (below : K → Prop) [DecidablePred below] (steps : ℕ) (h : low < high) :
    low ≤ (bisect below steps low high).1 ∧
      (bisect below steps low high).1 < (bisect below steps low high).2 ∧
      (bisect below steps low high).2 ≤ high := by
  induction steps generalizing low high with
  | zero => exact ⟨le_rfl, h, le_rfl⟩
  | succ steps ih =>
    rw [bisect_succ]
    split
    · obtain ⟨hlow, hapart, hhigh⟩ := ih (middle_lt_right h)
      exact ⟨(left_lt_middle h).le.trans hlow, hapart, hhigh⟩
    · obtain ⟨hlow, hapart, hhigh⟩ := ih (left_lt_middle h)
      exact ⟨hlow, hapart, hhigh.trans (middle_lt_right h).le⟩

/-- Each step halves the width. -/
theorem bisect_width (below : K → Prop) [DecidablePred below] (steps : ℕ) (low high : K) :
    (bisect below steps low high).2 - (bisect below steps low high).1 = (high - low) / 2 ^ steps := by
  induction steps generalizing low high with
  | zero => rw [pow_zero, div_one, bisect]
  | succ steps ih =>
    rw [bisect_succ]
    split
    · rw [ih]
      field_simp
      ring
    · rw [ih]
      field_simp
      ring

/-- A predicate that holds of more has its ends further right. -/
theorem bisect_mono (h : ∀ x, below x → below' x) (steps : ℕ) (hlt : low < high) :
    (bisect below steps low high).1 ≤ (bisect below' steps low high).1 ∧
      (bisect below steps low high).2 ≤ (bisect below' steps low high).2 := by
  induction steps generalizing low high with
  | zero => exact ⟨le_rfl, le_rfl⟩
  | succ steps ih =>
    rw [bisect_succ, bisect_succ]
    by_cases hbelow : below ((low + high) * (1 / 2))
    · rw [if_pos hbelow, if_pos (h _ hbelow)]
      exact ih (middle_lt_right hlt)
    · rw [if_neg hbelow]
      by_cases hbelow' : below' ((low + high) * (1 / 2))
      · -- here they part: one stays left of the middle, the other right of it
        rw [if_pos hbelow']
        obtain ⟨-, hapart, hleft⟩ := bisect_bounds below steps (left_lt_middle hlt)
        obtain ⟨hright, hapart', -⟩ := bisect_bounds below' steps (middle_lt_right hlt)
        exact ⟨(hapart.le.trans hleft).trans hright, (hleft.trans hright).trans hapart'.le⟩
      · rw [if_neg hbelow']
        exact ih (left_lt_middle hlt)

end

end Blip
