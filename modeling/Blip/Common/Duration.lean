import Mathlib.Algebra.Order.Field.Rat
import Mathlib.Data.Rat.Floor
import Mathlib.Order.Lattice
import Mathlib.Tactic.Linarith
import Mathlib.Tactic.NormNum

/-!
# Durations

`std::time::Duration`: a length of time in whole nanoseconds.
-/

namespace Blip

/-- A `std::time::Duration`. -/
structure Duration where
  nanos : ℕ
deriving DecidableEq, Repr

namespace Duration

instance : LinearOrder Duration :=
  LinearOrder.lift' nanos fun a b h => by cases a; cases b; exact congrArg mk h

/-- `Duration::as_micros`. -/
def asMicros (duration : Duration) : ℕ := duration.nanos / 1000

/-- `Duration::as_secs`. -/
def asSecs (duration : Duration) : ℕ := duration.nanos / 1000000000

/-- `Duration::subsec_nanos`. -/
def subsecNanos (duration : Duration) : ℕ := duration.nanos % 1000000000

/-- `Duration::as_secs_f64`. -/
def asSecsF64 (duration : Duration) : ℚ := duration.nanos / 1000000000

/-- `Duration::saturating_sub`. -/
def saturatingSub (left right : Duration) : Duration := ⟨left.nanos - right.nanos⟩

/-- The nearest integer to a rational that is not negative, ties to even. -/
def roundHalfEven (value : ℚ) : ℕ :=
  let whole := value.floor.toNat
  let rest := value - whole
  if rest < 1 / 2 ∨ rest = 1 / 2 ∧ whole % 2 = 0 then whole else whole + 1

/-- `Duration::try_from_secs_f64`: the nearest nanosecond, if the seconds are in range. -/
def tryFromSecsF64 (secs : ℚ) : Option Duration :=
  if secs < 0 then none
  else
    let nanos := roundHalfEven (secs * 1000000000)
    if nanos < 2 ^ 64 * 1000000000 then some ⟨nanos⟩ else none

/-- Rounding to an integer moves a number by half at most. -/
theorem roundHalfEven_error {value : ℚ} (h : 0 ≤ value) :
    |(roundHalfEven value : ℚ) - value| ≤ 1 / 2 := by
  have hwhole : ((value.floor.toNat : ℕ) : ℚ) = (⌊value⌋ : ℚ) := by
    have hfloor : 0 ≤ ⌊value⌋ := Int.floor_nonneg.2 h
    exact_mod_cast Int.toNat_of_nonneg hfloor
  have hlower := Int.floor_le value
  have hupper := Int.lt_floor_add_one value
  rw [roundHalfEven, abs_le]
  split
  · rename_i hrest
    rw [hwhole] at hrest ⊢
    constructor
    · rcases hrest with hrest | hrest <;> linarith
    · linarith
  · rename_i hrest
    push_cast
    rw [hwhole] at hrest ⊢
    have hrest : ¬ value - ⌊value⌋ < 1 / 2 := fun hlt => hrest (.inl hlt)
    constructor <;> linarith

theorem le_def {left right : Duration} : left ≤ right ↔ left.nanos ≤ right.nanos := Iff.rfl

end Duration

end Blip
