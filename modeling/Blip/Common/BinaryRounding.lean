import Blip.Common.Duration
import Mathlib.Algebra.Order.Field.Basic
import Mathlib.Data.Int.Log
import Mathlib.Tactic.Linarith
import Mathlib.Tactic.NormNum
import Mathlib.Tactic.Positivity

/-!
# Rounding to binary digits

A magnitude rounded to the nearest number of a binary format, ties to even. The format is given by
the digits `fraction` after the leading one and by the least exponent `lowest`: below
`2 ^ lowest` the numbers stay equally far apart.
-/

namespace Blip.BinaryRounding

section

variable (fraction : ℕ) (lowest : ℤ)

/-- The distance of the numbers around a magnitude. -/
def quantum (magnitude : ℚ) : ℚ := 2 ^ (max (Int.log 2 magnitude) lowest - fraction)

/-- The nearest multiple of the distance of the numbers, ties to even. -/
def nearest (magnitude : ℚ) : ℚ :=
  Duration.roundHalfEven (magnitude / quantum fraction lowest magnitude) *
    quantum fraction lowest magnitude

end

variable {fraction : ℕ} {lowest : ℤ} {magnitude : ℚ}

/-! ## The distance of the numbers -/

theorem quantum_pos : 0 < quantum fraction lowest magnitude := zpow_pos (by norm_num) _

theorem quantum_mul :
    quantum fraction lowest magnitude * 2 ^ fraction = 2 ^ max (Int.log 2 magnitude) lowest := by
  rw [quantum, ← zpow_natCast, ← zpow_add₀ (by norm_num), sub_add_cancel]

/-- A number has one digit more than the fraction at most. -/
theorem lt_quantum_mul : magnitude < quantum fraction lowest magnitude * 2 ^ (fraction + 1) := by
  have hlog : magnitude < (2 : ℚ) ^ (Int.log 2 magnitude + 1) := by
    exact_mod_cast Int.lt_zpow_succ_log_self (by norm_num) magnitude
  have hmono : (2 : ℚ) ^ Int.log 2 magnitude ≤ 2 ^ max (Int.log 2 magnitude) lowest :=
    zpow_le_zpow_right₀ (by norm_num) (le_max_left _ _)
  rw [zpow_add_one₀ (by norm_num)] at hlog
  rw [pow_succ, ← mul_assoc, quantum_mul]
  linarith

/-- A magnitude in the normal range has all its digits. -/
theorem quantum_mul_le (h : (2 : ℚ) ^ lowest ≤ magnitude) :
    quantum fraction lowest magnitude * 2 ^ fraction ≤ magnitude := by
  have hpos : 0 < magnitude := (zpow_pos (by norm_num) _).trans_le h
  have hlog : lowest ≤ Int.log 2 magnitude :=
    (Int.zpow_le_iff_le_log (by norm_num) hpos).1 (by exact_mod_cast h)
  rw [quantum_mul, max_eq_left hlog]
  exact_mod_cast Int.zpow_log_le_self (by norm_num) hpos

/-! ## The nearest number -/

theorem nearest_nonneg : 0 ≤ nearest fraction lowest magnitude :=
  mul_nonneg (Nat.cast_nonneg _) quantum_pos.le

@[simp] theorem nearest_zero : nearest fraction lowest 0 = 0 := by
  have hzero : Duration.roundHalfEven 0 = 0 := by decide +kernel
  rw [nearest, zero_div, hzero, Nat.cast_zero, zero_mul]

theorem nearest_error (h : 0 ≤ magnitude) :
    |nearest fraction lowest magnitude - magnitude| ≤ quantum fraction lowest magnitude / 2 := by
  have hpos := @quantum_pos fraction lowest magnitude
  have herror := Duration.roundHalfEven_error (div_nonneg h hpos.le)
  calc |nearest fraction lowest magnitude - magnitude|
      = |(Duration.roundHalfEven (magnitude / quantum fraction lowest magnitude) : ℚ) -
          magnitude / quantum fraction lowest magnitude| * quantum fraction lowest magnitude := by
        rw [← abs_of_pos hpos, ← abs_mul, abs_of_pos hpos, sub_mul, div_mul_cancel₀ _ hpos.ne',
          nearest]
    _ ≤ 1 / 2 * quantum fraction lowest magnitude := mul_le_mul_of_nonneg_right herror hpos.le
    _ = quantum fraction lowest magnitude / 2 := by ring

/-- In the normal range the magnitude rounded to has all its digits as well. -/
theorem quantum_mul_le_nearest (h : (2 : ℚ) ^ lowest ≤ magnitude) :
    quantum fraction lowest magnitude * 2 ^ fraction ≤ nearest fraction lowest magnitude := by
  have hpos := @quantum_pos fraction lowest magnitude
  have hratio : (2 : ℚ) ^ fraction ≤ magnitude / quantum fraction lowest magnitude := by
    rw [le_div_iff₀ hpos, mul_comm]
    exact quantum_mul_le h
  -- a whole number more than `2 ^ fraction - 1` is at least `2 ^ fraction`
  have hdigits : 2 ^ fraction ≤
      Duration.roundHalfEven (magnitude / quantum fraction lowest magnitude) := by
    have herror := abs_le.1 (Duration.roundHalfEven_error
      ((by positivity : (0 : ℚ) ≤ 2 ^ fraction).trans hratio))
    have hlt : ((2 ^ fraction : ℕ) : ℚ) <
        (Duration.roundHalfEven (magnitude / quantum fraction lowest magnitude) + 1 : ℕ) := by
      push_cast
      linarith
    exact Nat.lt_succ_iff.1 (Nat.cast_lt.1 hlt)
  rw [mul_comm, nearest]
  exact mul_le_mul_of_nonneg_right (by exact_mod_cast hdigits) hpos.le

/-! ## Zero and the normal range -/

/-- A magnitude that is zero or in the normal range. -/
def Normal (lowest : ℤ) (magnitude : ℚ) : Prop := magnitude = 0 ∨ (2 : ℚ) ^ lowest ≤ magnitude

namespace Normal

variable {other : ℚ}

theorem nonneg (h : Normal lowest magnitude) : 0 ≤ magnitude := by
  rcases h with rfl | h
  · exact le_rfl
  · exact (zpow_pos (by norm_num) _).le.trans h

theorem add (h : Normal lowest magnitude) (hother : Normal lowest other) :
    Normal lowest (magnitude + other) := by
  rcases h with rfl | h
  · rwa [zero_add]
  · exact .inr (h.trans (le_add_of_nonneg_right hother.nonneg))

theorem natCast_div (count : ℕ) {parts : ℚ} (h : (2 : ℚ) ^ lowest ≤ 1 / parts) :
    Normal lowest (count / parts) := by
  have hparts : 0 < 1 / parts := (zpow_pos (by norm_num) _).trans_le h
  rcases Nat.eq_zero_or_pos count with rfl | hcount
  · exact .inl (by simp)
  · refine .inr (h.trans ?_)
    rw [div_eq_mul_one_div (count : ℚ)]
    exact le_mul_of_one_le_left hparts.le (by exact_mod_cast hcount)

/-- Rounding keeps the normal range. -/
theorem nearest (h : Normal lowest magnitude) :
    Normal lowest (nearest fraction lowest magnitude) := by
  rcases h with rfl | h
  · exact .inl nearest_zero
  · refine .inr (le_trans ?_ (quantum_mul_le_nearest h))
    rw [quantum_mul]
    exact zpow_le_zpow_right₀ (by norm_num) (le_max_right _ _)

/-- The error is small beside the magnitude. -/
theorem nearest_error (h : Normal lowest magnitude) :
    |BinaryRounding.nearest fraction lowest magnitude - magnitude| ≤
      magnitude / 2 ^ (fraction + 1) := by
  rcases h with rfl | h
  · simp
  · have hnonneg : 0 ≤ magnitude := (zpow_pos (by norm_num) _).le.trans h
    refine (BinaryRounding.nearest_error hnonneg).trans ?_
    rw [le_div_iff₀ (by positivity), pow_succ]
    linarith [@quantum_mul_le fraction _ _ h]

end Normal

end Blip.BinaryRounding
