import Blip.Common.BinaryRounding
import Mathlib.Algebra.Order.Field.Basic
import Mathlib.Data.Int.Log
import Mathlib.Tactic.Linarith
import Mathlib.Tactic.NormNum
import Mathlib.Tactic.Positivity

/-!
# Single precision

The numbers of an `f32` and the operations on them: each is the exact result rounded to the nearest
number, ties to even, and overflows to an infinity.
-/

namespace Blip

/-- `f32::MAX`. -/
def f32Max : ℚ := (2 ^ 24 - 1) * 2 ^ 104

/-- The magnitude of a finite number. -/
abbrev Magnitude := {magnitude : ℚ // 0 ≤ magnitude ∧ magnitude ≤ f32Max}

inductive F32
  | nan
  | infinite (negative : Bool)
  | finite (negative : Bool) (magnitude : Magnitude)
deriving DecidableEq

namespace F32

/-- The distance of the numbers around a magnitude. -/
def quantum (magnitude : ℚ) : ℚ := 2 ^ (max (Int.log 2 magnitude) (-126) - 23)

/-- The nearest multiple of the distance of the numbers, ties to even. -/
def roundMagnitude (magnitude : ℚ) : ℚ :=
  Duration.roundHalfEven (magnitude / quantum magnitude) * quantum magnitude

/-- The number nearest to a magnitude with a sign. -/
def round (negative : Bool) (magnitude : ℚ) : F32 :=
  if h : 0 ≤ roundMagnitude magnitude ∧ roundMagnitude magnitude ≤ f32Max then
    .finite negative ⟨roundMagnitude magnitude, h⟩
  else .infinite negative

/-- Zero with a sign. -/
def zero (negative : Bool) : F32 := .finite negative ⟨0, by decide +kernel⟩

/-- The number nearest to a rational, where an exact zero has the given sign. -/
def ofRatSigned (negative : Bool) (value : ℚ) : F32 :=
  if value = 0 then zero negative else round (value < 0) |value|

/-- The number nearest to a rational. -/
def ofRat (value : ℚ) : F32 := ofRatSigned false value

/-- The rational that a finite number stands for. -/
def toRat : F32 → ℚ
  | finite true magnitude => -magnitude.1
  | finite false magnitude => magnitude.1
  | _ => 0

/-- `f32::is_finite`. -/
def isFinite : F32 → Bool
  | finite _ _ => true
  | _ => false

def isNan : F32 → Bool
  | nan => true
  | _ => false

instance : Neg F32 where
  neg
    | nan => nan
    | infinite negative => infinite !negative
    | finite negative magnitude => finite (!negative) magnitude

/-- `f32::abs`. -/
def abs : F32 → F32
  | nan => nan
  | infinite _ => infinite false
  | finite _ magnitude => finite false magnitude

protected def add : F32 → F32 → F32
  | nan, _ | _, nan => nan
  | infinite left, infinite right => if left = right then infinite left else nan
  | infinite negative, finite _ _ | finite _ _, infinite negative => infinite negative
  | finite left leftMagnitude, finite right rightMagnitude =>
    ofRatSigned (left && right)
      (toRat (finite left leftMagnitude) + toRat (finite right rightMagnitude))

instance : Add F32 := ⟨F32.add⟩

instance : Sub F32 := ⟨fun left right => left + -right⟩

protected def mul : F32 → F32 → F32
  | nan, _ | _, nan => nan
  | infinite left, infinite right => infinite (left ^^ right)
  | infinite left, finite right magnitude | finite left magnitude, infinite right =>
    if magnitude.1 = 0 then nan else infinite (left ^^ right)
  | finite left leftMagnitude, finite right rightMagnitude =>
    round (left ^^ right) (leftMagnitude.1 * rightMagnitude.1)

instance : Mul F32 := ⟨F32.mul⟩

protected def div : F32 → F32 → F32
  | nan, _ | _, nan => nan
  | infinite _, infinite _ => nan
  | infinite left, finite right _ => infinite (left ^^ right)
  | finite left _, infinite right => zero (left ^^ right)
  | finite left leftMagnitude, finite right rightMagnitude =>
    if rightMagnitude.1 = 0 then
      if leftMagnitude.1 = 0 then nan else infinite (left ^^ right)
    else round (left ^^ right) (leftMagnitude.1 / rightMagnitude.1)

instance : Div F32 := ⟨F32.div⟩

/-- `<` of floats, false where a side is not a number. -/
def lt : F32 → F32 → Bool
  | nan, _ | _, nan => false
  | infinite left, infinite right => left && !right
  | infinite negative, finite _ _ => negative
  | finite _ _, infinite negative => !negative
  | finite left leftMagnitude, finite right rightMagnitude =>
    toRat (finite left leftMagnitude) < toRat (finite right rightMagnitude)

/-- `<=` of floats, false where a side is not a number. -/
def le (left right : F32) : Bool := !left.isNan && !right.isNan && !right.lt left

/-- `f32::max`: the other one, where one is not a number. -/
def max (left right : F32) : F32 :=
  if left.isNan then right else if right.isNan then left else if left.lt right then right else left

/-- `f32::min`: the other one, where one is not a number. -/
def min (left right : F32) : F32 :=
  if left.isNan then right else if right.isNan then left else if right.lt left then right else left

/-- `f32::clamp`. -/
def clamp (value lower upper : F32) : F32 :=
  let raised := if value.lt lower then lower else value
  if upper.lt raised then upper else raised

end F32

/-! ## Bounds of a rounding -/

/-- The magnitudes from here on round to an infinity. -/
def f32Overflow : ℚ := 2 ^ 128 - 2 ^ 103

/-- The magnitudes up to here round to zero. -/
def f32Underflow : ℚ := 1 / 2 ^ 150

namespace F32

/-- The format has 23 digits after the leading one. -/
theorem roundMagnitude_eq (magnitude : ℚ) :
    roundMagnitude magnitude = BinaryRounding.nearest 23 (-126) magnitude :=
  rfl

theorem quantum_pos (magnitude : ℚ) : 0 < quantum magnitude := BinaryRounding.quantum_pos

theorem quantum_mul (magnitude : ℚ) :
    quantum magnitude * 2 ^ 23 = 2 ^ (Max.max (Int.log 2 magnitude) (-126)) :=
  BinaryRounding.quantum_mul

/-- A number has 24 digits at most. -/
theorem lt_quantum_mul {magnitude : ℚ} : magnitude < quantum magnitude * 2 ^ 24 :=
  BinaryRounding.lt_quantum_mul

theorem roundMagnitude_error {magnitude : ℚ} (h : 0 ≤ magnitude) :
    |roundMagnitude magnitude - magnitude| ≤ quantum magnitude / 2 :=
  BinaryRounding.nearest_error h

/-- In the normal range the magnitude rounded to has 24 digits. -/
theorem quantum_mul_le_roundMagnitude {magnitude : ℚ} (h : (2 : ℚ) ^ (-126 : ℤ) ≤ magnitude) :
    quantum magnitude * 2 ^ 23 ≤ roundMagnitude magnitude :=
  BinaryRounding.quantum_mul_le_nearest h

/-- The numbers around a magnitude that rounds to a finite number are not far apart. -/
theorem quantum_le {magnitude : ℚ} (h : roundMagnitude magnitude ≤ f32Max) :
    quantum magnitude ≤ 2 ^ 104 := by
  by_cases hlog : Int.log 2 magnitude ≤ 127
  · rw [quantum, show (2 : ℚ) ^ 104 = 2 ^ (104 : ℤ) by norm_cast]
    exact zpow_le_zpow_right₀ (by norm_num) (by omega)
  · have hpos : 0 < magnitude := by
      by_contra hneg
      rw [Int.log_of_right_le_zero _ (not_lt.1 hneg)] at hlog
      exact hlog (by norm_num)
    have hself : (2 : ℚ) ^ Int.log 2 magnitude ≤ magnitude := by
      exact_mod_cast Int.zpow_log_le_self (by norm_num) hpos
    have hnormal : (2 : ℚ) ^ (-126 : ℤ) ≤ magnitude :=
      (zpow_le_zpow_right₀ (by norm_num) (by omega)).trans hself
    have hlarge : (2 : ℚ) ^ (128 : ℤ) ≤ quantum magnitude * 2 ^ 23 := by
      rw [quantum_mul]
      exact zpow_le_zpow_right₀ (by norm_num) (by omega)
    have hdigits := hlarge.trans (quantum_mul_le_roundMagnitude hnormal)
    exact absurd (hdigits.trans h) (by rw [f32Max]; norm_num)

/-- Magnitudes below the bound round to finite ones. -/
theorem roundMagnitude_le {magnitude : ℚ} (h0 : 0 ≤ magnitude) (h : magnitude < f32Overflow) :
    roundMagnitude magnitude ≤ f32Max := by
  have hpos := quantum_pos magnitude
  rw [f32Overflow] at h
  by_cases hlog : Int.log 2 magnitude ≤ 126
  · have hquantum : quantum magnitude ≤ 2 ^ 103 := by
      rw [quantum, show (2 : ℚ) ^ 103 = 2 ^ (103 : ℤ) by norm_cast]
      exact zpow_le_zpow_right₀ (by norm_num) (by omega)
    have hlt := @lt_quantum_mul magnitude
    have herror := abs_le.1 (roundMagnitude_error h0)
    rw [f32Max]
    norm_num at hquantum hlt ⊢
    linarith
  · have hmagnitude : 0 < magnitude := by
      by_contra hneg
      rw [Int.log_of_right_le_zero _ (not_lt.1 hneg)] at hlog
      exact hlog (by norm_num)
    have hbelow : Int.log 2 magnitude < 128 :=
      (Int.lt_zpow_iff_log_lt (by norm_num) hmagnitude).1
        (by push_cast; norm_num at h ⊢; linarith)
    have hquantum : quantum magnitude = 2 ^ 104 := by
      rw [quantum, show Max.max (Int.log 2 magnitude) (-126) - 23 = 104 by omega]
      norm_cast
    -- Half a step below `2 ^ 128` at most, so the digits stay below `2 ^ 24`.
    have hratio : magnitude / quantum magnitude < 2 ^ 24 - 1 / 2 := by
      rw [hquantum, div_lt_iff₀ (by norm_num)]
      norm_num at h ⊢
      exact h
    have herror := abs_le.1 (Duration.roundHalfEven_error (div_nonneg h0 hpos.le))
    have hdigits : Duration.roundHalfEven (magnitude / quantum magnitude) < 2 ^ 24 := by
      have hlt : (Duration.roundHalfEven (magnitude / quantum magnitude) : ℚ) < (2 ^ 24 : ℕ) := by
        push_cast
        linarith
      exact Nat.cast_lt.1 hlt
    have hdigits : (Duration.roundHalfEven (magnitude / quantum magnitude) : ℚ) ≤ 2 ^ 24 - 1 := by
      have := @Nat.cast_le ℚ _ _ _ _ |>.2 (Nat.le_sub_one_of_lt hdigits)
      norm_num at this ⊢
      exact this
    rw [hquantum] at hdigits
    rw [roundMagnitude, f32Max, hquantum]
    exact mul_le_mul_of_nonneg_right hdigits (by norm_num)

/-- Magnitudes above the bound round to positive ones. -/
theorem roundMagnitude_pos {magnitude : ℚ} (h : f32Underflow < magnitude) :
    0 < roundMagnitude magnitude := by
  have hpos := quantum_pos magnitude
  have hmagnitude : 0 < magnitude := lt_trans (by rw [f32Underflow]; norm_num) h
  by_cases hnormal : (2 : ℚ) ^ (-126 : ℤ) ≤ magnitude
  · exact lt_of_lt_of_le (by positivity) (quantum_mul_le_roundMagnitude hnormal)
  · have hlog : Int.log 2 magnitude < -126 :=
      (Int.lt_zpow_iff_log_lt (by norm_num) hmagnitude).1 (by exact_mod_cast not_le.1 hnormal)
    have hquantum : quantum magnitude = 2 ^ (-149 : ℤ) := by
      rw [quantum, max_eq_right hlog.le]
      norm_num
    have herror := abs_le.1 (roundMagnitude_error hmagnitude.le)
    rw [hquantum] at herror
    rw [f32Underflow] at h
    norm_num at h herror ⊢
    linarith

/-! ## Bounds of the operations -/

/-- A magnitude with a sign. -/
def signed (negative : Bool) (magnitude : ℚ) : ℚ := if negative then -magnitude else magnitude

theorem toRat_finite (negative : Bool) (magnitude : Magnitude) :
    toRat (finite negative magnitude) = signed negative magnitude.1 := by
  cases negative <;> rfl

theorem toRat_zero (negative : Bool) : (zero negative).toRat = 0 := by
  cases negative <;> simp [zero, toRat]

theorem abs_toRat_le (value : F32) : |value.toRat| ≤ f32Max := by
  have hmax : (0 : ℚ) ≤ f32Max := by rw [f32Max]; norm_num
  cases value with
  | nan | infinite => simpa [toRat] using hmax
  | finite negative magnitude =>
    cases negative
    · simpa [toRat, abs_of_nonneg magnitude.2.1] using magnitude.2.2
    · simpa [toRat, abs_of_nonneg magnitude.2.1] using magnitude.2.2

section round

variable {negative : Bool} {magnitude value : ℚ}

theorem round_eq_finite (h : roundMagnitude magnitude ≤ f32Max) :
    ∃ h, round negative magnitude = finite negative ⟨roundMagnitude magnitude, h⟩ := by
  have hnonneg : 0 ≤ roundMagnitude magnitude := BinaryRounding.nearest_nonneg
  exact ⟨⟨hnonneg, h⟩, dif_pos ⟨hnonneg, h⟩⟩

theorem roundMagnitude_le_of_isFinite (h : (round negative magnitude).isFinite = true) :
    roundMagnitude magnitude ≤ f32Max := by
  rw [round] at h
  split at h
  · rename_i hbounds
    exact hbounds.2
  · cases h

theorem round_isFinite (h0 : 0 ≤ magnitude) (h : magnitude < f32Overflow) :
    (round negative magnitude).isFinite = true := by
  obtain ⟨hbounds, hround⟩ := @round_eq_finite negative magnitude (roundMagnitude_le h0 h)
  rw [hround]
  rfl

/-- A finite result is close to the exact one. -/
theorem round_error (h0 : 0 ≤ magnitude) (h : (round negative magnitude).isFinite = true) :
    |(round negative magnitude).toRat - signed negative magnitude| ≤ 2 ^ 103 := by
  have hle := roundMagnitude_le_of_isFinite h
  obtain ⟨hbounds, hround⟩ := @round_eq_finite negative magnitude hle
  have herror := roundMagnitude_error h0
  have hquantum := quantum_le hle
  have hclose : |roundMagnitude magnitude - magnitude| ≤ 2 ^ 103 := by
    norm_num at herror hquantum ⊢
    linarith
  rw [hround, toRat_finite]
  cases negative with
  | false => exact hclose
  | true =>
    rw [signed, signed, if_pos rfl, if_pos rfl, neg_sub_neg, abs_sub_comm]
    exact hclose

theorem round_pos (h : f32Underflow < magnitude) (hlt : magnitude < f32Overflow) :
    0 < (round false magnitude).toRat := by
  have h0 : 0 ≤ magnitude := le_trans (by rw [f32Underflow]; norm_num) h.le
  obtain ⟨hbounds, hround⟩ := @round_eq_finite false magnitude (roundMagnitude_le h0 hlt)
  rw [hround]
  exact roundMagnitude_pos h

private theorem signed_abs (value : ℚ) : signed (value < 0) |value| = value := by
  rw [signed]
  split
  · rename_i hneg
    rw [abs_of_neg (of_decide_eq_true hneg), neg_neg]
  · rename_i hnonneg
    rw [abs_of_nonneg (not_lt.1 fun hneg => hnonneg (decide_eq_true hneg))]

theorem ofRatSigned_isFinite (h : |value| < f32Overflow) :
    (ofRatSigned negative value).isFinite = true := by
  rw [ofRatSigned]
  split
  · rfl
  · exact round_isFinite (abs_nonneg value) h

theorem ofRatSigned_error (h : (ofRatSigned negative value).isFinite = true) :
    |(ofRatSigned negative value).toRat - value| ≤ 2 ^ 103 := by
  rw [ofRatSigned] at h ⊢
  split
  · rename_i hzero
    rw [toRat_zero, hzero]
    norm_num
  · rename_i hzero
    rw [if_neg hzero] at h
    have herror := round_error (abs_nonneg value) h
    rwa [signed_abs] at herror

end round

section operations

variable {left right : F32}

theorem toRat_neg (value : F32) : (-value).toRat = -value.toRat := by
  rcases value with _ | _ | ⟨_ | _, magnitude⟩
  · exact neg_zero.symm
  · exact neg_zero.symm
  · rfl
  · exact (neg_neg magnitude.1).symm

theorem isFinite_neg (value : F32) : (-value).isFinite = value.isFinite := by
  cases value <;> rfl

theorem add_eq (hleft : left.isFinite = true) (hright : right.isFinite = true) :
    ∃ negative, left + right = ofRatSigned negative (left.toRat + right.toRat) := by
  cases left <;> cases hleft
  cases right <;> cases hright
  exact ⟨_, rfl⟩

theorem isFinite_of_add (h : (left + right).isFinite = true) :
    left.isFinite = true ∧ right.isFinite = true := by
  cases left with
  | nan => cases right <;> cases h
  | infinite negative =>
    cases right with
    | nan => cases h
    | infinite other =>
      have h : (if negative = other then infinite negative else nan).isFinite = true := h
      split at h <;> cases h
    | finite => cases h
  | finite =>
    cases right with
    | finite => exact ⟨rfl, rfl⟩
    | nan | infinite => cases h

theorem add_isFinite (hleft : left.isFinite = true) (hright : right.isFinite = true)
    (h : |left.toRat + right.toRat| < f32Overflow) : (left + right).isFinite = true := by
  obtain ⟨negative, hadd⟩ := add_eq hleft hright
  rw [hadd]
  exact ofRatSigned_isFinite h

theorem add_error (h : (left + right).isFinite = true) :
    |(left + right).toRat - (left.toRat + right.toRat)| ≤ 2 ^ 103 := by
  obtain ⟨hleft, hright⟩ := isFinite_of_add h
  obtain ⟨negative, hadd⟩ := add_eq hleft hright
  rw [hadd] at h ⊢
  exact ofRatSigned_error h

theorem isFinite_of_sub (h : (left - right).isFinite = true) :
    left.isFinite = true ∧ right.isFinite = true := by
  obtain ⟨hleft, hright⟩ := isFinite_of_add h
  exact ⟨hleft, (isFinite_neg right).symm.trans hright⟩

theorem sub_error (h : (left - right).isFinite = true) :
    |(left - right).toRat - (left.toRat - right.toRat)| ≤ 2 ^ 103 := by
  have herror := add_error h
  rwa [toRat_neg, ← sub_eq_add_neg] at herror

theorem signed_mul (negative other : Bool) (magnitude factor : ℚ) :
    signed (negative ^^ other) (magnitude * factor) =
      signed negative magnitude * signed other factor := by
  cases negative <;> cases other <;> simp [signed]

theorem mul_eq (hleft : left.isFinite = true) (hright : right.isFinite = true) :
    ∃ negative magnitude, 0 ≤ magnitude ∧ signed negative magnitude = left.toRat * right.toRat ∧
      left * right = round negative magnitude := by
  cases left with
  | nan | infinite => cases hleft
  | finite negative magnitude =>
    cases right with
    | nan | infinite => cases hright
    | finite other factor =>
      refine ⟨_, _, mul_nonneg magnitude.2.1 factor.2.1, ?_, rfl⟩
      rw [toRat_finite, toRat_finite, signed_mul]

theorem div_eq (hleft : left.isFinite = true) (hright : right.isFinite = true)
    (hne : right.toRat ≠ 0) :
    ∃ negative magnitude, 0 ≤ magnitude ∧ signed negative magnitude = left.toRat / right.toRat ∧
      left / right = round negative magnitude := by
  cases left with
  | nan | infinite => cases hleft
  | finite negative magnitude =>
    cases right with
    | nan | infinite => cases hright
    | finite other divisor =>
      have hdivisor : divisor.1 ≠ 0 := by
        rintro heq
        refine hne ?_
        rw [toRat_finite, heq]
        cases other <;> simp [signed]
      refine ⟨_, _, div_nonneg magnitude.2.1 divisor.2.1, ?_, if_neg hdivisor⟩
      rw [toRat_finite, toRat_finite, div_eq_mul_inv, signed_mul, div_eq_mul_inv]
      congr 1
      cases other <;> simp [signed, inv_neg]

theorem abs_signed (negative : Bool) {magnitude : ℚ} (h : 0 ≤ magnitude) :
    |signed negative magnitude| = magnitude := by
  cases negative <;> simp [signed, abs_of_nonneg h]

theorem isFinite_of_mul (h : (left * right).isFinite = true) :
    left.isFinite = true ∧ right.isFinite = true := by
  have hinfinite : ∀ condition : Prop, [Decidable condition] → ∀ negative,
      (if condition then nan else infinite negative).isFinite = true → False := by
    intro condition _ negative h
    split at h <;> cases h
  cases left with
  | nan => cases right <;> cases h
  | infinite =>
    cases right with
    | nan | infinite => cases h
    | finite => exact (hinfinite _ _ h).elim
  | finite =>
    cases right with
    | nan => cases h
    | infinite => exact (hinfinite _ _ h).elim
    | finite => exact ⟨rfl, rfl⟩

theorem mul_isFinite (hleft : left.isFinite = true) (hright : right.isFinite = true)
    (h : |left.toRat * right.toRat| < f32Overflow) : (left * right).isFinite = true := by
  obtain ⟨negative, magnitude, h0, hvalue, hmul⟩ := mul_eq hleft hright
  rw [← hvalue, abs_signed negative h0] at h
  rw [hmul]
  exact round_isFinite h0 h

theorem mul_error (hleft : left.isFinite = true) (hright : right.isFinite = true)
    (h : (left * right).isFinite = true) :
    |(left * right).toRat - left.toRat * right.toRat| ≤ 2 ^ 103 := by
  obtain ⟨negative, magnitude, h0, hvalue, hmul⟩ := mul_eq hleft hright
  rw [hmul] at h ⊢
  rw [← hvalue]
  exact round_error h0 h

/-- A positive product in the range is positive when rounded. -/
theorem mul_pos_of (hleft : left.isFinite = true) (hright : right.isFinite = true)
    (h : f32Underflow < left.toRat * right.toRat) (hlt : left.toRat * right.toRat < f32Overflow) :
    0 < (left * right).toRat := by
  obtain ⟨negative, magnitude, h0, hvalue, hmul⟩ := mul_eq hleft hright
  have hpos : 0 < signed negative magnitude := by
    rw [hvalue]
    exact lt_trans (by rw [f32Underflow]; norm_num) h
  cases negative with
  | true =>
    rw [signed, if_pos rfl] at hpos
    linarith
  | false =>
    rw [← hvalue] at h hlt
    rw [hmul]
    exact round_pos h hlt

theorem div_isFinite (hleft : left.isFinite = true) (hright : right.isFinite = true)
    (hne : right.toRat ≠ 0) (h : |left.toRat / right.toRat| < f32Overflow) :
    (left / right).isFinite = true := by
  obtain ⟨negative, magnitude, h0, hvalue, hdiv⟩ := div_eq hleft hright hne
  rw [← hvalue, abs_signed negative h0] at h
  rw [hdiv]
  exact round_isFinite h0 h

theorem div_error (hleft : left.isFinite = true) (hright : right.isFinite = true)
    (hne : right.toRat ≠ 0) (h : (left / right).isFinite = true) :
    |(left / right).toRat - left.toRat / right.toRat| ≤ 2 ^ 103 := by
  obtain ⟨negative, magnitude, h0, hvalue, hdiv⟩ := div_eq hleft hright hne
  rw [hdiv] at h ⊢
  rw [← hvalue]
  exact round_error h0 h

/-- Results have the sign of the exact ones. -/
theorem round_nonneg {negative : Bool} {magnitude : ℚ} (h0 : 0 ≤ magnitude)
    (h : 0 ≤ signed negative magnitude) : 0 ≤ (round negative magnitude).toRat := by
  rw [round]
  split
  · rename_i hbounds
    rw [toRat_finite]
    cases negative with
    | false => exact hbounds.1
    | true =>
      obtain rfl : magnitude = 0 := le_antisymm (neg_nonneg.1 h) h0
      have hzero : roundMagnitude 0 = 0 := by
        rw [roundMagnitude, zero_div, show Duration.roundHalfEven 0 = 0 by decide +kernel,
          Nat.cast_zero, zero_mul]
      simp [signed, hzero]
  · cases negative <;> exact le_rfl

theorem mul_nonneg_of (hleft : left.isFinite = true) (hright : right.isFinite = true)
    (h : 0 ≤ left.toRat * right.toRat) : 0 ≤ (left * right).toRat := by
  obtain ⟨negative, magnitude, h0, hvalue, hmul⟩ := mul_eq hleft hright
  rw [hmul]
  exact round_nonneg h0 (by rwa [hvalue])

theorem div_nonneg_of (hleft : left.isFinite = true) (hright : right.isFinite = true)
    (hne : right.toRat ≠ 0) (h : 0 ≤ left.toRat / right.toRat) : 0 ≤ (left / right).toRat := by
  obtain ⟨negative, magnitude, h0, hvalue, hdiv⟩ := div_eq hleft hright hne
  rw [hdiv]
  exact round_nonneg h0 (by rwa [hvalue])

/-- The least positive number. -/
theorem least_le_roundMagnitude {magnitude : ℚ} (h : 0 < roundMagnitude magnitude) :
    1 / 2 ^ 149 ≤ roundMagnitude magnitude := by
  have hpos := quantum_pos magnitude
  have hdigits : 0 < Duration.roundHalfEven (magnitude / quantum magnitude) := by
    by_contra hzero
    rw [roundMagnitude, Nat.eq_zero_of_not_pos hzero] at h
    simp at h
  have hdigits : (1 : ℚ) ≤ Duration.roundHalfEven (magnitude / quantum magnitude) := by
    exact_mod_cast hdigits
  have hquantum : (1 : ℚ) / 2 ^ 149 ≤ quantum magnitude := by
    rw [quantum, one_div, ← zpow_natCast, ← zpow_neg]
    exact zpow_le_zpow_right₀ (by norm_num) (by omega)
  calc (1 : ℚ) / 2 ^ 149 ≤ 1 * quantum magnitude := by rwa [one_mul]
    _ ≤ roundMagnitude magnitude := mul_le_mul_of_nonneg_right hdigits hpos.le

/-- Half of a magnitude stays when it is rounded. -/
theorem half_le_roundMagnitude {magnitude : ℚ} (h : 1 / 2 ^ 149 ≤ magnitude) :
    magnitude / 2 ≤ roundMagnitude magnitude := by
  have hpos : 0 < magnitude := lt_of_lt_of_le (by norm_num) h
  by_cases hnormal : (2 : ℚ) ^ (-126 : ℤ) ≤ magnitude
  · have herror := abs_le.1 (@BinaryRounding.Normal.nearest_error 23 _ _ (.inr hnormal))
    rw [← roundMagnitude_eq] at herror
    norm_num at herror
    linarith
  · have herror := abs_le.1 (roundMagnitude_error hpos.le)
    have hlog : Int.log 2 magnitude < -126 :=
      (Int.lt_zpow_iff_log_lt (by norm_num) hpos).1 (by exact_mod_cast not_le.1 hnormal)
    have hquantum : quantum magnitude = 2 ^ (-149 : ℤ) := by
      rw [quantum, max_eq_right hlog.le]
      norm_num
    rw [hquantum] at herror
    norm_num at h herror ⊢
    linarith

theorem least_le_mul (h : 0 < (left * right).toRat) : 1 / 2 ^ 149 ≤ (left * right).toRat := by
  have hfinite : (left * right).isFinite = true := by
    cases hvalue : left * right with
    | finite => rfl
    | nan | infinite =>
      rw [hvalue] at h
      exact absurd h (lt_irrefl 0)
  obtain ⟨hleft, hright⟩ := isFinite_of_mul hfinite
  obtain ⟨negative, magnitude, -, -, hmul⟩ := mul_eq hleft hright
  rw [hmul] at h hfinite ⊢
  obtain ⟨hbounds, hround⟩ := round_eq_finite (roundMagnitude_le_of_isFinite hfinite)
  rw [hround, toRat_finite] at h ⊢
  cases negative with
  | false => exact least_le_roundMagnitude h
  | true =>
    rw [signed, if_pos rfl] at h
    linarith [hbounds.1]

theorem half_le_mul (hleft : left.isFinite = true) (hright : right.isFinite = true)
    (hfinite : (left * right).isFinite = true) (h : 1 / 2 ^ 149 ≤ left.toRat * right.toRat) :
    left.toRat * right.toRat / 2 ≤ (left * right).toRat := by
  obtain ⟨negative, magnitude, h0, hvalue, hmul⟩ := mul_eq hleft hright
  rw [hmul] at hfinite ⊢
  rw [← hvalue] at h ⊢
  obtain ⟨hbounds, hround⟩ := round_eq_finite (roundMagnitude_le_of_isFinite hfinite)
  rw [hround, toRat_finite]
  cases negative with
  | false => exact half_le_roundMagnitude h
  | true =>
    rw [signed, if_pos rfl] at h
    exact absurd (lt_of_lt_of_le (by norm_num : (0 : ℚ) < 1 / 2 ^ 149) h) (by linarith)

/-- A product of finite numbers is a number or overflows. -/
theorem mul_cases (hleft : left.isFinite = true) (hright : right.isFinite = true) :
    (left * right).isFinite = true ∨ ∃ negative, left * right = infinite negative := by
  obtain ⟨negative, magnitude, -, -, hmul⟩ := mul_eq hleft hright
  rw [hmul, round]
  split
  · exact .inl rfl
  · exact .inr ⟨negative, rfl⟩

theorem div_infinite (hleft : left.isFinite = true) (negative : Bool) :
    (left / infinite negative).isFinite = true ∧ (left / infinite negative).toRat = 0 := by
  cases left with
  | nan | infinite => cases hleft
  | finite => exact ⟨rfl, toRat_zero _⟩

/-! ## Bounds of a value -/

theorem lt_eq (hleft : left.isFinite = true) (hright : right.isFinite = true) :
    left.lt right = decide (left.toRat < right.toRat) := by
  cases left <;> cases hleft
  cases right <;> cases hright
  rfl

/-- Anything but a missing number is brought between two numbers. -/
theorem clamp_spec {value lower upper : F32} (hvalue : value.isNan = false)
    (hlower : lower.isFinite = true) (hupper : upper.isFinite = true)
    (h : lower.toRat ≤ upper.toRat) :
    (value.clamp lower upper).isFinite = true ∧ lower.toRat ≤ (value.clamp lower upper).toRat ∧
      (value.clamp lower upper).toRat ≤ upper.toRat := by
  have hordered : upper.lt lower = false := by
    rw [lt_eq hupper hlower, decide_eq_false_iff_not]
    exact not_lt.2 h
  cases value with
  | nan => cases hvalue
  | infinite negative =>
    cases negative with
    | true =>
      have hbelow : (infinite true).lt lower = true := by
        cases lower with
        | finite => rfl
        | nan | infinite => cases hlower
      simp [clamp, hbelow, hordered, hlower, h]
    | false =>
      have hbelow : (infinite false).lt lower = false := by
        cases lower with
        | finite => rfl
        | nan | infinite => cases hlower
      have habove : upper.lt (infinite false) = true := by
        cases upper with
        | finite => rfl
        | nan | infinite => cases hupper
      simp [clamp, hbelow, habove, hupper, h]
  | finite negative magnitude =>
    have hfinite : (finite negative magnitude).isFinite = true := rfl
    rw [clamp]
    by_cases hbelow : (finite negative magnitude).lt lower = true
    · simp [hbelow, hordered, hlower, h]
    · rw [lt_eq hfinite hlower, decide_eq_true_eq, not_lt] at hbelow
      by_cases habove : upper.lt (finite negative magnitude) = true
      · simp [lt_eq hfinite hlower, not_lt.2 hbelow, habove, hupper, h]
      · have hle := habove
        rw [lt_eq hupper hfinite, decide_eq_true_eq, not_lt] at hle
        simp [lt_eq hfinite hlower, not_lt.2 hbelow, habove, hfinite, hbelow, hle]

/-- Below an infinite bound only an infinity stays one. -/
theorem clamp_infinite_isFinite {value lower : F32} (hvalue : value.isNan = false)
    (hne : value ≠ infinite false) (hlower : lower.isFinite = true) :
    (value.clamp lower (infinite false)).isFinite = true := by
  have habove : ∀ raised : F32, (infinite false).lt raised = false := by
    intro raised
    cases raised <;> rfl
  rw [clamp]
  simp only [habove, Bool.false_eq_true, if_false]
  split
  · exact hlower
  · rename_i hbelow
    rcases value with _ | ⟨_ | _⟩ | _
    · cases hvalue
    · exact absurd rfl hne
    · cases lower with
      | finite => exact absurd rfl hbelow
      | nan | infinite => cases hlower
    · rfl

/-! ## Numbers that are none -/

theorem round_isNan (negative : Bool) (magnitude : ℚ) : (round negative magnitude).isNan = false := by
  rw [round]
  split <;> rfl

theorem add_isNan (hleft : left.isFinite = true) (hright : right.isNan = false) :
    (left + right).isNan = false := by
  cases left with
  | nan | infinite => cases hleft
  | finite =>
    cases right with
    | nan => cases hright
    | infinite => rfl
    | finite =>
      change (ofRatSigned _ _).isNan = false
      rw [ofRatSigned]
      split
      · rfl
      · exact round_isNan _ _

theorem div_isNan (hleft : left.isNan = false) (hright : right.isFinite = true)
    (hne : right.toRat ≠ 0) : (left / right).isNan = false := by
  cases left with
  | nan => cases hleft
  | infinite =>
    cases right with
    | nan | infinite => cases hright
    | finite => rfl
  | finite sign numerator =>
    obtain ⟨negative, magnitude, -, -, hdiv⟩ := @div_eq (finite sign numerator) right rfl hright hne
    rw [hdiv]
    exact round_isNan _ _

end operations

end F32

end Blip
