import Blip.Common.BinaryRounding
import Blip.Common.Duration

/-!
# Media times

A capture backend states a time as a number of parts of a second. `FrameTimestamp::from_ratio` counts
its whole nanoseconds, so that the screen, the camera and the audio, whose parts differ, are
compared on one clock. The seconds between two timestamps are a float. Its operations are rounded,
which leaves it the sign of their order.
-/

namespace Blip.Capture

/-! ## Timestamps -/

/-- A `FrameTimestamp`: a reading of the platform's monotonic clock. -/
structure FrameTimestamp where
  durationSinceEpoch : Duration
deriving DecidableEq, Repr

/-- `FrameTimestamp::signed_seconds_since`. -/
def FrameTimestamp.signedSecondsSince (self earlier : FrameTimestamp) : ℚ :=
  if earlier.durationSinceEpoch ≤ self.durationSinceEpoch then
    (self.durationSinceEpoch.saturatingSub earlier.durationSinceEpoch).asSecsF64
  else -(earlier.durationSinceEpoch.saturatingSub self.durationSinceEpoch).asSecsF64

/-- An `i128` operation whose exact result is the given one. -/
def checkedI128 (value : ℤ) : Option ℤ :=
  if -2 ^ 127 ≤ value ∧ value < 2 ^ 127 then some value else none

/-- `i128::checked_mul`. -/
def checkedMul (left right : ℤ) : Option ℤ := checkedI128 (left * right)

/-- `i128::checked_div`, which truncates. -/
def checkedDiv (left right : ℤ) : Option ℤ :=
  if right = 0 then none else checkedI128 (left.tdiv right)

/-- `u64::try_from`. -/
def tryFromI128 (value : ℤ) : Option ℕ :=
  if 0 ≤ value ∧ value < 2 ^ 64 then some value.toNat else none

/-- `FrameTimestamp::from_ratio`. -/
def FrameTimestamp.fromRatio (value : Int64) (timescale : Int32) : Option FrameTimestamp :=
  if value < 0 ∨ timescale ≤ 0 then none
  else do
    let product ← checkedMul value.toInt 1000000000
    let nanos ← checkedDiv product timescale.toInt
    let nanos ← tryFromI128 nanos
    some ⟨⟨nanos⟩⟩

/-- The `f64` nearest to a number that is not negative and far below the largest one. -/
def nearestF64 (value : ℚ) : ℚ := BinaryRounding.nearest 52 (-1022) value

/-- `Duration::as_secs_f64`, every operation rounded. A `u32` and the divisor are floats as they
are. -/
def asSecsRounded (duration : Duration) : ℚ :=
  nearestF64 (nearestF64 duration.asSecs + nearestF64 (duration.subsecNanos / 1000000000))

/-- `FrameTimestamp::signed_seconds_since`, every operation rounded. -/
def FrameTimestamp.signedSecondsSinceRounded (self earlier : FrameTimestamp) : ℚ :=
  if earlier.durationSinceEpoch ≤ self.durationSinceEpoch then
    asSecsRounded (self.durationSinceEpoch.saturatingSub earlier.durationSinceEpoch)
  else -asSecsRounded (earlier.durationSinceEpoch.saturatingSub self.durationSinceEpoch)

/-! ## Differences -/

/-- Seconds from one duration to another. -/
def secondsBetween (earlier later : Duration) : ℚ :=
  ((later.nanos : ℚ) - earlier.nanos) / 1000000000

theorem signed_saturatingSub (earlier later : Duration) :
    (if earlier ≤ later then (later.saturatingSub earlier).asSecsF64
      else -(earlier.saturatingSub later).asSecsF64) = secondsBetween earlier later := by
  simp only [Duration.le_def, Duration.saturatingSub, Duration.asSecsF64, secondsBetween]
  split
  · next h => rw [Nat.cast_sub h]
  · next h =>
    rw [Nat.cast_sub (by omega), ← neg_div, neg_sub]

/-- The difference has no other form than the subtraction of the readings. -/
theorem FrameTimestamp.signedSecondsSince_eq (later earlier : FrameTimestamp) :
    later.signedSecondsSince earlier =
      secondsBetween earlier.durationSinceEpoch later.durationSinceEpoch :=
  signed_saturatingSub _ _

/-! ## Nanoseconds of a rational time -/

/-- The exact time in nanoseconds. -/
def exactNanos (value : Int64) (timescale : Int32) : ℚ :=
  (value.toInt : ℚ) / timescale.toInt * 1000000000

section fromRatio

variable {value value' : Int64} {timescale timescale' : Int32}

theorem exactNanos_nonneg (hvalue : 0 ≤ value) (htimescale : 0 < timescale) :
    0 ≤ exactNanos value timescale := by
  have hvalue := Int64.le_iff_toInt_le.1 hvalue
  have htimescale := Int32.lt_iff_toInt_lt.1 htimescale
  simp only [Int64.toInt_zero, Int32.toInt_zero] at hvalue htimescale
  rw [exactNanos]
  positivity

/-- Truncated division takes the whole nanoseconds. -/
theorem tdiv_eq_floor (hvalue : 0 ≤ value) (htimescale : 0 < timescale) :
    (value.toInt * 1000000000).tdiv timescale.toInt = ⌊exactNanos value timescale⌋ := by
  have hvalue := Int64.le_iff_toInt_le.1 hvalue
  have htimescale := Int32.lt_iff_toInt_lt.1 htimescale
  simp only [Int64.toInt_zero, Int32.toInt_zero] at hvalue htimescale
  -- no operand is negative, so truncating is rounding down
  obtain ⟨parts, hparts⟩ := Int.eq_ofNat_of_zero_le htimescale.le
  rw [Int.tdiv_eq_ediv_of_nonneg (by omega), exactNanos, div_mul_eq_mul_div, hparts,
    Int.cast_natCast, ← Rat.floor_intCast_div_natCast]
  push_cast
  rfl

/-- Neither operation leaves the 128 bits. -/
theorem checked_eq (hvalue : 0 ≤ value) (htimescale : 0 < timescale) :
    checkedMul value.toInt 1000000000 = some (value.toInt * 1000000000) ∧
      checkedDiv (value.toInt * 1000000000) timescale.toInt =
        some ⌊exactNanos value timescale⌋ := by
  have hfloor := tdiv_eq_floor hvalue htimescale
  have hvalue := Int64.le_iff_toInt_le.1 hvalue
  have htimescale := Int32.lt_iff_toInt_lt.1 htimescale
  simp only [Int64.toInt_zero, Int32.toInt_zero] at hvalue htimescale
  have hlt := value.toInt_lt
  have hquotient : (value.toInt * 1000000000).tdiv timescale.toInt ≤ value.toInt * 1000000000 := by
    rw [Int.tdiv_eq_ediv_of_nonneg (by omega)]
    exact Int.ediv_le_self _ (by omega)
  have hnonneg : 0 ≤ (value.toInt * 1000000000).tdiv timescale.toInt :=
    Int.tdiv_nonneg (by omega) htimescale.le
  -- the product is below `2 ^ 63 * 10 ^ 9`, and the quotient is not more
  constructor
  · rw [checkedMul, checkedI128, if_pos (by omega)]
  · rw [checkedDiv, if_neg htimescale.ne', checkedI128, if_pos (by omega), hfloor]

/-- The conversion counts the whole nanoseconds, if 64 bits have room for them. -/
theorem FrameTimestamp.fromRatio_eq (hvalue : 0 ≤ value) (htimescale : 0 < timescale) :
    fromRatio value timescale =
      if ⌊exactNanos value timescale⌋ < 2 ^ 64 then
        some ⟨⟨⌊exactNanos value timescale⌋.toNat⟩⟩
      else none := by
  obtain ⟨hmul, hdiv⟩ := checked_eq hvalue htimescale
  have hnonneg : 0 ≤ ⌊exactNanos value timescale⌋ :=
    Int.floor_nonneg.2 (exactNanos_nonneg hvalue htimescale)
  have hguard : ¬ (value < 0 ∨ timescale ≤ 0) := by
    rw [not_or]
    exact ⟨Int64.not_lt.2 hvalue, Int32.not_le.2 htimescale⟩
  rw [fromRatio, if_neg hguard, hmul, Option.bind_eq_bind, Option.bind_some, hdiv,
    Option.bind_eq_bind, Option.bind_some, tryFromI128]
  simp only [hnonneg, true_and]
  split <;> rfl

/-- Three halves of a second. -/
example : FrameTimestamp.fromRatio 3 2 = some ⟨⟨1500000000⟩⟩ := by decide

end fromRatio

/-! ## Seconds between timestamps -/

/-- Three roundings lose little: the terms and their sum are zero or in the normal range. -/
theorem asSecsRounded_error (duration : Duration) :
    |asSecsRounded duration - duration.asSecsF64| ≤ duration.asSecsF64 / 2 ^ 51 := by
  have hlowest : ∀ parts ≤ (1000000000 : ℚ), 0 < parts → (2 : ℚ) ^ (-1022 : ℤ) ≤ 1 / parts := by
    intro parts hle hparts
    have hsmall : (2 : ℚ) ^ (-1022 : ℤ) ≤ 2 ^ (-30 : ℤ) :=
      zpow_le_zpow_right₀ (by norm_num) (by norm_num)
    refine hsmall.trans ?_
    rw [le_div_iff₀ hparts]
    norm_num
    linarith
  have hsecs : BinaryRounding.Normal (-1022) (duration.asSecs : ℚ) := by
    simpa using BinaryRounding.Normal.natCast_div duration.asSecs (hlowest 1 (by norm_num) one_pos)
  have hsubsec : BinaryRounding.Normal (-1022) ((duration.subsecNanos : ℚ) / 1000000000) :=
    BinaryRounding.Normal.natCast_div _ (hlowest _ le_rfl (by norm_num))
  have hexact : duration.asSecsF64 = duration.asSecs + (duration.subsecNanos : ℚ) / 1000000000 := by
    rw [Duration.asSecsF64, Duration.asSecs, Duration.subsecNanos]
    have := Nat.div_add_mod duration.nanos 1000000000
    field_simp
    exact_mod_cast by omega
  -- each rounding adds an error of one part in `2 ^ 53`
  have hsecsError := abs_le.1 (@BinaryRounding.Normal.nearest_error 52 _ _ hsecs)
  have hsubsecError := abs_le.1 (@BinaryRounding.Normal.nearest_error 52 _ _ hsubsec)
  have hsumError := abs_le.1 (@BinaryRounding.Normal.nearest_error 52 _ _
    ((@BinaryRounding.Normal.nearest 52 _ _ hsecs).add (@BinaryRounding.Normal.nearest 52 _ _ hsubsec)))
  have hnonneg := hsecs.nonneg
  have hsubsecNonneg := hsubsec.nonneg
  rw [hexact, asSecsRounded, nearestF64, nearestF64, nearestF64, abs_le]
  norm_num only [pow_succ] at hsecsError hsubsecError hsumError ⊢
  constructor <;> linarith

theorem asSecsRounded_zero : asSecsRounded ⟨0⟩ = 0 := by
  have herror := asSecsRounded_error ⟨0⟩
  simpa [Duration.asSecsF64] using herror

/-- A float close to a number has its sign. -/
theorem sign_of_error {rounded exact : ℚ} (h : |rounded - exact| ≤ |exact| / 2 ^ 51) :
    (0 < rounded ↔ 0 < exact) ∧ (rounded = 0 ↔ exact = 0) := by
  have herror := abs_le.1 h
  -- an error below the number itself leaves it on its side of zero
  rcases lt_trichotomy exact 0 with hneg | rfl | hpos
  · rw [abs_of_neg hneg] at herror
    have hrounded : rounded < 0 := by norm_num at herror; linarith
    exact ⟨iff_of_false hrounded.not_gt hneg.not_gt, iff_of_false hrounded.ne hneg.ne⟩
  · have hrounded : rounded = 0 := by simpa using h
    simp [hrounded]
  · rw [abs_of_pos hpos] at herror
    have hrounded : 0 < rounded := by norm_num at herror; linarith
    exact ⟨iff_of_true hrounded hpos, iff_of_false hrounded.ne' hpos.ne'⟩

namespace FrameTimestamp

/-- The float is close to the exact difference. -/
theorem signedSecondsSinceRounded_error (later earlier : FrameTimestamp) :
    |later.signedSecondsSinceRounded earlier - later.signedSecondsSince earlier| ≤
      |later.signedSecondsSince earlier| / 2 ^ 51 := by
  have hnonneg : ∀ duration : Duration, 0 ≤ duration.asSecsF64 := fun duration => by
    rw [Duration.asSecsF64]
    positivity
  rw [signedSecondsSinceRounded, signedSecondsSince]
  split
  · rw [abs_of_nonneg (hnonneg _)]
    exact asSecsRounded_error _
  · rw [abs_neg, abs_of_nonneg (hnonneg _), neg_sub_neg, abs_sub_comm]
    exact asSecsRounded_error _

theorem signedSecondsSinceRounded_antisymm (later earlier : FrameTimestamp) :
    later.signedSecondsSinceRounded earlier = -earlier.signedSecondsSinceRounded later := by
  rw [signedSecondsSinceRounded, signedSecondsSinceRounded]
  rcases lt_trichotomy earlier.durationSinceEpoch later.durationSinceEpoch with h | h | h
  · rw [if_pos h.le, if_neg h.not_ge, neg_neg]
  · -- zero is its own negative
    have hzero : later.durationSinceEpoch.saturatingSub later.durationSinceEpoch = ⟨0⟩ := by
      rw [Duration.saturatingSub, Nat.sub_self]
    rw [h, if_pos le_rfl, hzero, asSecsRounded_zero, neg_zero]
  · rw [if_neg h.not_ge, if_pos h.le]

/-- The difference is positive, zero or negative as the readings are ordered. -/
theorem signedSecondsSince_sign (later earlier : FrameTimestamp) :
    (0 < later.signedSecondsSince earlier ↔
      earlier.durationSinceEpoch < later.durationSinceEpoch) ∧
    (later.signedSecondsSince earlier = 0 ↔ later = earlier) := by
  rw [signedSecondsSince_eq, secondsBetween]
  constructor
  · rw [div_pos_iff_of_pos_right (by norm_num), sub_pos, Nat.cast_lt]
    rfl
  · rw [div_eq_zero_iff, or_iff_left (by norm_num), sub_eq_zero, Nat.cast_inj]
    constructor
    · intro h
      cases later
      exact congrArg mk (congrArg Duration.mk h)
    · rintro rfl
      rfl

/-! ## Order -/

section

variable {value value' : Int64} {timescale timescale' : Int32}

/-- The whole nanoseconds are less than one below the exact time. -/
theorem fromRatio_bounds (hvalue : 0 ≤ value) (htimescale : 0 < timescale)
    {timestamp : FrameTimestamp} (h : timestamp ∈ fromRatio value timescale) :
    exactNanos value timescale - 1 < timestamp.durationSinceEpoch.nanos ∧
      (timestamp.durationSinceEpoch.nanos : ℚ) ≤ exactNanos value timescale := by
  have hnonneg : 0 ≤ ⌊exactNanos value timescale⌋ :=
    Int.floor_nonneg.2 (exactNanos_nonneg hvalue htimescale)
  have hcast : ((⌊exactNanos value timescale⌋.toNat : ℕ) : ℚ) = ⌊exactNanos value timescale⌋ := by
    exact_mod_cast Int.toNat_of_nonneg hnonneg
  rw [fromRatio_eq hvalue htimescale] at h
  split at h
  · cases h
    rw [hcast]
    exact ⟨Int.sub_one_lt_floor _, Int.floor_le _⟩
  · cases h

/-- A time that is not later has a timestamp if the later one has, and one that is not later. -/
theorem fromRatio_mono (hvalue : 0 ≤ value) (htimescale : 0 < timescale) (hvalue' : 0 ≤ value')
    (htimescale' : 0 < timescale')
    (hle : (value.toInt : ℚ) / timescale.toInt ≤ (value'.toInt : ℚ) / timescale'.toInt)
    {timestamp' : FrameTimestamp} (h : timestamp' ∈ fromRatio value' timescale') :
    ∃ timestamp ∈ fromRatio value timescale,
      timestamp.durationSinceEpoch ≤ timestamp'.durationSinceEpoch := by
  have hfloor : ⌊exactNanos value timescale⌋ ≤ ⌊exactNanos value' timescale'⌋ := by
    apply Int.floor_mono
    rw [exactNanos, exactNanos]
    exact mul_le_mul_of_nonneg_right hle (by norm_num)
  rw [fromRatio_eq hvalue' htimescale'] at h
  split at h
  · next hfits =>
    cases h
    refine ⟨⟨⟨⌊exactNanos value timescale⌋.toNat⟩⟩, ?_, Int.toNat_le_toNat hfloor⟩
    rw [fromRatio_eq hvalue htimescale, if_pos (hfloor.trans_lt hfits)]
    rfl
  · cases h

/-- Rational media times become timestamps without overflow: exactly those whose whole nanoseconds
fit, rounded down by less than a nanosecond, in the order of the times. The float difference of
two timestamps has the sign of their order. -/
theorem fromRatio_ordered (hvalue : 0 ≤ value) (htimescale : 0 < timescale) (hvalue' : 0 ≤ value')
    (htimescale' : 0 < timescale') (later earlier : FrameTimestamp) :
    (∃ product nanos, checkedMul value.toInt 1000000000 = some product ∧
      checkedDiv product timescale.toInt = some nanos) ∧
    ((fromRatio value timescale).isSome ↔ ⌊exactNanos value timescale⌋ < 2 ^ 64) ∧
    (∀ timestamp ∈ fromRatio value timescale,
      exactNanos value timescale - 1 < timestamp.durationSinceEpoch.nanos ∧
        (timestamp.durationSinceEpoch.nanos : ℚ) ≤ exactNanos value timescale) ∧
    ((value.toInt : ℚ) / timescale.toInt ≤ (value'.toInt : ℚ) / timescale'.toInt →
      ∀ timestamp' ∈ fromRatio value' timescale', ∃ timestamp ∈ fromRatio value timescale,
        timestamp.durationSinceEpoch ≤ timestamp'.durationSinceEpoch) ∧
    later.signedSecondsSinceRounded earlier = -earlier.signedSecondsSinceRounded later ∧
    (later.signedSecondsSinceRounded earlier = 0 ↔ later = earlier) ∧
    (0 < later.signedSecondsSinceRounded earlier ↔
      earlier.durationSinceEpoch < later.durationSinceEpoch) := by
  obtain ⟨hmul, hdiv⟩ := checked_eq hvalue htimescale
  have hsign := sign_of_error (signedSecondsSinceRounded_error later earlier)
  have hexact := signedSecondsSince_sign later earlier
  refine ⟨⟨_, _, hmul, hdiv⟩, ?_, ?_, ?_, signedSecondsSinceRounded_antisymm later earlier,
    hsign.2.trans hexact.2, hsign.1.trans hexact.1⟩
  · rw [fromRatio_eq hvalue htimescale]
    split <;> simp_all
  · intro timestamp h
    exact fromRatio_bounds hvalue htimescale h
  · intro hle timestamp' h
    exact fromRatio_mono hvalue htimescale hvalue' htimescale' hle h

/-- A time in halves of a second and a later one in thousandths. -/
theorem fromRatio_ordered_halves :
    (∃ timestamp ∈ fromRatio 3 2, timestamp.durationSinceEpoch ≤ ⟨1501000000⟩) ∧
      0 < signedSecondsSinceRounded ⟨⟨1501000000⟩⟩ ⟨⟨1500000000⟩⟩ := by
  obtain ⟨-, -, -, hmono, -, -, hsign⟩ :=
    @fromRatio_ordered 3 1501 2 1000 (by decide) (by decide) (by decide) (by decide)
      ⟨⟨1501000000⟩⟩ ⟨⟨1500000000⟩⟩
  refine ⟨hmono ?_ ⟨⟨1501000000⟩⟩ (by decide +kernel), hsign.2 (by decide)⟩
  rw [show (3 : Int64).toInt = 3 from rfl, show (2 : Int32).toInt = 2 from rfl,
    show (1501 : Int64).toInt = 1501 from rfl, show (1000 : Int32).toInt = 1000 from rfl]
  norm_num

end

end FrameTimestamp

end Blip.Capture
