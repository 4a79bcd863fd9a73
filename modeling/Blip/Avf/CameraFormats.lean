import Blip.Avf.Hls
import Blip.Common.KeepBest
import Mathlib.Data.Prod.Lex
import Mathlib.Data.Set.Finite.Lemmas
import Mathlib.Order.OrderDual

/-!
# Which format a camera records in

A camera has formats, each with the ranges of frame rates it supports. `select_format` goes through all
of them and keeps the best it has seen. Rates are exact.
-/

namespace Blip.Avf

/-- A range of an `AVCaptureDeviceFormat`; a rate that is not finite is `none`. -/
structure FrameRateRange where
  minFrameRate : Option ℚ
  maxFrameRate : Option ℚ
  minFrameDuration : CmTime

/-- An `AVCaptureDeviceFormat`: the dimensions and the sub type of its description, and its ranges. -/
structure CameraFormat where
  width : Int32
  height : Int32
  mediaSubType : UInt32
  ranges : List FrameRateRange

structure SelectedFormat where
  format : CameraFormat
  frameDuration : CmTime
  pixelFormat : UInt32
  dimensions : ℕ × ℕ
  frameRate : ℚ

/-- What is kept with the best format. -/
structure Candidate where
  rankedRate : ℚ
  native : Bool
  distance : ℕ
  selected : SelectedFormat

/-- `f64::EPSILON`. -/
def rateEpsilon : ℚ := 1 / 2 ^ 52

/-- `is_gpu_supported_format`: `BGRA`, `420v` or `420f`. -/
def isGpuSupportedFormat (format : UInt32) : Bool :=
  format == 0x42475241 || format == 0x34323076 || format == 0x34323066

/-- `ranked_frame_rate`. -/
def rankedFrameRate (desired actual : ℚ) : ℚ := if |desired - actual| < 1 then desired else actual

/-- `i32::try_from` of a rate. -/
def i32OfRate (fps : ℕ) : Option ℕ := if fps < 2 ^ 31 then some fps else none

/-- `u32::try_from` of a dimension. -/
def u32OfDimension (dimension : Int32) : Option ℕ :=
  if 0 ≤ dimension.toInt then some dimension.toInt.toNat else none

/-- How far the dimensions are from 1920 by 1080. -/
def CameraFormat.dimensionDistance (format : CameraFormat) : ℕ :=
  (format.width.toInt - 1920).natAbs + (format.height.toInt - 1080).natAbs

/-- `should_replace`. -/
def shouldReplace (rankedRate : ℚ) (native : Bool) (distance : ℕ) (best : Candidate) : Bool :=
  best.rankedRate < rankedRate ||
    |rankedRate - best.rankedRate| < rateEpsilon &&
      (native && !best.native || native == best.native && distance < best.distance)

/-- The rest of the loop's body, when the range has a rate; `none` returns from the function. -/
def considerRate (fps : ℕ) (format : CameraFormat) (best : Option Candidate) (rate : ℚ)
    (frameDuration : CmTime) : Option (Option Candidate) :=
  let rankedRate := rankedFrameRate fps rate
  let native := isGpuSupportedFormat format.mediaSubType
  let distance := format.dimensionDistance
  if best.all (shouldReplace rankedRate native distance) then do
    -- a negative dimension ends the whole selection, not this range alone
    let width ← u32OfDimension format.width
    let height ← u32OfDimension format.height
    let selected : SelectedFormat :=
      { format
        frameDuration
        pixelFormat := format.mediaSubType
        dimensions := (width, height)
        frameRate := rate }
    some (some
      { rankedRate
        native
        distance
        selected })
  else some best

/-- `CMTime::new(1, timescale)`. -/
def frameOf (timescale : ℕ) : CmTime where
  value := 1
  timescale
  isI64 := by decide

/-- The loop's body for a range. -/
def considerRange (fps : ℕ) (format : CameraFormat) (best : Option Candidate) (range : FrameRateRange) :
    Option (Option Candidate) :=
  match range.minFrameRate, range.maxFrameRate with
  | some minimum, some maximum =>
    if maximum ≤ 0 then some best
    else if minimum ≤ fps ∧ fps ≤ maximum then do
      -- a rate that is not an `i32` ends it too
      let timescale ← i32OfRate fps
      considerRate fps format best fps (frameOf timescale)
    else if maximum < fps then considerRate fps format best maximum range.minFrameDuration
    else some best
  | _, _ => some best

/-- `select_format`. -/
def selectFormat (formats : List CameraFormat) (fps : ℕ) : Option SelectedFormat := do
  let best ← formats.foldlM
    (fun best format => format.ranges.foldlM (considerRange fps format) best) none
  best.map Candidate.selected

/-! ## The order -/

/-- What AVFoundation documents of a range: its rates are in order, and its shortest duration is that of
a frame at its highest rate. -/
def FrameRateRange.Documented (range : FrameRateRange) : Prop :=
  ∀ minimum maximum, range.minFrameRate = some minimum → range.maxFrameRate = some maximum →
    minimum ≤ maximum ∧ (0 < maximum → range.minFrameDuration.seconds = 1 / maximum)

/-- A range has rates that are not above what is asked for. -/
def FrameRateRange.Usable (range : FrameRateRange) (fps : ℕ) : Prop :=
  ∃ minimum maximum, range.minFrameRate = some minimum ∧ range.maxFrameRate = some maximum ∧
    0 < maximum ∧
    (minimum ≤ fps ∨ maximum < fps)

def FrameRateRange.Contains (range : FrameRateRange) (rate : ℚ) : Prop :=
  ∃ minimum maximum, range.minFrameRate = some minimum ∧ range.maxFrameRate = some maximum ∧
    minimum ≤ rate ∧ rate ≤ maximum

/-- How well the frames of a format fit: as the GPU takes them, then near to 1920 by 1080. -/
def CameraFormat.fit (format : CameraFormat) : Bool ×ₗ ℕᵒᵈ :=
  toLex (isGpuSupportedFormat format.mediaSubType, OrderDual.toDual format.dimensionDistance)

/-- The rank of a format at a rate: first the rate, then how well its frames fit. -/
def CameraFormat.rank (format : CameraFormat) (fps : ℕ) (rate : ℚ) : ℚ ×ₗ Bool ×ₗ ℕᵒᵈ :=
  toLex (rankedFrameRate fps rate, format.fit)

/-- The highest rate of a range that is not above what is asked for. -/
def FrameRateRange.rate (range : FrameRateRange) (fps : ℕ) : ℚ := min ((range.maxFrameRate).getD 0) fps

/-- What is selected is at a rate of a range of its own, and no format has a better rank at any
of its. -/
structure Selects (formats : List CameraFormat) (fps : ℕ) (selected : SelectedFormat)
    (range : FrameRateRange) : Prop where
  isFormat : selected.format ∈ formats
  isRange : range ∈ selected.format.ranges
  usable : range.Usable fps
  rate_le : selected.frameRate ≤ fps
  contains : range.Contains selected.frameRate
  duration : selected.frameDuration.seconds = 1 / selected.frameRate
  pixelFormat : selected.pixelFormat = selected.format.mediaSubType
  dimensions : (selected.dimensions.1 : ℤ) = selected.format.width.toInt ∧
    (selected.dimensions.2 : ℤ) = selected.format.height.toInt
  best : ∀ format ∈ formats, ∀ range ∈ format.ranges, range.Usable fps →
    format.rank fps (range.rate fps) ≤ selected.format.rank fps selected.frameRate

/-- With a usable range, whatever their order, one of the formats is selected, always of the
same rank. -/
def SelectsBest (formats : List CameraFormat) (fps : ℕ) : Prop :=
  (∃ format ∈ formats, ∃ range ∈ format.ranges, range.Usable fps) →
    ∃ rank, ∀ formats', formats'.Perm formats →
      ∃ selected range, selectFormat formats' fps = some selected ∧ Selects formats fps selected range ∧
        selected.format.rank fps selected.frameRate = rank

/-- The dimensions of what is usable are not negative, and no rate that is a little below the best has a
format whose frames fit better. -/
structure TellsApart (formats : List CameraFormat) (fps : ℕ) : Prop where
  dimensions : ∀ format ∈ formats, (∃ range ∈ format.ranges, range.Usable fps) →
    0 ≤ format.width.toInt ∧ 0 ≤ format.height.toInt
  rates : ∀ best ∈ formats, ∀ range ∈ best.ranges, range.Usable fps →
    (∀ format ∈ formats, ∀ range' ∈ format.ranges, range'.Usable fps →
      format.rank fps (range'.rate fps) ≤ best.rank fps (range.rate fps)) →
    ∀ format ∈ formats, ∀ range' ∈ format.ranges, range'.Usable fps →
      rankedFrameRate fps (range'.rate fps) < rankedFrameRate fps (range.rate fps) →
      rankedFrameRate fps (range.rate fps) - rankedFrameRate fps (range'.rate fps) < rateEpsilon →
      format.fit ≤ best.fit

/-! ## Offers -/

/-- What a range of a format is kept as. -/
structure Offer where
  format : CameraFormat
  range : FrameRateRange
  rate : ℚ
  frameDuration : CmTime

/-- What a range has to offer, if it is usable. -/
def offer (fps : ℕ) (format : CameraFormat) (range : FrameRateRange) : Option Offer :=
  match range.minFrameRate, range.maxFrameRate with
  | some minimum, some maximum =>
    if maximum ≤ 0 then none
    else if minimum ≤ fps ∧ fps ≤ maximum then
      some
        { format
          range
          rate := fps
          frameDuration := frameOf fps }
    else if maximum < fps then
      some
        { format
          range
          rate := maximum
          frameDuration := range.minFrameDuration }
    else none
  | _, _ => none

def offers (fps : ℕ) (formats : List CameraFormat) : List Offer :=
  formats.flatMap fun format => format.ranges.filterMap (offer fps format)

namespace Offer

/-- What is kept with an offer. -/
def candidate (fps : ℕ) (item : Offer) : Candidate where
  rankedRate := rankedFrameRate fps item.rate
  native := isGpuSupportedFormat item.format.mediaSubType
  distance := item.format.dimensionDistance
  selected :=
    { format := item.format
      frameDuration := item.frameDuration
      pixelFormat := item.format.mediaSubType
      dimensions := (item.format.width.toInt.toNat, item.format.height.toInt.toNat)
      frameRate := item.rate }

/-- Whether one offer is kept instead of another. -/
def replaces (fps : ℕ) (item kept : Offer) : Bool :=
  shouldReplace (rankedFrameRate fps item.rate) (isGpuSupportedFormat item.format.mediaSubType)
    item.format.dimensionDistance (kept.candidate fps)

/-- An offer can be kept when its dimensions are not negative. -/
def accepted (item : Offer) : Bool := 0 ≤ item.format.width.toInt && 0 ≤ item.format.height.toInt

end Offer

variable {fps : ℕ} {format : CameraFormat} {range : FrameRateRange} {formats : List CameraFormat}
    {item : Offer}

theorem offer_isSome (format : CameraFormat) (h : range.Usable fps) :
    ∃ item, offer fps format range = some item := by
  obtain ⟨minimum, maximum, hmin, hmax, hpos, hbelow⟩ := h
  rw [offer, hmin, hmax]
  simp only [if_neg hpos.not_ge]
  split_ifs with hin hlow
  · exact ⟨_, rfl⟩
  · exact ⟨_, rfl⟩
  · exact absurd ⟨hbelow.resolve_right hlow, not_lt.mp hlow⟩ hin

theorem format_of_offer (h : offer fps format range = some item) : item.format = format := by
  unfold offer at h
  split at h
  · split_ifs at h <;> rw [← Option.some.inj h]
  · cases h

/-- An offer is what its range can do. -/
theorem offer_spec (hdocumented : range.Documented) (h : offer fps format range = some item) :
    item.format = format ∧ item.range = range ∧ range.Usable fps ∧ item.rate = range.rate fps ∧
      item.rate ≤ fps ∧ range.Contains item.rate ∧ item.frameDuration.seconds = 1 / item.rate := by
  unfold offer at h
  split at h
  · rename_i minimum maximum hmin hmax
    obtain ⟨hordered, hduration⟩ := hdocumented minimum maximum hmin hmax
    have hrate : range.rate fps = min maximum fps := by rw [FrameRateRange.rate, hmax, Option.getD_some]
    split_ifs at h with hnone hin hlow
    · rw [← Option.some.inj h, hrate, min_eq_right hin.2]
      refine ⟨rfl, rfl, ⟨minimum, maximum, hmin, hmax, not_le.mp hnone, .inl hin.1⟩, rfl, le_rfl,
        ⟨minimum, maximum, hmin, hmax, hin⟩, ?_⟩
      exact congrArg (· / (fps : ℚ)) Int.cast_one
    · rw [← Option.some.inj h, hrate, min_eq_left hlow.le]
      exact ⟨rfl, rfl, ⟨minimum, maximum, hmin, hmax, not_le.mp hnone, .inr hlow⟩, rfl, hlow.le,
        ⟨minimum, maximum, hmin, hmax, hordered, le_rfl⟩, hduration (not_le.mp hnone)⟩
  · cases h

theorem mem_offers : item ∈ offers fps formats ↔
    ∃ format ∈ formats, ∃ range ∈ format.ranges, offer fps format range = some item := by
  rw [offers, List.mem_flatMap]
  simp only [List.mem_filterMap]

theorem mem_own_offers (h : item ∈ offers fps formats) :
    item ∈ item.format.ranges.filterMap (offer fps item.format) := by
  obtain ⟨format, -, range, hrange, hoffer⟩ := mem_offers.mp h
  obtain rfl := format_of_offer hoffer
  exact List.mem_filterMap.mpr ⟨range, hrange, hoffer⟩

/-! ## The scan -/

theorem considerRate_eq (kept : Option Offer) (item : Offer) :
    considerRate fps item.format (kept.map (Offer.candidate fps)) item.rate item.frameDuration =
      (keepStep (Offer.replaces fps) Offer.accepted kept item).map
        (Option.map (Offer.candidate fps)) := by
  have hall : (kept.map (Offer.candidate fps)).all (shouldReplace (rankedFrameRate fps item.rate)
      (isGpuSupportedFormat item.format.mediaSubType) item.format.dimensionDistance) =
        kept.all (Offer.replaces fps item) := by
    cases kept <;> rfl
  simp only [considerRate, keepStep, hall, Offer.accepted, u32OfDimension, Bool.and_eq_true,
    decide_eq_true_eq]
  split_ifs with hreplaces hwidth hheight <;> first | rfl | simp_all

/-- The loop's body keeps what the scan keeps, of a range that has an offer. -/
theorem considerRange_eq (hfps : fps < 2 ^ 31) (kept : Option Offer) (range : FrameRateRange) :
    considerRange fps format (kept.map (Offer.candidate fps)) range =
      (match offer fps format range with
        | none => some kept
        | some item => keepStep (Offer.replaces fps) Offer.accepted kept item).map
          (Option.map (Offer.candidate fps)) := by
  unfold considerRange offer
  split
  · have hrate : i32OfRate fps = some fps := if_pos hfps
    split_ifs with hnone hin hlow
    · rfl
    · rw [hrate]
      exact considerRate_eq kept ⟨format, range, fps, frameOf fps⟩
    · exact considerRate_eq kept ⟨format, range, _, range.minFrameDuration⟩
    · rfl
  · rfl

theorem foldlM_considerRange (hfps : fps < 2 ^ 31) (kept : Option Offer) (ranges : List FrameRateRange) :
    ranges.foldlM (considerRange fps format) (kept.map (Offer.candidate fps)) =
      (keepBest (Offer.replaces fps) Offer.accepted kept (ranges.filterMap (offer fps format))).map
        (Option.map (Offer.candidate fps)) := by
  induction ranges generalizing kept with
  | nil => rfl
  | cons range ranges ih =>
    rw [List.foldlM_cons, considerRange_eq hfps, List.filterMap_cons]
    cases offer fps format range with
    | none => exact ih kept
    | some item =>
      rw [keepBest_cons]
      dsimp only
      cases keepStep (Offer.replaces fps) Offer.accepted kept item with
      | none => rfl
      | some kept => exact ih kept

/-- All formats together are scanned as the list of their offers. -/
theorem foldlM_considerRanges (hfps : fps < 2 ^ 31) (kept : Option Offer) (formats : List CameraFormat) :
    formats.foldlM (fun best format => format.ranges.foldlM (considerRange fps format) best)
        (kept.map (Offer.candidate fps)) =
      (keepBest (Offer.replaces fps) Offer.accepted kept (offers fps formats)).map
        (Option.map (Offer.candidate fps)) := by
  induction formats generalizing kept with
  | nil => rfl
  | cons format formats ih =>
    rw [List.foldlM_cons, foldlM_considerRange hfps, offers, List.flatMap_cons, keepBest_append]
    cases keepBest (Offer.replaces fps) Offer.accepted kept
      (format.ranges.filterMap (offer fps format)) with
    | none => rfl
    | some kept => exact ih kept

theorem selectFormat_eq (hfps : fps < 2 ^ 31) (formats : List CameraFormat) : selectFormat formats fps =
    (keepBest (Offer.replaces fps) Offer.accepted none (offers fps formats)).bind
      (Option.map fun item => (item.candidate fps).selected) := by
  have hscan := foldlM_considerRanges hfps none formats
  rw [Option.map_none] at hscan
  rw [selectFormat, hscan]
  cases keepBest (Offer.replaces fps) Offer.accepted none (offers fps formats) with
  | none => rfl
  | some kept => cases kept <;> rfl

/-! ## Ranks -/

namespace Offer

def rank (fps : ℕ) (item : Offer) : ℚ ×ₗ Bool ×ₗ ℕᵒᵈ := item.format.rank fps item.rate

theorem fit_lt_iff (item kept : CameraFormat) : kept.fit < item.fit ↔
    (isGpuSupportedFormat item.mediaSubType && !isGpuSupportedFormat kept.mediaSubType ||
      isGpuSupportedFormat item.mediaSubType == isGpuSupportedFormat kept.mediaSubType &&
        decide (item.dimensionDistance < kept.dimensionDistance)) = true := by
  rw [CameraFormat.fit, CameraFormat.fit, Prod.Lex.toLex_lt_toLex]
  cases isGpuSupportedFormat item.mediaSubType <;> cases isGpuSupportedFormat kept.mediaSubType <;>
    simp

/-- What is kept instead: what has a higher rate, or frames that fit better at nearly the same rate. -/
theorem replaces_iff (item kept : Offer) : item.replaces fps kept ↔
    rankedFrameRate fps kept.rate < rankedFrameRate fps item.rate ∨
      |rankedFrameRate fps item.rate - rankedFrameRate fps kept.rate| < rateEpsilon ∧
        kept.format.fit < item.format.fit := by
  rw [fit_lt_iff, replaces, shouldReplace, Bool.or_eq_true, Bool.and_eq_true, decide_eq_true_eq,
    decide_eq_true_eq]
  rfl

theorem rank_lt_iff (item kept : Offer) : kept.rank fps < item.rank fps ↔
    rankedFrameRate fps kept.rate < rankedFrameRate fps item.rate ∨
      rankedFrameRate fps kept.rate = rankedFrameRate fps item.rate ∧
        kept.format.fit < item.format.fit :=
  Prod.Lex.toLex_lt_toLex

/-- A better rank replaces. -/
theorem replaces_of_rank_lt {item kept : Offer} (h : kept.rank fps < item.rank fps) :
    item.replaces fps kept := by
  rw [replaces_iff]
  refine ((rank_lt_iff item kept).mp h).imp_right fun ⟨hrate, hfit⟩ => ⟨?_, hfit⟩
  rw [hrate, sub_self, abs_zero]
  norm_num [rateEpsilon]

end Offer

/-- What the formats offer are the usable ranges. -/
theorem spec_of_mem_offers (hdocumented : ∀ format ∈ formats, ∀ range ∈ format.ranges, range.Documented)
    (h : item ∈ offers fps formats) : item.format ∈ formats ∧
    item.range ∈ item.format.ranges ∧ item.range.Usable fps ∧ item.rate = item.range.rate fps ∧
      item.rate ≤ fps ∧ item.range.Contains item.rate ∧ item.frameDuration.seconds = 1 / item.rate := by
  obtain ⟨format, hformat, range, hrange, hoffer⟩ := mem_offers.mp h
  obtain ⟨rfl, rfl, hspec⟩ := offer_spec (hdocumented format hformat range hrange) hoffer
  exact ⟨hformat, hrange, hspec⟩

theorem exists_offer (hdocumented : ∀ format ∈ formats, ∀ range ∈ format.ranges, range.Documented)
    (hformat : format ∈ formats) (hrange : range ∈ format.ranges) (h : range.Usable fps) :
    ∃ item ∈ offers fps formats, item.format = format ∧ item.range = range ∧
      item.rate = range.rate fps := by
  obtain ⟨item, hoffer⟩ := offer_isSome format h
  obtain ⟨hitem, hrange', -, hrate, -⟩ := offer_spec (hdocumented format hformat range hrange) hoffer
  exact ⟨item, mem_offers.mpr ⟨format, hformat, range, hrange, hoffer⟩, hitem, hrange', hrate⟩

/-- An offer that no other has a better rank than. -/
def Offer.IsBest (fps : ℕ) (formats : List CameraFormat) (item : Offer) : Prop :=
  item ∈ offers fps formats ∧ ∀ other ∈ offers fps formats, other.rank fps ≤ item.rank fps

theorem exists_isBest (h : item ∈ offers fps formats) : ∃ best : Offer, best.IsBest fps formats := by
  obtain ⟨best, hbest, hle⟩ := Set.exists_max_image {item | item ∈ offers fps formats} (Offer.rank fps)
    (List.finite_toSet _) ⟨item, h⟩
  exact ⟨best, hbest, hle⟩

theorem offers_perm {formats' : List CameraFormat} (h : formats'.Perm formats) :
    item ∈ offers fps formats' ↔ item ∈ offers fps formats := by
  simp only [mem_offers, h.mem_iff]

/-- The best offer is kept instead of any other that is not best. -/
theorem Offer.IsBest.replaces {best other : Offer} (h : best.IsBest fps formats)
    (hother : other ∈ offers fps formats) (hnot : ¬ other.IsBest fps formats) :
      best.replaces fps other := by
  refine replaces_of_rank_lt (lt_of_le_of_ne (h.2 other hother) fun heq =>
    hnot ⟨hother, fun item hitem => ?_⟩)
  rw [heq]
  exact h.2 item hitem

/-- An offer that is kept instead of the best one is at a rate that is a little below, or is best too. -/
theorem Offer.IsBest.of_replaces {best : Offer} (h : best.IsBest fps formats)
    (hitem : item ∈ offers fps formats) (hreplaces : item.replaces fps best) :
    rankedFrameRate fps item.rate < rankedFrameRate fps best.rate ∧
      rankedFrameRate fps best.rate - rankedFrameRate fps item.rate < rateEpsilon ∧
        best.format.fit < item.format.fit := by
  have hle := (h.2 item hitem).not_gt
  rw [rank_lt_iff, not_or, not_and] at hle
  rcases (replaces_iff item best).mp hreplaces with hrate | ⟨hclose, hfit⟩
  · exact absurd hrate hle.1
  · have hlt := lt_of_le_of_ne (not_lt.mp hle.1) fun heq => hle.2 heq.symm hfit
    rw [abs_sub_comm, abs_of_pos (sub_pos.mpr hlt)] at hclose
    exact ⟨hlt, hclose, hfit⟩

/-! ## Every list -/

theorem accepted_of_tellsApart (hdocumented : ∀ format ∈ formats, ∀ range ∈ format.ranges,
    range.Documented)
    (h : TellsApart formats fps) (hitem : item ∈ offers fps formats) : item.accepted := by
  obtain ⟨hformat, hrange, husable, -⟩ := spec_of_mem_offers hdocumented hitem
  obtain ⟨hwidth, hheight⟩ := h.dimensions _ hformat ⟨_, hrange, husable⟩
  rw [Offer.accepted, Bool.and_eq_true, decide_eq_true_eq, decide_eq_true_eq]
  exact ⟨hwidth, hheight⟩

theorem selects_of_isBest (hdocumented : ∀ format ∈ formats, ∀ range ∈ format.ranges, range.Documented)
    (h : item.IsBest fps formats) (haccepted : item.accepted) :
    Selects formats fps (item.candidate fps).selected item.range := by
  obtain ⟨hformat, hrange, husable, -, hle, hcontains, hduration⟩ := spec_of_mem_offers hdocumented h.1
  rw [Offer.accepted, Bool.and_eq_true, decide_eq_true_eq, decide_eq_true_eq] at haccepted
  refine ⟨hformat, hrange, husable, hle, hcontains, hduration, rfl,
    ⟨Int.toNat_of_nonneg haccepted.1, Int.toNat_of_nonneg haccepted.2⟩, ?_⟩
  intro format hformat range hrange husable
  obtain ⟨other, hother, rfl, -, hrate⟩ := exists_offer hdocumented hformat hrange husable
  rw [← hrate]
  exact h.2 other hother

theorem selectsBest_of_tellsApart (hfps : fps < 2 ^ 31)
    (hdocumented : ∀ format ∈ formats, ∀ range ∈ format.ranges, range.Documented)
    (h : TellsApart formats fps) : SelectsBest formats fps := by
  rintro ⟨format, hformat, range, hrange, husable⟩
  obtain ⟨item, hitem, -⟩ := exists_offer hdocumented hformat hrange husable
  obtain ⟨best, hbest⟩ := exists_isBest hitem
  refine ⟨best.rank fps, fun formats' hperm => ?_⟩
  obtain ⟨result, hresult, hresultBest⟩ :
      ∃ result, keepBest (Offer.replaces fps) Offer.accepted none (offers fps formats') =
        some (some result) ∧ result.IsBest fps formats := by
    refine keepBest_reaches (fun item hitem => ?_) (fun item hitem other hother hreplaces => ?_)
      ((offers_perm hperm).mpr hbest.1) hbest fun other hother hnot => ?_
    · exact accepted_of_tellsApart hdocumented h ((offers_perm hperm).mp hitem)
    · -- a rate a little below the best, with frames that fit better: this is what `h` excludes
      have hmem := (offers_perm hperm).mp hitem
      obtain ⟨hlt, hclose, hfit⟩ := hother.of_replaces hmem hreplaces
      obtain ⟨hformat, hrange, husable, hrate, -⟩ := spec_of_mem_offers hdocumented hmem
      obtain ⟨hformat', hrange', husable', hrate', -⟩ := spec_of_mem_offers hdocumented hother.1
      rw [hrate, hrate'] at hlt hclose
      refine absurd hfit (h.rates _ hformat' _ hrange' husable' ?_ _ hformat _ hrange husable hlt
        hclose).not_gt
      intro format hformat range hrange husable
      obtain ⟨third, hthird, rfl, -, hthirdRate⟩ := exists_offer hdocumented hformat hrange husable
      rw [← hthirdRate, ← hrate']
      exact hother.2 third hthird
    · refine hbest.replaces ((offers_perm hperm).mp (hother.resolve_left ?_)) hnot
      exact Option.not_mem_none other
  refine ⟨_, result.range, ?_, selects_of_isBest hdocumented hresultBest
    (accepted_of_tellsApart hdocumented h hresultBest.1), ?_⟩
  · rw [selectFormat_eq hfps, hresult]
    rfl
  · exact le_antisymm (hbest.2 result hresultBest.1) (hresultBest.2 best hbest.1)

/-- When the dimensions of a usable format are negative, nothing is selected with the format first. -/
theorem selectFormat_of_refused (hfps : fps < 2 ^ 31) (hrange : range ∈ format.ranges)
    (husable : range.Usable fps) (hnegative : ¬ (0 ≤ format.width.toInt ∧ 0 ≤ format.height.toInt)) :
    selectFormat (format :: formats) fps = none := by
  obtain ⟨item, hoffer⟩ := offer_isSome format husable
  have hitem : item ∈ format.ranges.filterMap (offer fps format) :=
    List.mem_filterMap.mpr ⟨range, hrange, hoffer⟩
  obtain ⟨first, rest, hoffers⟩ := List.exists_cons_of_ne_nil (List.ne_nil_of_mem hitem)
  have hfirst : first.accepted = false := by
    obtain ⟨range', -, hoffer'⟩ := List.mem_filterMap.mp (hoffers ▸ List.mem_cons_self ..)
    rw [Offer.accepted, format_of_offer hoffer', ← Bool.decide_and]
    exact decide_eq_false hnegative
  rw [selectFormat_eq hfps, offers, List.flatMap_cons, hoffers, List.cons_append,
    keepBest_of_refused hfirst]
  rfl

theorem exists_perm_cons {α : Type*} {first : α} {items : List α} (h : first ∈ items) :
    ∃ rest, (first :: rest).Perm items := by
  obtain ⟨before, after, rfl⟩ := List.append_of_mem h
  exact ⟨before ++ after, List.perm_middle.symm⟩

theorem exists_perm_append {α : Type*} {last next : α} {items : List α} (hne : next ≠ last)
    (hlast : last ∈ items) (hnext : next ∈ items) : ∃ rest, (rest ++ [next, last]).Perm items := by
  obtain ⟨others, hothers⟩ := exists_perm_cons hlast
  obtain ⟨rest, hrest⟩ := exists_perm_cons ((List.mem_cons.mp
    (hothers.mem_iff.mpr hnext)).resolve_left hne)
  refine ⟨rest, List.Perm.trans ?_ ((hrest.cons last).trans hothers)⟩
  exact (List.perm_append_comm).trans (List.Perm.swap last next rest)

/-- When a rate a little below the best has a format whose frames fit better, what is kept is of that
format when it comes last, and the best before it. -/
theorem keepBest_of_close (haccepted : ∀ item ∈ offers fps formats, item.accepted) {best close : Offer}
    (hbest : best.IsBest fps formats) (hclose : close ∈ offers fps formats)
    (hreplaces : close.replaces fps best) {rest : List CameraFormat}
    (hperm : (rest ++ [best.format, close.format]).Perm formats) :
    ∃ result, keepBest (Offer.replaces fps) Offer.accepted none
        (offers fps (rest ++ [best.format, close.format])) = some (some result) ∧
      result.format = close.format ∧ result ∈ offers fps formats := by
  have hrankEq : ∀ {item : Offer}, item.IsBest fps formats → item.rank fps = best.rank fps :=
    fun hitem => le_antisymm (hbest.2 _ hitem.1) (hitem.2 best hbest.1)
  have hrateEq : ∀ {item : Offer}, item.IsBest fps formats →
      rankedFrameRate fps item.rate = rankedFrameRate fps best.rate :=
    fun hitem => congrArg (fun rank => (ofLex rank).1) (hrankEq hitem)
  have hfitEq : ∀ {item : Offer}, item.IsBest fps formats → item.format.fit = best.format.fit :=
    fun hitem => congrArg (fun rank => (ofLex rank).2) (hrankEq hitem)
  have hmem : ∀ {item : Offer}, item ∈ offers fps (rest ++ [best.format, close.format]) →
      item ∈ offers fps formats := fun hitem => (offers_perm hperm).mp hitem
  have hsplit : offers fps (rest ++ [best.format, close.format]) = offers fps rest ++
      (best.format.ranges.filterMap (offer fps best.format) ++
        close.format.ranges.filterMap (offer fps close.format)) := by
    simp only [offers, List.flatMap_append, List.flatMap_cons, List.flatMap_nil, List.append_nil]
  simp only [hsplit, List.mem_append] at hmem ⊢
  obtain ⟨kept, hkept, hkeptMem⟩ := keepBest_of_accepts (Offer.replaces fps) none fun item hitem =>
    haccepted item (hmem (.inl hitem))
  -- with the formats of the best offer, one of the best is kept
  obtain ⟨first, hfirst, hfirstBest⟩ :
      ∃ first, keepBest (Offer.replaces fps) Offer.accepted kept
        (best.format.ranges.filterMap (offer fps best.format)) = some (some first) ∧
          first.IsBest fps formats := by
    refine keepBest_reaches (fun item hitem => haccepted item (hmem (.inr (.inl hitem)))) ?_
      (mem_own_offers hbest.1) hbest ?_
    · intro item hitem other hother hreplaces
      obtain ⟨-, -, hfit⟩ := hother.of_replaces (hmem (.inr (.inl hitem))) hreplaces
      obtain ⟨range, -, hoffer⟩ := List.mem_filterMap.mp hitem
      rw [hfitEq hother, format_of_offer hoffer] at hfit
      exact absurd hfit (lt_irrefl _)
    · intro other hother hnot
      refine hbest.replaces ?_ hnot
      rcases hother with hother | hother
      · exact hmem (.inl ((hkeptMem other hother).resolve_left (Option.not_mem_none other)))
      · exact hmem (.inr (.inl hother))
  -- which is given up for the other format
  obtain ⟨result, hresult, hformat⟩ :
      ∃ result, keepBest (Offer.replaces fps) Offer.accepted (some first)
        (close.format.ranges.filterMap (offer fps close.format)) = some (some result) ∧
          result.format = close.format := by
    refine keepBest_reaches (fun item hitem => haccepted item (hmem (.inr (.inr hitem)))) ?_
      (mem_own_offers hclose) rfl ?_
    · intro item hitem other _ _
      obtain ⟨range, -, hoffer⟩ := List.mem_filterMap.mp hitem
      exact format_of_offer hoffer
    · intro other hother hnot
      rcases hother with hother | hother
      · rw [← Option.some.inj hother, Offer.replaces_iff, hrateEq hfirstBest, hfitEq hfirstBest]
        exact (Offer.replaces_iff close best).mp hreplaces
      · obtain ⟨range, -, hoffer⟩ := List.mem_filterMap.mp hother
        exact absurd (format_of_offer hoffer) hnot
  have hscan : keepBest (Offer.replaces fps) Offer.accepted none (offers fps rest ++
      (best.format.ranges.filterMap (offer fps best.format) ++
        close.format.ranges.filterMap (offer fps close.format))) = some (some result) := by
    rw [keepBest_append, hkept, Option.bind_some, keepBest_append, hfirst, Option.bind_some, hresult]
  refine ⟨result, hscan, hformat, ?_⟩
  obtain ⟨kept', hkept', hkeptMem'⟩ := keepBest_of_accepts (Offer.replaces fps) none fun item hitem =>
    haccepted item (hmem (List.mem_append.mp hitem |>.imp_right List.mem_append.mp))
  rw [hscan] at hkept'
  obtain rfl := Option.some.inj hkept'
  have hresultMem := (hkeptMem' result rfl).resolve_left (Option.not_mem_none result)
  exact hmem (by simpa only [List.mem_append] using hresultMem)

/-- Without that, some order of the formats has nothing selected, or not the best. -/
theorem tellsApart_of_selectsBest (hfps : fps < 2 ^ 31)
    (hdocumented : ∀ format ∈ formats, ∀ range ∈ format.ranges, range.Documented)
    (h : SelectsBest formats fps) : TellsApart formats fps := by
  have hdimensions : ∀ format ∈ formats, (∃ range ∈ format.ranges, range.Usable fps) →
      0 ≤ format.width.toInt ∧ 0 ≤ format.height.toInt := by
    rintro format hformat ⟨range, hrange, husable⟩
    by_contra hnegative
    obtain ⟨rest, hperm⟩ := exists_perm_cons hformat
    obtain ⟨rank, hrank⟩ := h ⟨format, hformat, range, hrange, husable⟩
    obtain ⟨selected, -, hselected, -⟩ := hrank _ hperm
    rw [selectFormat_of_refused hfps hrange husable hnegative] at hselected
    cases hselected
  refine ⟨hdimensions, fun first hfirst range hrange husable hmax format hformat range' hrange'
    husable' hlt hclose => ?_⟩
  have haccepted : ∀ item ∈ offers fps formats, item.accepted := by
    intro item hitem
    obtain ⟨hformat, hrange, husable, -⟩ := spec_of_mem_offers hdocumented hitem
    rw [Offer.accepted, ← Bool.decide_and, decide_eq_true_eq]
    exact hdimensions _ hformat ⟨_, hrange, husable⟩
  obtain ⟨best, hbest, rfl, rfl, hrate⟩ := exists_offer hdocumented hfirst hrange husable
  obtain ⟨close, hcloseMem, rfl, rfl, hrate'⟩ := exists_offer hdocumented hformat hrange' husable'
  have hbest : best.IsBest fps formats := by
    refine ⟨hbest, fun other hother => ?_⟩
    obtain ⟨hformat, hrange, husable, hotherRate, -⟩ := spec_of_mem_offers hdocumented hother
    have := hmax _ hformat _ hrange husable
    rwa [← hotherRate, ← hrate] at this
  -- the best format next to last and the other one last: the scan ends with the other one
  by_contra hfit
  rw [not_le] at hfit
  have hne : best.format ≠ close.format := fun heq => hfit.ne (congrArg CameraFormat.fit heq)
  have hreplaces : close.replaces fps best := by
    rw [← hrate, ← hrate'] at hclose
    rw [← hrate, ← hrate'] at hlt
    rw [Offer.replaces_iff, abs_sub_comm, abs_of_pos (sub_pos.mpr hlt)]
    exact .inr ⟨hclose, hfit⟩
  obtain ⟨rest, hperm⟩ := exists_perm_append hne hformat hfirst
  obtain ⟨result, hresult, hresultFormat, hresultMem⟩ :=
    keepBest_of_close haccepted hbest hcloseMem hreplaces hperm
  obtain ⟨rank, hrank⟩ := h ⟨_, hfirst, _, hrange, husable⟩
  obtain ⟨selected, range', hselected, hselects, -⟩ := hrank _ hperm
  rw [selectFormat_eq hfps, hresult] at hselected
  obtain rfl := Option.some.inj hselected
  have hrankLe : best.rank fps ≤ result.rank fps := by
    have := hselects.best _ hfirst _ hrange husable
    rwa [← hrate] at this
  have hrankEq := le_antisymm (hbest.2 result hresultMem) hrankLe
  have hfitEq : result.format.fit = best.format.fit := congrArg (fun rank => (ofLex rank).2) hrankEq
  rw [hresultFormat] at hfitEq
  exact hfit.ne hfitEq.symm

/-- A range of one rate. -/
private def onlyRate (fps : ℕ) : FrameRateRange where
  minFrameRate := some fps
  maxFrameRate := some fps
  minFrameDuration := frameOf fps

private def fullHd : CameraFormat where
  width := 1920
  height := 1080
  mediaSubType := 0x34323076
  ranges := [onlyRate 30]

private def flipped : CameraFormat where
  width := -1920
  height := 1080
  mediaSubType := 0x34323076
  ranges := [onlyRate 30]

private theorem documented_onlyRate (fps : ℕ) : (onlyRate fps).Documented := by
  rintro minimum maximum ⟨⟩ ⟨⟩
  exact ⟨le_rfl, fun _ => congrArg (· / (fps : ℚ)) Int.cast_one⟩

end Blip.Avf
