import Blip.Capture.Region
import Mathlib.Tactic.Ring

/-!
# The regions that drags make

A region is rounded to whole pixels: its offsets and its extents, each on its own. The lemmas about one
coordinate say when the rounded region still lies on its overlay, and when the edges that a resize leaves
alone stay where they were. Half-way between two pixels both an offset and an extent round up.
-/

namespace Blip.Capture

/-! ## One coordinate -/

@[simp] theorem f64Round_natCast (n : ℕ) : f64Round (n : ℚ) = n := by
  exact_mod_cast f64Round_intCast (n : ℤ)

/-- A number that is not negative rounds to a natural number. -/
theorem exists_f64Round {value : ℚ} (h : 0 ≤ value) : ∃ n : ℕ, f64Round value = n :=
  Int.eq_ofNat_of_zero_le (f64Round_nonneg h)

theorem f64Round_eq_floor {value : ℚ} (h : 0 ≤ value) : f64Round value = ⌊value + 1 / 2⌋ := by
  rw [f64Round, if_pos h, round_eq]

theorem f64Round_le_add {value : ℚ} (h : 0 ≤ value) : (f64Round value : ℚ) ≤ value + 1 / 2 := by
  rw [f64Round_eq_floor h]
  exact Int.floor_le _

/-- A number that is not half-way between two integers rounds up by less than a half. -/
theorem f64Round_lt_add {value : ℚ} (h : 0 ≤ value) (hhalf : Int.fract value ≠ 1 / 2) :
    (f64Round value : ℚ) < value + 1 / 2 := by
  refine lt_of_le_of_ne (f64Round_le_add h) fun heq => hhalf ?_
  have hvalue : value = ((f64Round value - 1 : ℤ) : ℚ) + 1 / 2 := by
    push_cast
    linarith
  rw [hvalue, Int.fract_intCast_add]
  norm_num [Int.fract_eq_self]

theorem f64Round_le {value : ℚ} {n : ℕ} (h : value ≤ n) : f64Round value ≤ n := by
  have hmono := f64Round_mono h
  rwa [f64Round_natCast] at hmono

/-- What is left of an integer after a number that is not half-way between two. -/
theorem f64Round_sub {value : ℚ} {n : ℕ} (h : 0 ≤ value) (hle : value ≤ n)
    (hhalf : Int.fract value ≠ 1 / 2) : f64Round (n - value) = n - f64Round value := by
  have hlt := f64Round_lt_add h hhalf
  have hfloor := Int.lt_floor_add_one (value + 1 / 2)
  rw [← f64Round_eq_floor h] at hfloor
  rw [f64Round_eq_floor (by linarith), Int.floor_eq_iff]
  push_cast
  constructor
  · linarith
  · linarith

/-- An offset and an extent, rounded, that are natural numbers within a size. -/
def Span (size : ℕ) (offset extent : ℚ) : Prop :=
  ∃ n m : ℕ, f64Round offset = n ∧ f64Round extent = m ∧ n + m ≤ size

/-- A region between two positions. -/
theorem span_create {a b : ℚ} {size : ℕ} (ha : 0 ≤ a ∧ a ≤ size) (hb : 0 ≤ b ∧ b ≤ size)
    (hhalf : max a b = size → Int.fract (min a b) ≠ 1 / 2) : Span size (min a b) |a - b| := by
  have hmin : 0 ≤ min a b := le_min ha.1 hb.1
  obtain ⟨n, hn⟩ := exists_f64Round hmin
  obtain ⟨m, hm⟩ := exists_f64Round (abs_nonneg (a - b))
  refine ⟨n, m, hn, hm, ?_⟩
  have hend : min a b + |a - b| = max a b := by
    rw [abs_sub_comm, ← max_sub_min_eq_abs]
    ring
  have hlow := f64Round_le_add hmin
  have hextent := f64Round_le_add (abs_nonneg (a - b))
  rw [hn, Int.cast_natCast] at hlow
  rw [hm, Int.cast_natCast] at hextent
  have hsum : ((n + m : ℕ) : ℚ) < ((size + 1 : ℕ) : ℚ) := by
    push_cast
    rcases (max_le ha.2 hb.2).lt_or_eq with hlt | heq
    · linarith
    · have hlt := f64Round_lt_add hmin (hhalf heq)
      rw [hn, Int.cast_natCast] at hlt
      linarith
  have hnat : n + m < size + 1 := by exact_mod_cast hsum
  omega

/-- A region that is moved. -/
theorem span_move {offset extent size : ℕ} (h : offset + extent ≤ size) (moved : ℚ) :
    Span size (min (max moved 0) (max ((size : ℚ) - extent) 0)) extent := by
  have hroom : (size : ℚ) - extent = ((size - extent : ℕ) : ℚ) := by
    rw [Nat.cast_sub (by omega)]
  rw [hroom, max_eq_left (Nat.cast_nonneg _)]
  have hnonneg : (0 : ℚ) ≤ min (max moved 0) ((size - extent : ℕ) : ℚ) :=
    le_min (le_max_right _ _) (Nat.cast_nonneg _)
  obtain ⟨n, hn⟩ := exists_f64Round hnonneg
  refine ⟨n, extent, hn, f64Round_natCast extent, ?_⟩
  have hle := f64Round_le (min_le_right (max moved 0) ((size - extent : ℕ) : ℚ))
  rw [hn] at hle
  omega

/-- A low edge that is moved does not fall half-way between two pixels, unless it is stopped. -/
def OffHalf (offset extent delta : ℚ) : Prop :=
  Int.fract delta = 1 / 2 → delta < -offset ∨ extent - minimum < delta

/-- The low edge of a region that is resized: the high edge stays. -/
theorem span_resize_low {offset extent : ℕ} (hmin : 16 ≤ extent) {delta : ℚ}
    (hhalf : OffHalf offset extent delta) :
    let low := min (max ((offset : ℚ) + delta) 0) ((offset : ℚ) + extent - minimum)
    ∃ n m : ℕ, f64Round low = n ∧ f64Round ((offset : ℚ) + extent - low) = m ∧
      n + m = offset + extent := by
  intro low
  have hroom : (offset : ℚ) + extent - minimum = ((offset + extent - 16 : ℕ) : ℚ) := by
    rw [Nat.cast_sub (by omega), minimum]
    push_cast
    rfl
  have hlow : low = min (max ((offset : ℚ) + delta) 0) ((offset + extent - 16 : ℕ) : ℚ) := by
    rw [← hroom]
  have hnonneg : 0 ≤ low := by
    rw [hlow]
    exact le_min (le_max_right _ _) (Nat.cast_nonneg _)
  have hlowHalf : Int.fract low ≠ 1 / 2 := by
    rw [hlow]
    rcases min_choice (max ((offset : ℚ) + delta) 0) ((offset + extent - 16 : ℕ) : ℚ) with hmin | hmin
    · rw [hmin]
      rcases max_choice ((offset : ℚ) + delta) 0 with hmax | hmax
      · rw [hmax, Int.fract_natCast_add]
        intro hfract
        -- the edge is stopped on neither side
        have hlower := max_eq_left_iff.mp hmax
        have hupper := min_eq_left_iff.mp hmin
        rw [hmax, ← hroom] at hupper
        rcases hhalf hfract with h | h
        · linarith
        · linarith
      · rw [hmax, Int.fract_zero]
        norm_num
    · rw [hmin, Int.fract_natCast]
      norm_num
  have hle : low ≤ ((offset + extent : ℕ) : ℚ) := by
    rw [hlow]
    refine (min_le_right _ _).trans ?_
    exact_mod_cast Nat.sub_le _ _
  obtain ⟨n, hn⟩ := exists_f64Round hnonneg
  have hnle : n ≤ offset + extent := by
    have hround := f64Round_le hle
    rw [hn] at hround
    exact_mod_cast hround
  refine ⟨n, offset + extent - n, hn, ?_, by omega⟩
  have hsub := f64Round_sub hnonneg hle hlowHalf
  rw [hn] at hsub
  push_cast at hsub ⊢
  rw [hsub, Nat.cast_sub hnle]
  push_cast
  rfl

/-- The high edge of a region that is resized. -/
theorem span_resize_high {offset extent size : ℕ} (hmin : 16 ≤ extent) (h : offset + extent ≤ size)
    (delta : ℚ) :
    Span size offset (min (max ((offset : ℚ) + extent + delta) (offset + minimum)) size - offset) := by
  have hoffset : (offset : ℚ) ≤ min (max ((offset : ℚ) + extent + delta) (offset + minimum)) size := by
    refine le_min ?_ (by exact_mod_cast (by omega : offset ≤ size))
    refine le_trans ?_ (le_max_right _ _)
    rw [minimum]
    linarith
  obtain ⟨m, hm⟩ := exists_f64Round (sub_nonneg.mpr hoffset)
  refine ⟨offset, m, f64Round_natCast offset, hm, ?_⟩
  have hle : min (max ((offset : ℚ) + extent + delta) (offset + minimum)) size - offset ≤
      ((size - offset : ℕ) : ℚ) := by
    rw [Nat.cast_sub (by omega)]
    exact sub_le_sub_right (min_le_right _ _) _
  have hround := f64Round_le hle
  rw [hm] at hround
  omega

/-! ## Regions -/

/-- Whole coordinates, within a size. -/
def Bounds.Fits (size : Viewport) (bounds : Bounds) : Prop :=
  ∃ x y width height : ℕ, bounds = ⟨x, y, width, height⟩ ∧ x + width ≤ size.width ∧
    y + height ≤ size.height

/-- At least the smallest size that a drag makes. -/
def Bounds.Large (bounds : Bounds) : Prop := minimum ≤ bounds.width ∧ minimum ≤ bounds.height

theorem minimum_le_natCast {n : ℕ} : minimum ≤ (n : ℚ) ↔ 16 ≤ n := by
  rw [minimum]
  exact_mod_cast Iff.rfl

/-- A position on an overlay. -/
def Point.Within (size : Viewport) (point : Point) : Prop :=
  (0 ≤ point.x ∧ point.x ≤ size.width) ∧ 0 ≤ point.y ∧ point.y ≤ size.height

instance (size : Viewport) (point : Point) : Decidable (point.Within size) :=
  inferInstanceAs (Decidable (_ ∧ _))

/-- How far the pointer was dragged. -/
def Point.delta (position start : Point) : Point where
  x := position.x - start.x
  y := position.y - start.y

/-- Of a region that fits, the rounded offsets and extents are what fits. -/
theorem Bounds.fits_of_spans {size : Viewport} {bounds : Bounds}
    (hx : Span size.width bounds.x bounds.width) (hy : Span size.height bounds.y bounds.height) :
    (roundedBounds bounds).Fits size := by
  obtain ⟨x, width, hx, hwidth, hxsize⟩ := hx
  obtain ⟨y, height, hy, hheight, hysize⟩ := hy
  refine ⟨x, y, width, height, ?_, hxsize, hysize⟩
  rw [roundedBounds, hx, hy, hwidth, hheight]
  simp

theorem Bounds.Fits.rounded {size : Viewport} {bounds : Bounds} (h : bounds.Fits size) :
    roundedBounds bounds = bounds := by
  obtain ⟨x, y, width, height, rfl, -, -⟩ := h
  simp [roundedBounds]

/-- A region that is created lies on its overlay, where both of its corners do. -/
theorem fits_create {size : Viewport} {start position : Point} (hstart : start.Within size)
    (hposition : position.Within size)
    (hx : max start.x position.x = size.width → Int.fract (min start.x position.x) ≠ 1 / 2)
    (hy : max start.y position.y = size.height → Int.fract (min start.y position.y) ≠ 1 / 2) :
    (roundedBounds (normalizedBounds start position)).Fits size :=
  Bounds.fits_of_spans (span_create hstart.1 hposition.1 hx) (span_create hstart.2 hposition.2 hy)

/-- A move keeps the size. -/
theorem fits_move {size : Viewport} {original : Bounds} (h : original.Fits size)
    (position start : Point) :
    (roundedBounds (movedBounds original position start size)).Fits size ∧
      (roundedBounds (movedBounds original position start size)).width = original.width ∧
      (roundedBounds (movedBounds original position start size)).height = original.height := by
  obtain ⟨x, y, width, height, rfl, hx, hy⟩ := h
  refine ⟨Bounds.fits_of_spans (span_move hx _) (span_move hy _), ?_, ?_⟩
  · simp [roundedBounds, movedBounds]
  · simp [roundedBounds, movedBounds]

namespace ResizeHandle

/-- The edges at a handle. -/
def atLeft (handle : ResizeHandle) : Prop := handle ∈ [topLeft, left, bottomLeft]

def atRight (handle : ResizeHandle) : Prop := handle ∈ [topRight, right, bottomRight]

def atTop (handle : ResizeHandle) : Prop := handle ∈ [topLeft, top, topRight]

def atBottom (handle : ResizeHandle) : Prop := handle ∈ [bottomLeft, bottom, bottomRight]

instance (handle : ResizeHandle) : Decidable handle.atLeft := inferInstanceAs (Decidable (_ ∈ _))

instance (handle : ResizeHandle) : Decidable handle.atRight := inferInstanceAs (Decidable (_ ∈ _))

instance (handle : ResizeHandle) : Decidable handle.atTop := inferInstanceAs (Decidable (_ ∈ _))

instance (handle : ResizeHandle) : Decidable handle.atBottom := inferInstanceAs (Decidable (_ ∈ _))

theorem not_atLeft_and_atRight (handle : ResizeHandle) : ¬ (handle.atLeft ∧ handle.atRight) := by
  cases handle <;> decide

theorem not_atTop_and_atBottom (handle : ResizeHandle) : ¬ (handle.atTop ∧ handle.atBottom) := by
  cases handle <;> decide

end ResizeHandle

/-- One axis of a resize: which of its edges are at the handle, and what becomes of both. -/
def resizedAxis (low high : Prop) [Decidable low] [Decidable high] (offset extent delta : ℚ)
    (size : ℕ) : ℚ × ℚ :=
  let lowEdge := if low then min (max (offset + delta) 0) (offset + extent - minimum) else offset
  let highEdge :=
    if high then min (max (offset + extent + delta) (lowEdge + minimum)) size else offset + extent
  (lowEdge, highEdge - lowEdge)

theorem resizedBounds_eq (original : Bounds) (handle : ResizeHandle) (position start : Point)
    (size : Viewport) :
    resizedBounds original handle position start size =
      let x := resizedAxis handle.atLeft handle.atRight original.x original.width
        (position.delta start).x size.width
      let y := resizedAxis handle.atTop handle.atBottom original.y original.height
        (position.delta start).y size.height
      ⟨x.1, y.1, x.2, y.2⟩ := rfl

/-- The edges of an axis that are not at the handle stay; the others stay within the size. -/
theorem span_resize {low high : Prop} [Decidable low] [Decidable high] (hone : ¬ (low ∧ high))
    {offset extent size : ℕ} (hmin : 16 ≤ extent) (h : offset + extent ≤ size) {delta : ℚ}
    (hhalf : low → OffHalf offset extent delta) :
    ∃ n m : ℕ, f64Round (resizedAxis low high offset extent delta size).1 = n ∧
      f64Round (resizedAxis low high offset extent delta size).2 = m ∧ n + m ≤ size ∧
      (¬ low → n = offset) ∧ (¬ high → n + m = offset + extent) := by
  by_cases hlow : low
  · have hhigh : ¬ high := fun hhigh => hone ⟨hlow, hhigh⟩
    obtain ⟨n, m, hn, hm, hsum⟩ := span_resize_low hmin (hhalf hlow)
    refine ⟨n, m, ?_, ?_, by omega, fun hnot => absurd hlow hnot, fun _ => hsum⟩
    · rw [resizedAxis, if_pos hlow]
      exact hn
    · rw [resizedAxis, if_pos hlow, if_neg hhigh]
      exact hm
  · by_cases hhigh : high
    · obtain ⟨n, m, hn, hm, hsum⟩ := span_resize_high hmin h delta
      have hoffset : n = offset := by exact_mod_cast hn.symm.trans (f64Round_natCast offset)
      refine ⟨n, m, ?_, ?_, hsum, fun _ => hoffset, fun hnot => absurd hhigh hnot⟩
      · rw [resizedAxis, if_neg hlow]
        exact hn
      · rw [resizedAxis, if_neg hlow, if_pos hhigh]
        exact hm
    · refine ⟨offset, extent, ?_, ?_, h, fun _ => rfl, fun _ => rfl⟩
      · rw [resizedAxis, if_neg hlow]
        exact f64Round_natCast offset
      · rw [resizedAxis, if_neg hlow, if_neg hhigh]
        dsimp only
        rw [add_sub_cancel_left]
        exact f64Round_natCast extent

/-- What a resize keeps: the edges that are not at the handle. -/
def KeepsEdges (handle : ResizeHandle) (original bounds : Bounds) : Prop :=
  (¬ handle.atLeft → bounds.left = original.left) ∧
    (¬ handle.atRight → bounds.right = original.right) ∧
    (¬ handle.atTop → bounds.top = original.top) ∧
    (¬ handle.atBottom → bounds.bottom = original.bottom)

/-- A resize keeps the edges that are not at its handle, and the region stays on its overlay. -/
theorem fits_resize {size : Viewport} {original : Bounds} (h : original.Fits size)
    (hlarge : original.Large) (handle : ResizeHandle) {position start : Point}
    (hx : handle.atLeft → OffHalf original.x original.width (position.delta start).x)
    (hy : handle.atTop → OffHalf original.y original.height (position.delta start).y) :
    (roundedBounds (resizedBounds original handle position start size)).Fits size ∧
      KeepsEdges handle original
        (roundedBounds (resizedBounds original handle position start size)) := by
  obtain ⟨x, y, width, height, rfl, hxfits, hyfits⟩ := h
  have hwidth : 16 ≤ width := minimum_le_natCast.mp hlarge.1
  have hheight : 16 ≤ height := minimum_le_natCast.mp hlarge.2
  obtain ⟨nx, mx, hnx, hmx, hxsize, hleft, hright⟩ :=
    span_resize handle.not_atLeft_and_atRight hwidth hxfits hx
  obtain ⟨ny, my, hny, hmy, hysize, htop, hbottom⟩ :=
    span_resize handle.not_atTop_and_atBottom hheight hyfits hy
  have hrounded : roundedBounds (resizedBounds ⟨x, y, width, height⟩ handle position start size) =
      ⟨nx, ny, mx, my⟩ := by
    rw [resizedBounds_eq, roundedBounds]
    dsimp only
    rw [hnx, hmx, hny, hmy]
    simp
  rw [hrounded]
  refine ⟨⟨nx, ny, mx, my, rfl, hxsize, hysize⟩, fun hnot => ?_, fun hnot => ?_, fun hnot => ?_,
    fun hnot => ?_⟩
  · exact congrArg Nat.cast (hleft hnot)
  · change (nx : ℚ) + mx = x + width
    exact_mod_cast hright hnot
  · exact congrArg Nat.cast (htop hnot)
  · change (ny : ℚ) + my = y + height
    exact_mod_cast hbottom hnot

end Blip.Capture
