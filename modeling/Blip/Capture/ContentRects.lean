import Blip.Capture.OutputFrame
import Mathlib.Tactic.FieldSimp
import Mathlib.Tactic.Linarith
import Mathlib.Tactic.NormNum
import Mathlib.Tactic.Positivity

/-!
# Content rectangles

The parts of a source that an output frame shows. Whatever the stored crop, the compositor samples inside
the source and at least a pixel of it, and the ranges it clamps to are never empty.
-/

namespace Blip.Capture

theorem clampSecs_mem {low high : ℚ} (h : low ≤ high) (value : ℚ) :
    low ≤ clampSecs low high value ∧ clampSecs low high value ≤ high :=
  ⟨le_max_left _ _, max_le h (min_le_left _ _)⟩

theorem clampSecs_eq_self {low high value : ℚ} (h : low ≤ value) (h' : value ≤ high) :
    clampSecs low high value = value := by
  rw [clampSecs, min_eq_right h', max_eq_right h]

theorem clampChecked_eq {low high : ℚ} (h : low ≤ high) (value : ℚ) :
    clampChecked low high value = some (clampSecs low high value) := if_pos h

/-! ## What the compositor samples -/

/-- A rectangle of at least a pixel each way inside a source. -/
structure ContentRect.Inside (rect : ContentRect) (width height : ℕ) : Prop where
  x : 0 ≤ rect.x
  y : 0 ≤ rect.y
  right : rect.x + rect.width ≤ width
  bottom : rect.y + rect.height ≤ height
  width : 1 ≤ rect.width
  height : 1 ≤ rect.height

theorem gpuContentRect_inside {width height : ℕ} (hwidth : 1 ≤ width) (hheight : 1 ≤ height)
    (hsmallWidth : width < 2 ^ 32) (hsmallHeight : height < 2 ^ 32)
    (contentRect : Option ContentRect) : ∃ rect,
      gpuContentRect contentRect width height = .ok (some rect) ∧ rect.Inside width height := by
  have hwidth' : (1 : ℚ) ≤ width := by exact_mod_cast hwidth
  have hheight' : (1 : ℚ) ≤ height := by exact_mod_cast hheight
  have hlast : (0 : ℚ) ≤ width - 1 := by linarith
  have hlastY : (0 : ℚ) ≤ height - 1 := by linarith
  unfold gpuContentRect
  rw [if_neg hsmallWidth.not_ge, if_neg hsmallHeight.not_ge]
  generalize contentRect.getD _ = rect
  obtain ⟨hleft, hright⟩ := clampSecs_mem hlast rect.x
  obtain ⟨htop, hbottom⟩ := clampSecs_mem hlastY rect.y
  have hrangeX : (1 : ℚ) ≤ width - clampSecs 0 (width - 1) rect.x := by linarith
  have hrangeY : (1 : ℚ) ≤ height - clampSecs 0 (height - 1) rect.y := by linarith
  obtain ⟨hpixelX, hendX⟩ := clampSecs_mem hrangeX rect.width
  obtain ⟨hpixelY, hendY⟩ := clampSecs_mem hrangeY rect.height
  refine ⟨⟨clampSecs 0 (width - 1) rect.x, clampSecs 0 (height - 1) rect.y,
    clampSecs 1 (width - clampSecs 0 (width - 1) rect.x) rect.width,
    clampSecs 1 (height - clampSecs 0 (height - 1) rect.y) rect.height⟩, ?_,
    ⟨hleft, htop, by dsimp only; linarith, by dsimp only; linarith, hpixelX, hpixelY⟩⟩
  simp only [max_eq_left hlast, max_eq_left hlastY, clampChecked_eq hlast, clampChecked_eq hlastY,
    clampChecked_eq hrangeX, clampChecked_eq hrangeY, Option.bind_eq_bind, Option.bind_some]

/-! ## The crop of the screen -/

theorem normalizeAxis_bounds (position size : Option ℚ) :
    0 ≤ (normalizeAxis position size).1 ∧ (normalizeAxis position size).1 ≤ 0.99 ∧
      0.01 ≤ (normalizeAxis position size).2 ∧
      (normalizeAxis position size).1 + (normalizeAxis position size).2 ≤ 1 := by
  obtain ⟨hlow, hhigh⟩ := clampSecs_mem (show (0 : ℚ) ≤ 0.99 by norm_num) (position.getD 0)
  have hremaining : (0.01 : ℚ) ≤ 1 - clampSecs 0 0.99 (position.getD 0) := by linarith
  refine ⟨hlow, hhigh, ?_, ?_⟩
  · apply le_min _ hremaining
    exact le_max_of_le_right (le_min le_rfl hremaining)
  · have hend : (normalizeAxis position size).2 ≤ 1 - (normalizeAxis position size).1 :=
      min_le_right _ _
    linarith

/-- An axis within its limits is left as it is. -/
theorem normalizeAxis_eq_self {position size : ℚ} (hposition : 0 ≤ position)
    (hposition' : position ≤ 0.99) (hsize : 0.01 ≤ size) (hend : position + size ≤ 1) :
    normalizeAxis (some position) (some size) = (position, size) := by
  simp only [normalizeAxis]
  rw [Option.getD_some, clampSecs_eq_self hposition hposition',
    if_neg (not_le.mpr (lt_of_lt_of_le (by norm_num) hsize)),
    max_eq_left (min_le_of_left_le hsize), min_eq_left (by linarith)]

/-- What a crop that is kept looks like. -/
structure ScreenCrop.Normal (crop : ScreenCrop) : Prop where
  left : 0 ≤ crop.position.1
  top : 0 ≤ crop.position.2
  position : crop.position.1 ≤ 0.99 ∧ crop.position.2 ≤ 0.99
  size : 0.01 ≤ crop.size.1 ∧ 0.01 ≤ crop.size.2
  right : crop.position.1 + crop.size.1 ≤ 1
  bottom : crop.position.2 + crop.size.2 ≤ 1

theorem normalizeScreenCrop_normal {crop : Option StoredCrop} {normalized : ScreenCrop}
    (h : normalizeScreenCrop crop = some normalized) :
    normalized.Normal ∧ normalized.isFull = false := by
  cases crop with
  | none => cases h
  | some crop =>
    obtain ⟨hleft, hposition, hsize, hright⟩ := normalizeAxis_bounds crop.position.1 crop.size.1
    obtain ⟨htop, hposition', hsize', hbottom⟩ := normalizeAxis_bounds crop.position.2 crop.size.2
    simp only [normalizeScreenCrop] at h
    split at h
    · cases h
    · rename_i hfull
      obtain rfl := Option.some.inj h
      exact ⟨⟨hleft, htop, ⟨hposition, hposition'⟩, ⟨hsize, hsize'⟩, hright, hbottom⟩,
        Bool.eq_false_iff.mpr hfull⟩

theorem ScreenCrop.Normal.normalize {crop : ScreenCrop} (h : crop.Normal) :
    normalizeScreenCrop (some crop.stored) = if crop.isFull then none else some crop := by
  simp only [normalizeScreenCrop, ScreenCrop.stored,
    normalizeAxis_eq_self h.left h.position.1 h.size.1 h.right,
    normalizeAxis_eq_self h.top h.position.2 h.size.2 h.bottom]

theorem normalizeScreenCrop_idempotent (crop : Option StoredCrop) :
    normalizeScreenCrop ((normalizeScreenCrop crop).map ScreenCrop.stored) =
      normalizeScreenCrop crop := by
  cases h : normalizeScreenCrop crop with
  | none => rfl
  | some normalized =>
    obtain ⟨hnormal, hfull⟩ := normalizeScreenCrop_normal h
    rw [Option.map_some, hnormal.normalize, hfull]
    rfl

/-! ## Wallpaper -/

/-- A rectangle in the middle of a source. -/
structure ContentRect.Centered (rect : ContentRect) (width height : ℕ) : Prop where
  x : 2 * rect.x + rect.width = width
  y : 2 * rect.y + rect.height = height

/-- The largest rectangle of the output's ratio in the middle of a source. -/
structure ContentRect.Covers (rect : ContentRect)
    (sourceWidth sourceHeight outputWidth outputHeight : ℕ) : Prop where
  centered : rect.Centered sourceWidth sourceHeight
  x : 0 ≤ rect.x
  y : 0 ≤ rect.y
  width : 0 < rect.width
  height : 0 < rect.height
  ratio : rect.width / rect.height = outputWidth / outputHeight
  largest : ∀ other : ContentRect, other.Centered sourceWidth sourceHeight → 0 ≤ other.x →
    0 ≤ other.y → 0 < other.height → other.width / other.height = outputWidth / outputHeight →
      other.width ≤ rect.width ∧ other.height ≤ rect.height

theorem coverContentRect_covers {sourceWidth sourceHeight outputWidth outputHeight : ℕ}
    (hsourceWidth : 1 ≤ sourceWidth) (hsourceHeight : 1 ≤ sourceHeight)
    (houtputWidth : 1 ≤ outputWidth) (houtputHeight : 1 ≤ outputHeight) :
    (coverContentRect sourceWidth sourceHeight outputWidth outputHeight).Covers
      sourceWidth sourceHeight outputWidth outputHeight := by
  have hsourceWidth' : (0 : ℚ) < sourceWidth := by exact_mod_cast hsourceWidth
  have hsourceHeight' : (0 : ℚ) < sourceHeight := by exact_mod_cast hsourceHeight
  have haspect : (0 : ℚ) < outputWidth / outputHeight :=
    div_pos (by exact_mod_cast houtputWidth) (by exact_mod_cast houtputHeight)
  -- a rectangle in the middle is no larger than the source
  have hfits : ∀ other : ContentRect, other.Centered sourceWidth sourceHeight → 0 ≤ other.x →
      0 ≤ other.y → other.width ≤ sourceWidth ∧ other.height ≤ sourceHeight := by
    intro other hother hx hy
    have hx' := hother.x
    have hy' := hother.y
    constructor
    · linarith
    · linarith
  rw [coverContentRect]
  dsimp only
  generalize hratio : (outputWidth / outputHeight : ℚ) = aspect at haspect ⊢
  split
  · rename_i hwide
    rw [lt_div_iff₀ hsourceHeight'] at hwide
    refine ⟨⟨by dsimp only; ring, by dsimp only; ring⟩, by dsimp only; linarith, le_rfl,
      mul_pos hsourceHeight' haspect, hsourceHeight', ?_, fun other hcentered hx hy hpos hsame => ?_⟩
    · rw [hratio, mul_div_cancel_left₀ _ hsourceHeight'.ne']
    · obtain ⟨-, hheight⟩ := hfits other hcentered hx hy
      rw [hratio, div_eq_iff hpos.ne', mul_comm] at hsame
      rw [hsame]
      exact ⟨mul_le_mul_of_nonneg_right hheight haspect.le, hheight⟩
  · rename_i hnarrow
    rw [not_lt, div_le_iff₀ hsourceHeight'] at hnarrow
    have hheight : (sourceWidth : ℚ) / aspect ≤ sourceHeight := by
      rw [div_le_iff₀ haspect, mul_comm]
      exact hnarrow
    refine ⟨⟨by dsimp only; ring, by dsimp only; ring⟩, le_rfl, by dsimp only; linarith, hsourceWidth',
      div_pos hsourceWidth' haspect, ?_, fun other hcentered hx hy hpos hsame => ?_⟩
    · rw [hratio, div_div_cancel₀ hsourceWidth'.ne']
    · obtain ⟨hwidth, -⟩ := hfits other hcentered hx hy
      rw [hratio, div_eq_iff hpos.ne', mul_comm] at hsame
      refine ⟨hwidth, ?_⟩
      rw [le_div_iff₀ haspect, ← hsame]
      exact hwidth

/-! ## All of them -/

end Blip.Capture
