import Blip.Capture.BundleFiles
import Blip.Capture.OutputPadding

/-!
# The camera over an output frame

The sidebar sets the size of the camera, its distance from the edges and how much smaller it gets in a
zoom, each up to 50. `render_output_frame` puts the cropped camera over the output by these. Numbers are
exact.
-/

namespace Blip.Capture

/-! ## The sliders -/

/-- The sliders of the camera among `SliderKind`. -/
inductive SliderKind
  | cameraSize
  | cameraPadding
  | cameraZoomReduction
  | cameraShadow
deriving DecidableEq, Repr

/-- `set_slider_value`; the slider is drawn from `left` on, with a width. -/
def CameraLayout.setSliderValue (layout : CameraLayout) (kind : SliderKind) (left width position : ℚ) :
    CameraLayout :=
  if width ≤ 0 then layout
  else
    let fraction := clampSecs 0 1 ((position - left) / width)
    let value : ℚ := f64Round (fraction * 50)
    match kind with
    | .cameraSize => { layout with size := value }
    | .cameraPadding => { layout with edgePadding := value }
    | .cameraZoomReduction => { layout with zoomSizeReduction := value }
    | .cameraShadow => { layout with shadow := value }

/-- The sliders that place the camera are at places they have. -/
structure CameraLayout.OnSliders (layout : CameraLayout) : Prop where
  size : 0 ≤ layout.size ∧ layout.size ≤ 50
  edgePadding : 0 ≤ layout.edgePadding ∧ layout.edgePadding ≤ 50
  zoomSizeReduction : 0 ≤ layout.zoomSizeReduction ∧ layout.zoomSizeReduction ≤ 50

theorem onSliders_default : CameraLayout.default.OnSliders := by
  constructor <;> norm_num [CameraLayout.default]

/-- A slider is at most at its end. -/
theorem sliderValue_mem (fraction : ℚ) :
    (0 : ℚ) ≤ f64Round (clampSecs 0 1 fraction * 50) ∧
      (f64Round (clampSecs 0 1 fraction * 50) : ℚ) ≤ 50 := by
  obtain ⟨hzero, hone⟩ := clampSecs_mem zero_le_one fraction
  have hlow : 0 ≤ f64Round (clampSecs 0 1 fraction * 50) := f64Round_nonneg (by linarith)
  have hhigh : f64Round (clampSecs 0 1 fraction * 50) ≤ f64Round ((50 : ℤ) : ℚ) :=
    f64Round_mono (by push_cast; linarith)
  rw [f64Round_intCast] at hhigh
  exact ⟨by exact_mod_cast hlow, by exact_mod_cast hhigh⟩

theorem CameraLayout.OnSliders.setSliderValue {layout : CameraLayout} (h : layout.OnSliders)
    (kind : SliderKind)
    (left width position : ℚ) : (layout.setSliderValue kind left width position).OnSliders := by
  have hvalue := sliderValue_mem ((position - left) / width)
  unfold CameraLayout.setSliderValue
  split
  · exact h
  · cases kind with
    | cameraSize => exact { h with size := hvalue }
    | cameraPadding => exact { h with edgePadding := hvalue }
    | cameraZoomReduction => exact { h with zoomSizeReduction := hvalue }
    | cameraShadow => exact { h with }

/-! ## The transform -/

structure BoxShadow where
  offset : ℚ × ℚ
  color : ℚ × ℚ × ℚ × ℚ
  blurRadius : ℚ
  spreadRadius : ℚ
deriving DecidableEq, Repr

/-- An item with its corners and its shadow. -/
structure StyledTransform extends ItemTransform where
  cornerRadius : ℚ
  squircle : Bool
  boxShadow : BoxShadow
deriving DecidableEq, Repr

/-- The size in `camera_transform`. -/
def cameraSize (source : ℚ × ℚ) (cameraIsWide : Bool) (canvas : ℚ × ℚ) (layout : CameraLayout)
    (zoomScale : ℚ) : ℚ × ℚ :=
  let zoomProgress := clampSecs 0 1 (zoomScale - 1)
  let reduction := clampSecs 0 50 layout.zoomSizeReduction / 100
  let maximumSize := clampSecs 0 50 layout.size / 100 * (1 - reduction * zoomProgress)
  let sourceAspect := source.1 / max source.2 f64Epsilon
  let fixedExtent := min canvas.1 canvas.2 * maximumSize
  -- `cameraIsWide` is of the source; `sourceAspect` is of what the crop leaves of it
  let pixelSize :=
    if cameraIsWide then (fixedExtent * sourceAspect, fixedExtent)
    else (fixedExtent, fixedExtent / max sourceAspect f64Epsilon)
  (pixelSize.1 / canvas.1, pixelSize.2 / canvas.2)

/-- The center in `camera_transform`. -/
def cameraCenter (size canvas : ℚ × ℚ) (layout : CameraLayout) : ℚ × ℚ :=
  let edgePadding := clampSecs 0 50 layout.edgePadding / 100 * min canvas.1 canvas.2
  let edgePaddingX := edgePadding / canvas.1
  let edgePaddingY := edgePadding / canvas.2
  let left := edgePaddingX + size.1 * (1 / 2)
  let right := 1 - edgePaddingX - size.1 * (1 / 2)
  let top := edgePaddingY + size.2 * (1 / 2)
  let bottom := 1 - edgePaddingY - size.2 * (1 / 2)
  match layout.position with
  | .topLeft => (left, top)
  | .topCenter => (1 / 2, top)
  | .topRight => (right, top)
  | .middleLeft => (left, 1 / 2)
  | .center => (1 / 2, 1 / 2)
  | .middleRight => (right, 1 / 2)
  | .bottomLeft => (left, bottom)
  | .bottomCenter => (1 / 2, bottom)
  | .bottomRight => (right, bottom)

/-- `camera_transform`. -/
def cameraTransform (source : ℚ × ℚ) (cameraIsWide : Bool) (canvas : ℚ × ℚ) (layout : CameraLayout)
    (zoomScale : ℚ) : StyledTransform :=
  let size := cameraSize source cameraIsWide canvas layout zoomScale
  let shortestDimension := min (size.1 * canvas.1) (size.2 * canvas.2)
  let shadowStrength := clampSecs 0 50 layout.shadow / 50
  { center := cameraCenter size canvas layout
    size
    cornerRadius := shortestDimension * match layout.crop with
      | .circle => 1 / 2
      | .squircle | .squirectangle => 32 / 180
    squircle := layout.crop ≠ .circle
    boxShadow :=
      { offset := (0, shortestDimension * 0.02 * shadowStrength)
        color := (0, 0, 0, 0.9 * shadowStrength)
        blurRadius := shortestDimension * 0.02 * shadowStrength
        spreadRadius := shortestDimension * -0.001 * shadowStrength } }

/-- The item of the camera in `render_output_frame`. -/
def cameraOverlay (source : ℕ × ℕ) (canvas : ℚ × ℚ) (layout : CameraLayout) (zoomScale : ℚ) :
    StyledTransform :=
  cameraTransform (cameraCropRect source layout.crop).2 (source.2 ≤ source.1) canvas layout zoomScale

/-! ## Edges -/

inductive Edge
  | left
  | right
  | top
  | bottom
deriving DecidableEq, Repr

/-- The left or right edge that a position is at. -/
def CameraPosition.horizontal : CameraPosition → Option Edge
  | .topLeft | .middleLeft | .bottomLeft => some .left
  | .topRight | .middleRight | .bottomRight => some .right
  | .topCenter | .center | .bottomCenter => none

/-- The top or bottom edge that a position is at. -/
def CameraPosition.vertical : CameraPosition → Option Edge
  | .topLeft | .topCenter | .topRight => some .top
  | .bottomLeft | .bottomCenter | .bottomRight => some .bottom
  | .middleLeft | .center | .middleRight => none

/-- How far an item is from an edge of the canvas, in pixels. -/
def ItemTransform.margin (item : ItemTransform) (canvas : ℚ × ℚ) : Edge → ℚ
  | .left => (item.center.1 - item.size.1 / 2) * canvas.1
  | .right => (1 - item.center.1 - item.size.1 / 2) * canvas.1
  | .top => (item.center.2 - item.size.2 / 2) * canvas.2
  | .bottom => (1 - item.center.2 - item.size.2 / 2) * canvas.2

/-- The distance a layout keeps from the edges it is at, in pixels. -/
def CameraLayout.padding (layout : CameraLayout) (canvas : ℚ × ℚ) : ℚ :=
  layout.edgePadding / 100 * min canvas.1 canvas.2

/-- How long the side is that a layout gives a length, in pixels. -/
def CameraLayout.extent (layout : CameraLayout) (canvas : ℚ × ℚ) (zoomScale : ℚ) : ℚ :=
  layout.size / 100 * (1 - layout.zoomSizeReduction / 100 * min (zoomScale - 1) 1) *
    min canvas.1 canvas.2

/-- What an edge at most takes from the length of an axis. -/
def paddingAt (edge : Option Edge) (padding : ℚ) : ℚ := if edge.isSome then padding else 0

/-- What the overlay is to be: the cropped camera with its ratio, not larger when the zoom is, inside the
canvas, and at its distance from the edges its position has. -/
structure CameraOverlaid (source : ℕ × ℕ) (canvas : ℚ × ℚ) (layout : CameraLayout) (zoomScale : ℚ) :
    Prop where
  ratio :
    let size := (cameraOverlay source canvas layout zoomScale).size
    let cropped := (cameraCropRect source layout.crop).2
    size.1 * canvas.1 * cropped.2 = size.2 * canvas.2 * cropped.1
  shrinks : ∀ zoomScale' ≥ zoomScale,
    (cameraOverlay source canvas layout zoomScale').size ≤
      (cameraOverlay source canvas layout zoomScale).size
  inside : ∀ edge, 0 ≤ (cameraOverlay source canvas layout zoomScale).margin canvas edge
  anchored : ∀ edge, layout.position.horizontal = some edge ∨ layout.position.vertical = some edge →
    (cameraOverlay source canvas layout zoomScale).margin canvas edge = layout.padding canvas

/-- The longer side of the camera fits in the canvas, with the padding where the position has one. A
camera that is high is no more than 2^52 times as high as wide. -/
def CameraLayout.Fits (layout : CameraLayout) (source : ℕ × ℕ) (canvas : ℚ × ℚ) (zoomScale : ℚ) : Prop :=
  let cropped := (cameraCropRect source layout.crop).2
  let padding := layout.padding canvas
  let extent := layout.extent canvas zoomScale
  if source.2 ≤ source.1 then
    paddingAt layout.position.horizontal padding + extent * (cropped.1 / cropped.2) ≤ canvas.1
  else
    layout.size = 0 ∨ f64Epsilon * cropped.2 ≤ cropped.1 ∧
      paddingAt layout.position.vertical padding + extent * (cropped.2 / cropped.1) ≤ canvas.2

instance (layout : CameraLayout) (source : ℕ × ℕ) (canvas : ℚ × ℚ) (zoomScale : ℚ) :
    Decidable (layout.Fits source canvas zoomScale) := by
  unfold CameraLayout.Fits
  infer_instance

section

variable {source : ℚ × ℚ} {canvas : ℚ × ℚ} {layout : CameraLayout} {zoomScale zoomScale' : ℚ}

/-- How much of its size the camera keeps in a zoom. -/
theorem zoomFactor_mem (h : layout.OnSliders) (hzoom : 1 ≤ zoomScale) :
    1 / 2 ≤ 1 - layout.zoomSizeReduction / 100 * min (zoomScale - 1) 1 ∧
      1 - layout.zoomSizeReduction / 100 * min (zoomScale - 1) 1 ≤ 1 := by
  obtain ⟨hreduction, hreduction'⟩ := h.zoomSizeReduction
  have hprogress : 0 ≤ min (zoomScale - 1) 1 := le_min (by linarith) zero_le_one
  have hlow : 0 ≤ layout.zoomSizeReduction / 100 * min (zoomScale - 1) 1 :=
    mul_nonneg (by linarith) hprogress
  have hhigh : layout.zoomSizeReduction / 100 * min (zoomScale - 1) 1 ≤ 1 / 2 * 1 :=
    mul_le_mul (by linarith) (min_le_right _ _) hprogress (by norm_num)
  constructor <;> linarith

theorem extent_eq_zero (h : layout.OnSliders) (hcanvas : 0 < canvas.1) (hcanvas' : 0 < canvas.2)
    (hzoom : 1 ≤ zoomScale) : layout.extent canvas zoomScale = 0 ↔ layout.size = 0 := by
  have hfactor := (zoomFactor_mem h hzoom).1
  have hpos : 1 - layout.zoomSizeReduction / 100 * min (zoomScale - 1) 1 ≠ 0 := by linarith
  rw [CameraLayout.extent, mul_eq_zero, or_iff_left (lt_min hcanvas hcanvas').ne', mul_eq_zero,
    or_iff_left hpos, div_eq_zero_iff, or_iff_left (by norm_num)]

/-- A camera in a closer zoom is not larger. -/
theorem extent_anti (h : layout.OnSliders) (hcanvas : 0 < canvas.1) (hcanvas' : 0 < canvas.2)
    (hle : zoomScale ≤ zoomScale') :
    layout.extent canvas zoomScale' ≤ layout.extent canvas zoomScale := by
  have hreduction : 0 ≤ layout.zoomSizeReduction / 100 := div_nonneg h.zoomSizeReduction.1 (by norm_num)
  have hsize : 0 ≤ layout.size / 100 := div_nonneg h.size.1 (by norm_num)
  have hshort : 0 ≤ min canvas.1 canvas.2 := le_min hcanvas.le hcanvas'.le
  unfold CameraLayout.extent
  gcongr

/-- Along the side that is measured, the camera and its padding take at most half of the canvas each. -/
theorem extent_fits (h : layout.OnSliders) (hcanvas : 0 < canvas.1) (hcanvas' : 0 < canvas.2)
    (hzoom : 1 ≤ zoomScale) (edge : Option Edge) :
    paddingAt edge (layout.padding canvas) + layout.extent canvas zoomScale ≤ min canvas.1 canvas.2 := by
  have hshort : 0 ≤ min canvas.1 canvas.2 := le_min hcanvas.le hcanvas'.le
  obtain ⟨hsize, hsize'⟩ := h.size
  obtain ⟨hpadding, hpadding'⟩ := h.edgePadding
  have hfactor := zoomFactor_mem h hzoom
  have hextent : layout.extent canvas zoomScale ≤ 1 / 2 * min canvas.1 canvas.2 := by
    refine mul_le_mul_of_nonneg_right ?_ hshort
    exact (mul_le_mul (by linarith) hfactor.2 (by linarith) (by norm_num)).trans_eq (mul_one _)
  have htaken : paddingAt edge (layout.padding canvas) ≤ 1 / 2 * min canvas.1 canvas.2 := by
    unfold paddingAt CameraLayout.padding
    split
    · exact mul_le_mul_of_nonneg_right (by linarith) hshort
    · exact mul_nonneg (by norm_num) hshort
  linarith

/-- The sides of the camera, in fractions of the canvas. -/
theorem cameraSize_eq (h : layout.OnSliders) (hsource : 1 ≤ source.2) (hzoom : 1 ≤ zoomScale)
    (cameraIsWide : Bool) : cameraSize source cameraIsWide canvas layout zoomScale =
      if cameraIsWide then
        (layout.extent canvas zoomScale * (source.1 / source.2) / canvas.1,
          layout.extent canvas zoomScale / canvas.2)
      else
        (layout.extent canvas zoomScale / canvas.1,
          layout.extent canvas zoomScale / max (source.1 / source.2) f64Epsilon / canvas.2) := by
  have hepsilon : f64Epsilon ≤ source.2 := le_trans (by norm_num [f64Epsilon]) hsource
  have hprogress : clampSecs 0 1 (zoomScale - 1) = min (zoomScale - 1) 1 := by
    rw [clampSecs, min_comm, max_eq_right (le_min (by linarith) zero_le_one)]
  have hextent : min canvas.1 canvas.2 *
      (layout.size / 100 * (1 - layout.zoomSizeReduction / 100 * min (zoomScale - 1) 1)) =
        layout.extent canvas zoomScale := mul_comm _ _
  simp only [cameraSize, clampSecs_eq_self h.size.1 h.size.2,
    clampSecs_eq_self h.zoomSizeReduction.1 h.zoomSizeReduction.2, hprogress, hextent,
      max_eq_left hepsilon]
  split <;> rfl

end

/-! ## Margins -/

/-- The center along an axis of an item that is put at an edge, or in the middle. -/
def placed (edge : Option Edge) (padding length size : ℚ) : ℚ :=
  match edge with
  | some .left | some .top => padding / length + size * (1 / 2)
  | some .right | some .bottom => 1 - padding / length - size * (1 / 2)
  | none => 1 / 2

section

variable {length size padding : ℚ}

theorem margin_placed_low (hlength : 0 < length) :
    (padding / length + size * (1 / 2) - size / 2) * length = padding ∧
      (1 - (padding / length + size * (1 / 2)) - size / 2) * length =
        length - padding - size * length := by
  constructor <;> (field_simp; ring)

theorem margin_placed_high (hlength : 0 < length) :
    (1 - padding / length - size * (1 / 2) - size / 2) * length = length - padding - size * length ∧
      (1 - (1 - padding / length - size * (1 / 2)) - size / 2) * length = padding := by
  constructor <;> (field_simp; ring)

/-- An item is inside along an axis exactly when it and the padding it has there fit. -/
theorem placed_inside_iff (hlength : 0 < length) (hpadding : 0 ≤ padding) (edge : Option Edge) :
    (0 ≤ (placed edge padding length size - size / 2) * length ∧
      0 ≤ (1 - placed edge padding length size - size / 2) * length) ↔
        paddingAt edge padding + size * length ≤ length := by
  have hfits : 0 ≤ length - padding - size * length ↔ padding + size * length ≤ length := by
    rw [sub_sub, sub_nonneg]
  have hlow : (0 ≤ (padding / length + size * (1 / 2) - size / 2) * length ∧
      0 ≤ (1 - (padding / length + size * (1 / 2)) - size / 2) * length) ↔
        padding + size * length ≤ length := by
    rw [(margin_placed_low hlength).1, (margin_placed_low hlength).2, and_iff_right hpadding, hfits]
  have hhigh : (0 ≤ (1 - padding / length - size * (1 / 2) - size / 2) * length ∧
      0 ≤ (1 - (1 - padding / length - size * (1 / 2)) - size / 2) * length) ↔
        padding + size * length ≤ length := by
    rw [(margin_placed_high hlength).1, (margin_placed_high hlength).2, and_iff_left hpadding, hfits]
  cases edge with
  | none =>
    -- in the middle both margins are the same
    have hmiddle : (1 / 2 - size / 2) * length = (length - size * length) / 2 := by ring
    have hmiddle' : (1 - 1 / 2 - size / 2) * length = (length - size * length) / 2 := by ring
    change 0 ≤ (1 / 2 - size / 2) * length ∧ 0 ≤ (1 - 1 / 2 - size / 2) * length ↔
      0 + size * length ≤ length
    rw [hmiddle, hmiddle', and_self]
    constructor <;> (intro; linarith)
  | some edge =>
    cases edge with
    | left => exact hlow
    | right => exact hhigh
    | top => exact hlow
    | bottom => exact hhigh

end

section

variable {canvas : ℚ × ℚ} {layout : CameraLayout}

theorem cameraCenter_eq (h : layout.OnSliders) (size : ℚ × ℚ) : cameraCenter size canvas layout =
    (placed layout.position.horizontal (layout.padding canvas) canvas.1 size.1,
      placed layout.position.vertical (layout.padding canvas) canvas.2 size.2) := by
  have hpadding : clampSecs 0 50 layout.edgePadding / 100 * min canvas.1 canvas.2 =
    layout.padding canvas := by
    rw [clampSecs_eq_self h.edgePadding.1 h.edgePadding.2]
    rfl
  simp only [cameraCenter, hpadding]
  cases layout.position <;> rfl

/-- The camera is at its distance from the edges that its position has. -/
theorem margin_anchored (h : layout.OnSliders) (hcanvas : 0 < canvas.1) (hcanvas' : 0 < canvas.2)
    {item : ItemTransform} (hcenter : item.center = cameraCenter item.size canvas layout) {edge : Edge}
    (hedge : layout.position.horizontal = some edge ∨ layout.position.vertical = some edge) :
    item.margin canvas edge = layout.padding canvas := by
  rw [cameraCenter_eq h] at hcenter
  generalize layout.position = position at hcenter hedge
  rcases hedge with hedge | hedge
  · cases edge with
    | left =>
      rw [ItemTransform.margin, hcenter, hedge]
      exact (margin_placed_low hcanvas).1
    | right =>
      rw [ItemTransform.margin, hcenter, hedge]
      exact (margin_placed_high hcanvas).2
    | top => cases position <;> cases hedge
    | bottom => cases position <;> cases hedge
  · cases edge with
    | top =>
      rw [ItemTransform.margin, hcenter, hedge]
      exact (margin_placed_low hcanvas').1
    | bottom =>
      rw [ItemTransform.margin, hcenter, hedge]
      exact (margin_placed_high hcanvas').2
    | left => cases position <;> cases hedge
    | right => cases position <;> cases hedge

/-- The camera is inside the canvas exactly when both of its sides fit with their paddings. -/
theorem margin_inside_iff (h : layout.OnSliders) (hcanvas : 0 < canvas.1) (hcanvas' : 0 < canvas.2)
    {item : ItemTransform} (hcenter : item.center = cameraCenter item.size canvas layout) :
    (∀ edge, 0 ≤ item.margin canvas edge) ↔
      paddingAt layout.position.horizontal (layout.padding canvas) + item.size.1 * canvas.1 ≤ canvas.1 ∧
        paddingAt layout.position.vertical (layout.padding canvas) + item.size.2 * canvas.2 ≤
          canvas.2 := by
  have hpadding : 0 ≤ layout.padding canvas :=
    mul_nonneg (div_nonneg h.edgePadding.1 (by norm_num)) (le_min hcanvas.le hcanvas'.le)
  rw [cameraCenter_eq h] at hcenter
  rw [← placed_inside_iff hcanvas hpadding, ← placed_inside_iff hcanvas' hpadding]
  constructor
  · intro hinside
    have hleft := hinside .left
    have hright := hinside .right
    have htop := hinside .top
    have hbottom := hinside .bottom
    simp only [ItemTransform.margin, hcenter] at hleft hright htop hbottom
    exact ⟨⟨hleft, hright⟩, htop, hbottom⟩
  · rintro ⟨⟨hleft, hright⟩, htop, hbottom⟩ edge
    cases edge
    · simpa only [ItemTransform.margin, hcenter] using hleft
    · simpa only [ItemTransform.margin, hcenter] using hright
    · simpa only [ItemTransform.margin, hcenter] using htop
    · simpa only [ItemTransform.margin, hcenter] using hbottom

end

/-! ## Every layout -/

theorem cropped_pos {source : ℕ × ℕ} (hsource : 1 ≤ source.1) (hsource' : 1 ≤ source.2)
    (crop : CameraCrop) :
    1 ≤ (cameraCropRect source crop).2.1 ∧ 1 ≤ (cameraCropRect source crop).2.2 := by
  have hshort : 1 ≤ min source.1 source.2 := le_min hsource hsource'
  cases crop with
  | circle => exact ⟨Nat.one_le_cast.mpr hshort, Nat.one_le_cast.mpr hshort⟩
  | squircle => exact ⟨Nat.one_le_cast.mpr hshort, Nat.one_le_cast.mpr hshort⟩
  | squirectangle => exact ⟨Nat.one_le_cast.mpr hsource, Nat.one_le_cast.mpr hsource'⟩

section

variable {source : ℕ × ℕ} {canvas : ℚ × ℚ} {layout : CameraLayout} {zoomScale : ℚ}

theorem cameraOverlay_shrinks (hsource : 1 ≤ source.1) (hsource' : 1 ≤ source.2) (h : layout.OnSliders)
    (hcanvas : 0 < canvas.1) (hcanvas' : 0 < canvas.2) (hzoom : 1 ≤ zoomScale) {zoomScale' : ℚ}
    (hle : zoomScale ≤ zoomScale') :
    (cameraOverlay source canvas layout zoomScale').size ≤
      (cameraOverlay source canvas layout zoomScale).size := by
  obtain ⟨hwidth, hheight⟩ := cropped_pos hsource hsource' layout.crop
  have hextent := extent_anti h hcanvas hcanvas' hle
  simp only [cameraOverlay, cameraTransform, cameraSize_eq h hheight hzoom,
    cameraSize_eq h hheight (hzoom.trans hle)]
  split
  · constructor
    · dsimp only
      gcongr
    · exact div_le_div_of_nonneg_right hextent hcanvas'.le
  · have hpos : 0 < f64Epsilon := by norm_num [f64Epsilon]
    constructor
    · exact div_le_div_of_nonneg_right hextent hcanvas.le
    · dsimp only
      gcongr

/-- What of the overlay depends on its layout, in pixels. -/
theorem cameraOverlaid_iff (hsource : 1 ≤ source.1) (hsource' : 1 ≤ source.2) (h : layout.OnSliders)
    (hcanvas : 0 < canvas.1) (hcanvas' : 0 < canvas.2) (hzoom : 1 ≤ zoomScale) :
    CameraOverlaid source canvas layout zoomScale ↔
      let size := (cameraOverlay source canvas layout zoomScale).size
      let cropped := (cameraCropRect source layout.crop).2
      size.1 * canvas.1 * cropped.2 = size.2 * canvas.2 * cropped.1 ∧
        paddingAt layout.position.horizontal (layout.padding canvas) + size.1 * canvas.1 ≤ canvas.1 ∧
          paddingAt layout.position.vertical (layout.padding canvas) + size.2 * canvas.2 ≤ canvas.2 := by
  have hcenter : (cameraOverlay source canvas layout zoomScale).center =
      cameraCenter (cameraOverlay source canvas layout zoomScale).size canvas layout := rfl
  have hinside := margin_inside_iff h hcanvas hcanvas' hcenter
  constructor
  · intro hright
    exact ⟨hright.ratio, hinside.mp hright.inside⟩
  · rintro ⟨hratio, hfits⟩
    refine ⟨hratio, fun zoomScale' hle => ?_, hinside.mpr hfits, fun edge hedge => ?_⟩
    · exact cameraOverlay_shrinks hsource hsource' h hcanvas hcanvas' hzoom hle
    · exact margin_anchored h hcanvas hcanvas' rfl hedge

/-- A camera that is wide keeps its ratio, and fits the short way. -/
theorem cameraOverlaid_iff_of_wide (hsource : 1 ≤ source.1) (hsource' : 1 ≤ source.2)
    (h : layout.OnSliders) (hcanvas : 0 < canvas.1) (hcanvas' : 0 < canvas.2) (hzoom : 1 ≤ zoomScale)
    (hwide : source.2 ≤ source.1) :
    CameraOverlaid source canvas layout zoomScale ↔
      paddingAt layout.position.horizontal (layout.padding canvas) + layout.extent canvas zoomScale *
        ((cameraCropRect source layout.crop).2.1 / (cameraCropRect source layout.crop).2.2) ≤
          canvas.1 := by
  obtain ⟨hwidth, hheight⟩ := cropped_pos hsource hsource' layout.crop
  have hheightPos : (cameraCropRect source layout.crop).2.2 ≠ 0 := (zero_lt_one.trans_le hheight).ne'
  have hshort := (extent_fits h hcanvas hcanvas' hzoom layout.position.vertical).trans (min_le_right _ _)
  rw [cameraOverlaid_iff hsource hsource' h hcanvas hcanvas' hzoom]
  simp only [cameraOverlay, cameraTransform, cameraSize_eq h hheight hzoom, decide_eq_true_eq,
    if_pos hwide, div_mul_cancel₀ _ hcanvas.ne', div_mul_cancel₀ _ hcanvas'.ne']
  rw [mul_assoc, div_mul_cancel₀ _ hheightPos, and_iff_right rfl, and_iff_left hshort]

/-- A camera that is high keeps its ratio while it is not beyond what the code divides by. -/
theorem cameraOverlaid_iff_of_high (hsource : 1 ≤ source.1) (hsource' : 1 ≤ source.2)
    (h : layout.OnSliders) (hcanvas : 0 < canvas.1) (hcanvas' : 0 < canvas.2) (hzoom : 1 ≤ zoomScale)
    (hhigh : ¬ source.2 ≤ source.1) :
    CameraOverlaid source canvas layout zoomScale ↔
      layout.size = 0 ∨ f64Epsilon * (cameraCropRect source layout.crop).2.2 ≤
          (cameraCropRect source layout.crop).2.1 ∧
        paddingAt layout.position.vertical (layout.padding canvas) + layout.extent canvas zoomScale *
          ((cameraCropRect source layout.crop).2.2 / (cameraCropRect source layout.crop).2.1) ≤
            canvas.2 := by
  obtain ⟨hwidth, hheight⟩ := cropped_pos hsource hsource' layout.crop
  have hwidthPos : 0 < (cameraCropRect source layout.crop).2.1 := zero_lt_one.trans_le hwidth
  have hheightPos : 0 < (cameraCropRect source layout.crop).2.2 := zero_lt_one.trans_le hheight
  have hshort := (extent_fits h hcanvas hcanvas' hzoom layout.position.horizontal).trans
    (min_le_left _ _)
  have hshort' := (extent_fits h hcanvas hcanvas' hzoom layout.position.vertical).trans
    (min_le_right _ _)
  rw [cameraOverlaid_iff hsource hsource' h hcanvas hcanvas' hzoom]
  simp only [cameraOverlay, cameraTransform, cameraSize_eq h hheight hzoom, decide_eq_true_eq,
    if_neg hhigh, div_mul_cancel₀ _ hcanvas.ne', div_mul_cancel₀ _ hcanvas'.ne']
  rw [and_iff_right hshort, ← extent_eq_zero h hcanvas hcanvas' hzoom]
  generalize (cameraCropRect source layout.crop).2.1 = width at *
  generalize (cameraCropRect source layout.crop).2.2 = height at *
  have hpos : 0 < max (width / height) f64Epsilon := lt_max_of_lt_left (div_pos hwidthPos hheightPos)
  -- a camera without a size is inside whatever its ratio
  by_cases hzero : layout.extent canvas zoomScale = 0
  · rw [hzero] at hshort' ⊢
    simp only [zero_div, zero_mul, true_and, true_or, iff_true]
    exact hshort'
  rw [or_iff_right hzero, ← le_div_iff₀ hheightPos]
  constructor
  · rintro ⟨hratio, hfits⟩
    have hmax : max (width / height) f64Epsilon = width / height := by
      rw [eq_div_iff hheightPos.ne', mul_comm]
      rw [div_mul_eq_mul_div, eq_div_iff hpos.ne', mul_assoc] at hratio
      exact mul_left_cancel₀ hzero hratio
    rw [hmax] at hfits
    refine ⟨max_eq_left_iff.mp hmax, ?_⟩
    rwa [div_div_eq_mul_div, mul_div_assoc] at hfits
  · rintro ⟨hratio, hfits⟩
    rw [max_eq_left hratio, div_div_eq_mul_div, ← mul_div_assoc] at *
    exact ⟨(div_mul_cancel₀ _ hwidthPos.ne').symm, hfits⟩

/-- With its sliders wherever they can be, the camera keeps its ratio, does not grow with the
zoom, is inside the canvas and at its distance from its edges exactly when its longer side fits
with the padding. -/
theorem camera_overlay_iff (hsource : 1 ≤ source.1) (hsource' : 1 ≤ source.2) (h : layout.OnSliders)
    (hcanvas : 0 < canvas.1) (hcanvas' : 0 < canvas.2) (hzoom : 1 ≤ zoomScale) :
    CameraOverlaid source canvas layout zoomScale ↔ layout.Fits source canvas zoomScale := by
  unfold CameraLayout.Fits
  split
  · exact cameraOverlaid_iff_of_wide hsource hsource' h hcanvas hcanvas' hzoom ‹_›
  · exact cameraOverlaid_iff_of_high hsource hsource' h hcanvas hcanvas' hzoom ‹_›

/-- A camera that is cropped to a square always fits. -/
theorem fits_of_square (hsource : 1 ≤ source.1) (hsource' : 1 ≤ source.2) (h : layout.OnSliders)
    (hcanvas : 0 < canvas.1) (hcanvas' : 0 < canvas.2) (hzoom : 1 ≤ zoomScale)
    (hsquare : layout.crop ≠ .squirectangle) : layout.Fits source canvas zoomScale := by
  obtain ⟨hwidth, hheight⟩ := cropped_pos hsource hsource' layout.crop
  have hequal : (cameraCropRect source layout.crop).2.1 = (cameraCropRect source layout.crop).2.2 := by
    unfold cameraCropRect
    cases hcrop : layout.crop with
    | circle => rfl
    | squircle => rfl
    | squirectangle => exact absurd hcrop hsquare
  have hratio : (cameraCropRect source layout.crop).2.2 / (cameraCropRect source layout.crop).2.2 = 1 :=
    div_self (zero_lt_one.trans_le hheight).ne'
  unfold CameraLayout.Fits
  simp only [hequal, hratio, mul_one]
  split
  · exact (extent_fits h hcanvas hcanvas' hzoom _).trans (min_le_left _ _)
  · refine .inr ⟨mul_le_of_le_one_left (zero_le_one.trans hheight) (by norm_num [f64Epsilon]), ?_⟩
    exact (extent_fits h hcanvas hcanvas' hzoom _).trans (min_le_right _ _)

end

theorem camera_overlay_iff_full_hd : CameraOverlaid (1280, 720) (1920, 1080) .default 1 :=
  (camera_overlay_iff (by decide) (by decide) onSliders_default (by decide) (by decide) le_rfl).mpr
    (by decide +kernel)

/-- With the size and the padding at their ends, a wide camera is not inside a canvas that is high. -/
theorem camera_off_canvas :
    let layout := (CameraLayout.default.setSliderValue .cameraSize 0 100 100).setSliderValue
      .cameraPadding 0 100 100
    layout.OnSliders ∧
      (cameraOverlay (1920, 1080) (1080, 1920) layout 1).margin (1080, 1920) .left = -420 ∧
      ¬ CameraOverlaid (1920, 1080) (1080, 1920) layout 1 := by
  intro layout
  have hmargin : (cameraOverlay (1920, 1080) (1080, 1920) layout 1).margin
    (1080, 1920) .left = -420 := by
    decide +kernel
  refine ⟨(onSliders_default.setSliderValue _ _ _ _).setSliderValue _ _ _ _, hmargin, fun hright => ?_⟩
  have hinside := hright.inside .left
  rw [hmargin] at hinside
  norm_num at hinside

end Blip.Capture
