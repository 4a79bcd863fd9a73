import Blip.Capture.PreviewRequests
import Blip.Common.Rounding

/-!
# The geometry of an output frame

Where `render_output_frame` puts things: the part of the screen that the crop keeps, the size of the
output, the padded content in it, the parts of a wallpaper and of the camera that are shown, and the
zoom. Below it what the compositor makes of a content rectangle and of the zoom. Colors, corners and
shadows are left out.
-/

namespace Blip.Capture

/-- `f64::clamp`; `none` is its panic on an empty range. -/
def clampChecked (low high value : ℚ) : Option ℚ :=
  if low ≤ high then some (max low (min high value)) else none

/-! ## The compositor -/

structure ContentRect where
  x : ℚ
  y : ℚ
  width : ℚ
  height : ℚ
deriving DecidableEq, Repr

/-- `gpu_content_rect`. -/
def gpuContentRect (contentRect : Option ContentRect) (width height : ℕ) :
    Except String (Option ContentRect) :=
  if 2 ^ 32 ≤ width then .error "frame width exceeds u32"
  else if 2 ^ 32 ≤ height then .error "frame height exceeds u32"
  else .ok do
    let rect := contentRect.getD
      { x := 0
        y := 0
        width
        height }
    let x ← clampChecked 0 (max (width - 1) 0) rect.x
    let y ← clampChecked 0 (max (height - 1) 0) rect.y
    let rectWidth ← clampChecked 1 (width - x) rect.width
    let rectHeight ← clampChecked 1 (height - y) rect.height
    some
      { x
        y
        width := rectWidth
        height := rectHeight }

/-- Where an item is on the output, in fractions of the output. -/
structure ItemTransform where
  center : ℚ × ℚ
  size : ℚ × ℚ
deriving DecidableEq, Repr

/-- The point of the output at which the shader shows a point of an item. -/
def ItemTransform.place (item : ItemTransform) (point : ℚ × ℚ) : ℚ × ℚ :=
  (item.center.1 + (point.1 - 1 / 2) * item.size.1, item.center.2 + (point.2 - 1 / 2) * item.size.2)

/-- `transformed_output_item`. -/
def transformedOutputItem (transform : OutputTransform) : ItemTransform where
  center := (transform.center.1 + transform.scale * (1 / 2 - transform.center.1),
    transform.center.2 + transform.scale * (1 / 2 - transform.center.2))
  size := (transform.scale, transform.scale)

/-- The item that `render_with_output_transform` renders the combined output as; `none` when it leaves
it as it is. -/
def outputItem (transform : OutputTransform) : Option ItemTransform :=
  let scale := max transform.scale 1
  let focus := (clampSecs 0 1 transform.center.1, clampSecs 0 1 transform.center.2)
  if scale = 1 then none
  else some (transformedOutputItem { center := focus, scale })

/-- Where a point of the combined output is after `render_with_output_transform`. -/
def placeOutput (transform : OutputTransform) (point : ℚ × ℚ) : ℚ × ℚ :=
  match outputItem transform with
  | none => point
  | some item => item.place point

/-! ## The crop of the screen -/

/-- A crop as it is stored; a number that is not finite is `none`. -/
structure StoredCrop where
  position : Option ℚ × Option ℚ
  size : Option ℚ × Option ℚ
deriving DecidableEq, Repr

def ScreenCrop.stored (crop : ScreenCrop) : StoredCrop where
  position := (some crop.position.1, some crop.position.2)
  size := (some crop.size.1, some crop.size.2)

/-- `ScreenCrop::FULL`. -/
def ScreenCrop.full : ScreenCrop where
  position := (0, 0)
  size := (1, 1)

/-- The position and the size along an axis in `normalize_screen_crop`. -/
def normalizeAxis (position size : Option ℚ) : ℚ × ℚ :=
  let position := clampSecs 0 0.99 (position.getD 0)
  let remaining := 1 - position
  let size := match size with
    | none => remaining
    | some size => if size ≤ 0 then remaining else size
  (position, min (max size (min 0.01 remaining)) remaining)

/-- Whether `normalize_screen_crop` takes a crop for the full screen. -/
def ScreenCrop.isFull (crop : ScreenCrop) : Bool :=
  |crop.position.1| < 0.0001 && |crop.position.2| < 0.0001 && |crop.size.1 - 1| < 0.0001 &&
    |crop.size.2 - 1| < 0.0001

/-- `normalize_screen_crop`. -/
def normalizeScreenCrop (crop : Option StoredCrop) : Option ScreenCrop :=
  match crop with
  | none => none
  | some crop =>
    let horizontal := normalizeAxis crop.position.1 crop.size.1
    let vertical := normalizeAxis crop.position.2 crop.size.2
    let crop : ScreenCrop :=
      { position := (horizontal.1, vertical.1)
        size := (horizontal.2, vertical.2) }
    if crop.isFull then none else some crop

/-- `screen_crop_rect`: what a crop keeps of a frame, and its size in whole pixels. -/
def screenCropRect (dimensions : ℕ × ℕ) (crop : Option StoredCrop) : ContentRect × (ℕ × ℕ) :=
  let crop := (normalizeScreenCrop crop).getD .full
  let width : ℚ := max dimensions.1 1
  let height : ℚ := max dimensions.2 1
  let cropWidth := max (width * crop.size.1) 1
  let cropHeight := max (height * crop.size.2) 1
  ({ x := width * crop.position.1
     y := height * crop.position.2
     width := cropWidth
     height := cropHeight },
    ((f64Round cropWidth).toNat, (f64Round cropHeight).toNat))

/-! ## Wallpaper and camera -/

/-- `cover_content_rect`. -/
def coverContentRect (sourceWidth sourceHeight outputWidth outputHeight : ℕ) : ContentRect :=
  let sourceAspect : ℚ := sourceWidth / sourceHeight
  let outputAspect : ℚ := outputWidth / outputHeight
  if outputAspect < sourceAspect then
    let width := sourceHeight * outputAspect
    { x := (sourceWidth - width) * (1 / 2)
      y := 0
      width
      height := sourceHeight }
  else
    let height := sourceWidth / outputAspect
    { x := 0
      y := (sourceHeight - height) * (1 / 2)
      width := sourceWidth
      height }

/-- `camera_crop_rect`. -/
def cameraCropRect (source : ℕ × ℕ) (crop : CameraCrop) : ContentRect × (ℚ × ℚ) :=
  let size : ℕ × ℕ := match crop with
    | .circle | .squircle => (min source.1 source.2, min source.1 source.2)
    | .squirectangle => source
  ({ x := (source.1 - size.1) / 2
     y := (source.2 - size.2) / 2
     width := size.1
     height := size.2 },
    (size.1, size.2))

/-! ## The size of the output -/

def evenDimension (value : ℚ) : ℕ := max ((f64Round (value / 2)).toNat * 2) 2

/-- The ratio of width to height that `output_dimensions` aims at. -/
def outputRatio (source : ℕ × ℕ) (aspectRatio : OutputAspectRatio) (padding : ℚ) : ℚ :=
  match aspectRatio with
  | .auto =>
    let sourceRatio : ℚ := max source.1 1 / max source.2 1
    let paddingFraction := clampSecs 0 50 padding / 100
    if 1 ≤ sourceRatio then sourceRatio * (1 - paddingFraction) + paddingFraction
    else 1 / ((1 - paddingFraction) / sourceRatio + paddingFraction)
  | .wide => 16 / 9
  | .vertical => 9 / 16
  | .square => 1
  | .classic => 4 / 3
  | .tall => 3 / 4

/-- `output_dimensions`. -/
def outputDimensions (shortEdge : ℕ) (source : ℕ × ℕ) (aspectRatio : OutputAspectRatio)
    (padding : ℚ) : ℕ × ℕ :=
  let ratio := outputRatio source aspectRatio padding
  let shortEdge := evenDimension shortEdge
  if 1 ≤ ratio then (evenDimension (shortEdge * ratio), shortEdge)
  else (shortEdge, evenDimension (shortEdge / ratio))

/-! ## The padded content -/

/-- `aspect_fit_size`. -/
def aspectFitSize (maximumSize source canvas : ℚ × ℚ) : ℚ × ℚ :=
  if source.2 = 0 ∨ canvas.2 = 0 ∨ maximumSize.2 = 0 then maximumSize
  else
    let sourceAspect := source.1 / source.2
    let canvasAspect := canvas.1 / canvas.2
    let boxAspect := maximumSize.1 * canvasAspect / maximumSize.2
    if boxAspect < sourceAspect then
      if sourceAspect = 0 then maximumSize
      else (maximumSize.1, maximumSize.1 * canvasAspect / sourceAspect)
    else if canvasAspect = 0 then maximumSize
    else (maximumSize.2 * sourceAspect / canvasAspect, maximumSize.2)

/-- The size of the content in `render_output_frame`, in fractions of the output. -/
def contentSize (cropped output : ℕ × ℕ) (padding : ℚ) : ℚ × ℚ :=
  let inset := min output.1 output.2 * padding / 200
  aspectFitSize
    (max (output.1 - inset * 2) 0 / output.1, max (output.2 - inset * 2) 0 / output.2)
    (cropped.1, cropped.2) (output.1, output.2)

/-- The item of the content in `render_output_frame`. -/
def contentTransform (cropped output : ℕ × ℕ) (padding : ℚ) : ItemTransform where
  center := (1 / 2, 1 / 2)
  size := contentSize cropped output padding

/-! ## The zoom -/

/-- `map_output_transform_to_item`. -/
def mapOutputTransformToItem (output : OutputTransform) (item : ItemTransform) : OutputTransform :=
  { output with
    center := (item.center.1 + (output.center.1 - 1 / 2) * item.size.1,
      item.center.2 + (output.center.2 - 1 / 2) * item.size.2) }

/-- `map_output_transform_to_crop`. -/
def mapOutputTransformToCrop (output : OutputTransform) (crop : Option StoredCrop) :
    OutputTransform :=
  match normalizeScreenCrop crop with
  | none => output
  | some crop =>
    { output with
      center := (clampSecs 0 1 ((output.center.1 - crop.position.1) / crop.size.1),
        clampSecs 0 1 ((output.center.2 - crop.position.2) / crop.size.2)) }

/-- The transform `render_output_frame` renders its items with. -/
def outputTransform (zoom : OutputTransform) (crop : Option StoredCrop) (content : ItemTransform) :
    OutputTransform :=
  mapOutputTransformToItem (mapOutputTransformToCrop zoom crop) content

end Blip.Capture
