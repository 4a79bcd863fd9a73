import Blip.Studio.Project

/-!
# Geometry of the canvas

Where elements are on the screen, which handle of an element is under the pointer, and the centers
and sizes that moving, resizing and nudging give. Positions on the canvas are fractions of it.
-/

namespace Blip.Studio

/-- `Pixels` of the window. -/
abbrev Pixels := F32

/-- `Ord::cmp` of `Pixels`, which is `f32::total_cmp`. -/
def pixelsLt : Pixels → Pixels → Bool
  | .nan, _ => false
  | _, .nan => true
  | left@(.finite true _), right@(.finite false _) => left.toRat ≤ right.toRat
  | left, right => left.lt right

/-- `Ord::min` of `Pixels`. -/
def pixelsMin (left right : Pixels) : Pixels := if pixelsLt right left then right else left

/-- `Ord::max` of `Pixels`. -/
def pixelsMax (left right : Pixels) : Pixels := if pixelsLt right left then left else right

structure Point where
  x : Pixels
  y : Pixels

structure Bounds where
  origin : Point
  size : Vec2

/-- `Bounds::contains`. -/
def Bounds.contains (bounds : Bounds) (point : Point) : Bool :=
  !pixelsLt point.x bounds.origin.x && pixelsLt point.x (bounds.origin.x + bounds.size.1) &&
    !pixelsLt point.y bounds.origin.y && pixelsLt point.y (bounds.origin.y + bounds.size.2)

/-- `ItemTransform`: the center, size and corner radius at which an element was rendered. -/
structure ItemTransform where
  center : Vec2
  size : Vec2
  cornerRadius : F32

structure RenderedElement where
  id : ElementId
  transform : ItemTransform

/-- The number of a small count, `as f32`. -/
def ofCount (count : ℕ) : F32 := .ofRat count

def half : F32 := .ofRat 0.5

/-- `ItemTransform::clamped_corner_radius`. -/
def ItemTransform.clampedCornerRadius (transform : ItemTransform) (canvasSize : Vec2) : F32 :=
  let width := canvasSize.1 * transform.size.1
  let height := canvasSize.2 * transform.size.2
  transform.cornerRadius.clamp (.ofRat 0) (width.min height * half)

/-! ## The preview -/

/-- `preview_bounds`, in a window of a size. -/
def previewBounds (viewport : Vec2) : Bounds where
  origin := ⟨.ofRat 280, .ofRat 0⟩
  size := (pixelsMax (viewport.1 - .ofRat 280 - .ofRat 232) (.ofRat 0), viewport.2)

/-- `ObjectFit::Contain.get_bounds`. -/
def containBounds (bounds : Bounds) (imageSize : Vec2) : Bounds :=
  let imageRatio := imageSize.1 / imageSize.2
  let boundsRatio := bounds.size.1 / bounds.size.2
  let newSize :=
    if imageRatio.lt boundsRatio then
      (imageSize.1 * (bounds.size.2 / imageSize.2), bounds.size.2)
    else (bounds.size.1, imageSize.2 * (bounds.size.1 / imageSize.1))
  { origin :=
      { x := bounds.origin.x + (bounds.size.1 - newSize.1) / .ofRat 2
        y := bounds.origin.y + (bounds.size.2 - newSize.2) / .ofRat 2 }
    size := newSize }

/-- `preview_frame_bounds`. -/
def previewFrameBounds (viewport : Vec2) (dimensions : ℕ × ℕ) : Option Bounds :=
  if dimensions.1 < 2 ^ 31 ∧ dimensions.2 < 2 ^ 31 then
    some (containBounds (previewBounds viewport) (ofCount dimensions.1, ofCount dimensions.2))
  else none

/-- `transform_bounds`. -/
def transformBounds (frame : Bounds) (transform : ItemTransform) : Bounds :=
  let insetSize := (frame.size.1 * transform.size.1, frame.size.2 * transform.size.2)
  { origin :=
      { x := frame.origin.x + frame.size.1 * transform.center.1 - insetSize.1 * half
        y := frame.origin.y + frame.size.2 * transform.center.2 - insetSize.2 * half }
    size := insetSize }

/-- `item_corner_radius`. -/
def itemCornerRadius (frame : Bounds) (dimensions : ℕ × ℕ) (transform : ItemTransform) : Pixels :=
  let canvasSize := (ofCount dimensions.1, ofCount dimensions.2)
  transform.clampedCornerRadius canvasSize * (frame.size.1 / canvasSize.1)

/-! ## Handles -/

inductive ResizeHandle
  | topLeft
  | top
  | topRight
  | right
  | bottomRight
  | bottom
  | bottomLeft
  | left
deriving DecidableEq, Repr

/-- `ResizeHandle::axes`. -/
def ResizeHandle.axes : ResizeHandle → Vec2
  | topLeft => (.ofRat (-1), .ofRat (-1))
  | top => (.ofRat 0, .ofRat (-1))
  | topRight => (.ofRat 1, .ofRat (-1))
  | right => (.ofRat 1, .ofRat 0)
  | bottomRight => (.ofRat 1, .ofRat 1)
  | bottom => (.ofRat 0, .ofRat 1)
  | bottomLeft => (.ofRat (-1), .ofRat 1)
  | left => (.ofRat (-1), .ofRat 0)

/-- `resize_handles`. -/
def resizeHandles (bounds : Bounds) : List (ResizeHandle × Point) :=
  let left := bounds.origin.x
  let top := bounds.origin.y
  let centerX := left + bounds.size.1 * half
  let centerY := top + bounds.size.2 * half
  let right := left + bounds.size.1
  let bottom := top + bounds.size.2
  [(.topLeft, ⟨left, top⟩), (.top, ⟨centerX, top⟩), (.topRight, ⟨right, top⟩),
    (.right, ⟨right, centerY⟩), (.bottomRight, ⟨right, bottom⟩), (.bottom, ⟨centerX, bottom⟩),
    (.bottomLeft, ⟨left, bottom⟩), (.left, ⟨left, centerY⟩)]

/-- `resize_handle_bounds`. -/
def resizeHandleBounds (center : Point) : Bounds where
  origin := ⟨center.x - .ofRat 10 * half, center.y - .ofRat 10 * half⟩
  size := (.ofRat 10, .ofRat 10)

/-- `resize_handle_at`. -/
def resizeHandleAt (position : Point) (bounds : Bounds) : Option ResizeHandle :=
  ((resizeHandles bounds).find? fun handle => (resizeHandleBounds handle.2).contains position).map
    Prod.fst

/-- `corner_radius_handle_bounds`. -/
def cornerRadiusHandleBounds (bounds : Bounds) (radius : Pixels) : Bounds :=
  let maximumInset := pixelsMin bounds.size.1 bounds.size.2 * half
  let fixedInset : F32 := .ofRat 16
  let inset :=
    if maximumInset.le fixedInset then maximumInset
    else fixedInset + (radius / maximumInset).clamp (.ofRat 0) (.ofRat 1) *
      (maximumInset - fixedInset)
  resizeHandleBounds ⟨bounds.origin.x + bounds.size.1 - inset, bounds.origin.y + inset⟩

/-- `corner_radius_ratio_from_position`. -/
def cornerRadiusRatioFromPosition (bounds : Bounds) (position : Point) : F32 :=
  let maximumInset := pixelsMin bounds.size.1 bounds.size.2 * half
  let fixedInset : F32 := .ofRat 16
  if maximumInset.le fixedInset then .ofRat 0
  else
    let right := bounds.origin.x + bounds.size.1
    let pointerInset := ((right - position.x) + (position.y - bounds.origin.y)) * half
    ((pointerInset - fixedInset) / (maximumInset - fixedInset)).clamp (.ofRat 0) (.ofRat 1) * half

/-! ## Moving and resizing -/

/-- `normalized_position_unclamped`. -/
def normalizedPositionUnclamped (position origin extent : Pixels) : F32 :=
  (position - origin) / extent

/-- `normalized_position`. -/
def normalizedPosition (position origin extent : Pixels) : F32 :=
  (normalizedPositionUnclamped position origin extent).clamp (.ofRat 0) (.ofRat 1)

/-- `nudged_center`. -/
def nudgedCenter (center delta canvas : Vec2) : Vec2 :=
  ((center.1 + delta.1 / canvas.1).clamp (.ofRat 0) (.ofRat 1),
    (center.2 + delta.2 / canvas.2).clamp (.ofRat 0) (.ofRat 1))

/-- `normalized_snap_threshold`. -/
def normalizedSnapThreshold (frame : Bounds) : Vec2 :=
  (.ofRat 8 / frame.size.1, .ofRat 8 / frame.size.2)

/-- `snapped_move_axis`: the places tried in order, each nearer than those before. -/
def snappedMoveAxis (center size threshold : F32) : F32 :=
  let halfSize := size * half
  let places := [(center - halfSize, .ofRat 0), (center, half), (center + halfSize, .ofRat 1)]
  (places.foldl (fun (best : F32 × F32) (place : F32 × F32) =>
    let adjustment := place.2 - place.1
    if adjustment.abs.le threshold && adjustment.abs.lt best.1 then
      (adjustment.abs, center + adjustment)
    else best) (.infinite false, center)).2

/-- `snapped_move_center`. -/
def snappedMoveCenter (center size threshold : Vec2) : Vec2 :=
  (snappedMoveAxis center.1 size.1 threshold.1, snappedMoveAxis center.2 size.2 threshold.2)

/-- `scaled_size`. -/
def scaledSize (size : Vec2) (scale : F32) : Vec2 := (size.1 * scale, size.2 * scale)

/-- `minimum_resize_ratio`. -/
def minimumResizeRatio (size : Vec2) : F32 := .ofRat 0.05 / size.1.max size.2

/-- `resized_item`: the new center and the scale. -/
def resizedItem (handle : ResizeHandle) (initial : ItemTransform) (anchor pointer : Vec2)
    (minimumRatio : F32) : Vec2 × F32 :=
  let (horizontal, vertical) := handle.axes
  let resizeVector := (horizontal * initial.size.1, vertical * initial.size.2)
  let pointerVector := (pointer.1 - anchor.1, pointer.2 - anchor.2)
  let denominator := resizeVector.1 * resizeVector.1 + resizeVector.2 * resizeVector.2
  let ratio := ((pointerVector.1 * resizeVector.1 + pointerVector.2 * resizeVector.2) /
    denominator).max minimumRatio
  let center :=
    (if horizontal.toRat = 0 then initial.center.1 else anchor.1 + resizeVector.1 * ratio * half,
      if vertical.toRat = 0 then initial.center.2 else anchor.2 + resizeVector.2 * ratio * half)
  (center, ratio)

/-- The body of the loop of `resized_item_with_border_snap` over the axes: the best adjustment so
far and its ratio. -/
def borderSnap (ratio minimumRatio : F32) (best : F32 × F32)
    (anchor direction size threshold : F32) : F32 × F32 :=
  if direction.toRat = 0 then best
  else
    let border : F32 := if direction.lt (.ofRat 0) then .ofRat 0 else .ofRat 1
    let movingEdge := anchor + direction * size * ratio
    if threshold.lt (movingEdge - border).abs then best
    else
      let candidate := ((border - anchor) / (direction * size)).max minimumRatio
      let adjustment := (candidate - ratio).abs
      if adjustment.lt best.1 then (adjustment, candidate) else best

/-- `resized_item_with_border_snap`: the new center and the scale. -/
def resizedItemWithBorderSnap (handle : ResizeHandle) (initial : ItemTransform)
    (anchor pointer : Vec2) (minimumRatio : F32) (threshold : Vec2) : Vec2 × F32 :=
  let ratio := (resizedItem handle initial anchor pointer minimumRatio).2
  let (horizontal, vertical) := handle.axes
  let best := borderSnap ratio minimumRatio (.infinite false, ratio) anchor.1 horizontal
    initial.size.1 threshold.1
  let best := borderSnap ratio minimumRatio best anchor.2 vertical initial.size.2 threshold.2
  let snappedRatio := best.2
  resizedItem handle initial anchor
    (anchor.1 + horizontal * initial.size.1 * snappedRatio,
      anchor.2 + vertical * initial.size.2 * snappedRatio) minimumRatio

end Blip.Studio
