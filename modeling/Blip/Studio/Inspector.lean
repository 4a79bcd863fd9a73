import Blip.Studio.Viewer

/-!
# The inspector's fields and the frames they are read from

`set_transform_value` changes the layout of the selected element by the transform that the last composed
frame had it at. A thread of its own composes the frames, from copies of the scene: of the copies, and of
the frames, only the last one is kept until it is taken.

The numbers of a layout are exact here. In the viewer itself (`FrameViewer`) they are `f32`s, and what an
element is rendered at is the compositor's.
-/

namespace Blip.Studio.Exact

structure ItemLayout where
  center : ℚ × ℚ
  size : ℚ × ℚ
  cornerRadiusRatio : ℚ
deriving DecidableEq

structure ItemTransform where
  center : ℚ × ℚ
  size : ℚ × ℚ
  cornerRadius : ℚ
deriving DecidableEq

/-- What an element shows and where: the size of its source's frames and that of the canvas. -/
structure Inspected where
  source : ℚ × ℚ
  canvas : ℕ × ℕ
  source_pos : 0 < source.1 ∧ 0 < source.2
  canvas_pos : 0 < canvas.1 ∧ 0 < canvas.2

/-! ## What is rendered -/

/-- `aspect_fit_size`. -/
def aspectFitSize (maximumSize source canvas : ℚ × ℚ) : ℚ × ℚ :=
  let sourceAspect := source.1 / source.2
  let canvasAspect := canvas.1 / canvas.2
  let boxAspect := maximumSize.1 * canvasAspect / maximumSize.2
  if boxAspect < sourceAspect then
    (maximumSize.1, maximumSize.1 * canvasAspect / sourceAspect)
  else
    (maximumSize.2 * sourceAspect / canvasAspect, maximumSize.2)

/-- `scaled_size`. -/
def scaledSize (size : ℚ × ℚ) (scale : ℚ) : ℚ × ℚ := (size.1 * scale, size.2 * scale)

namespace Inspected

variable (item : Inspected)

/-- The canvas, as the numbers it is computed with. -/
def canvasSize : ℚ × ℚ := (item.canvas.1, item.canvas.2)

/-- The shorter side of a size on the canvas. -/
def shortSide (size : ℚ × ℚ) : ℚ := min (size.1 * item.canvasSize.1) (size.2 * item.canvasSize.2)

/-- `element_transform`. -/
def elementTransform (layout : ItemLayout) : Option ItemTransform :=
  if item.canvas.1 < 2 ^ 32 ∧ item.canvas.2 < 2 ^ 32 then
    let size := aspectFitSize layout.size item.source item.canvasSize
    some {
      center := layout.center
      size
      cornerRadius := item.shortSide size * layout.cornerRadiusRatio }
  else none

/-- The layout that a field gives the element, by the transform it was last rendered at. -/
def editedLayout (adjustment : TransformAdjustment) (value : ℚ) (transform : ItemTransform)
    (layout : ItemLayout) : ItemLayout :=
  match adjustment with
  | .x =>
    { layout with
      center := (value / item.canvasSize.1 + transform.size.1 * 0.5, layout.center.2) }
  | .y =>
    { layout with
      center := (layout.center.1, value / item.canvasSize.2 + transform.size.2 * 0.5) }
  | .width =>
    { layout with
      size := scaledSize layout.size (max value 1 / (transform.size.1 * item.canvasSize.1)) }
  | .height =>
    { layout with
      size := scaledSize layout.size (max value 1 / (transform.size.2 * item.canvasSize.2)) }
  | .cornerRadius =>
    let maximum := item.shortSide transform.size * 0.5
    { layout with
      cornerRadiusRatio := if 0 < maximum then max 0 (min value maximum) / (maximum * 2) else 0 }
  | .colorRed | .colorGreen | .colorBlue => layout

end Inspected

/-! ## The fields and the compositor -/

/-- The layout in the scene, the copy in the render queue and the one the compositor has taken, the frame it
has composed, and the element's transform in the frame that is shown. A frame is without the element when
its source has none. -/
structure Inspector where
  layout : ItemLayout
  pending : Option ItemLayout
  composing : Option ItemLayout
  latest : Option (Option ItemTransform)
  shown : Option ItemTransform

inductive InspectorStep
  | edit (adjustment : TransformAdjustment) (value : ℚ)
  | request
  | take
  | compose (available : Bool)
  | showFrame

/-- The fields are there for an element that is shown. -/
def Inspector.step (item : Inspected) (inspector : Inspector) : InspectorStep → Option Inspector
  | .edit adjustment value =>
    inspector.shown.map fun transform =>
      { inspector with layout := item.editedLayout adjustment value transform inspector.layout }
  | .request => some { inspector with pending := some inspector.layout }
  | .take =>
    inspector.pending.map fun layout =>
      { inspector with
        pending := none
        composing := some layout }
  | .compose available =>
    inspector.composing.map fun layout =>
      { inspector with
        composing := none
        latest :=
          if available then (item.elementTransform layout).map some |>.or inspector.latest
          else some none }
  | .showFrame =>
    inspector.latest.map fun shown =>
      { inspector with
        latest := none
        shown }

/-- An element whose layout has a size, before its first frame. -/
def inspectorSystem (item : Inspected) : System Inspector InspectorStep where
  init := fun inspector =>
    (0 < inspector.layout.size.1 ∧ 0 < inspector.layout.size.2) ∧ inspector.pending = none ∧
      inspector.composing = none ∧ inspector.latest = none ∧ inspector.shown = none
  step := fun inspector label inspector' => inspector.step item label = some inspector'

end Blip.Studio.Exact
