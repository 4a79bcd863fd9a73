import Blip.Studio.Scene
import Blip.Studio.Stage

/-!
# The rows of the scene list

The list has a row for each element, the one in front at the top. A row is dragged by a grip, and while
it is, the pointer's place decides where its element goes. The other rows that change place are drawn
with an offset that falls to zero, so that they slide. Pixels and seconds are exact.
-/

namespace Blip.Studio.Exact

/-- `SCENE_ROW_STRIDE`. -/
def sceneRowStride : ℚ := 36

/-- `SCENE_ROW_ANIMATION_DURATION`, in seconds. -/
def sceneRowAnimationDuration : ℚ := 0.14

/-- The identifiers of a scene's elements, the one behind first. -/
def sceneOrder (scene : Scene) : List ElementId := scene.elements.map SceneElement.id

/-! ## Places -/

/-- `clamped_scene_drag_origin`. -/
def clampedSceneDragOrigin (root : ℚ × ℚ) (bounds : Bounds) : ℚ × ℚ :=
  (bounds.origin.1,
    max bounds.origin.2 (min root.2 (max (bounds.origin.2 + bounds.size.2 - 32) bounds.origin.2)))

/-- `scene_drag_render_index`: the index in the scene of the row under the middle of what is dragged. -/
def sceneDragRenderIndex (pointerY grabOffsetY : ℚ) (bounds : Bounds) : ℕ → Option ℕ
  | 0 => none
  | maximumDisplayIndex + 1 =>
    let root := (bounds.origin.1, pointerY - grabOffsetY)
    let origin := clampedSceneDragOrigin root bounds
    let center := origin.2 + 16
    let displayIndex :=
      -- a center above the list saturates at the first row
      min ⌊(center - bounds.origin.2) / sceneRowStride⌋.toNat maximumDisplayIndex
    some (maximumDisplayIndex - displayIndex)

/-- `scene_item_origin`. -/
def sceneItemOrigin (scene : Scene) (item : ElementId) (bounds : Bounds) : Option (ℚ × ℚ) :=
  (scene.elements.findIdx? (·.id = item)).map fun renderIndex =>
    let displayIndex := scene.elements.length - (renderIndex + 1)
    (bounds.origin.1, bounds.origin.2 + displayIndex * sceneRowStride)

/-- `scene_animation_remaining`. -/
def sceneAnimationRemaining (elapsed : ℚ) : ℚ :=
  (1 - max 0 (min 1 (elapsed / sceneRowAnimationDuration))) ^ 5

/-! ## Offsets -/

/-- A map collected from entries, a later one replacing an earlier one. -/
def collect {κ ν : Type} [DecidableEq κ] (entries : List (κ × ν)) : κ → Option ν :=
  entries.foldl (fun map entry => Function.update map entry.1 (some entry.2)) fun _ => none

/-- `i32::try_from` of an index. -/
def i32OfIndex (index : ℕ) : Option ℤ := if index < 2 ^ 31 then some index else none

/-- The closure of `scene_reorder_offsets`: the entry of an element at its new index. -/
def reorderOffset (previousIndices : ElementId → Option ℕ) (dragged : ElementId)
    (entry : SceneElement × ℕ) : Option (ElementId × ℚ) :=
  if entry.1.id = dragged then none
  else do
    let oldIndex ← previousIndices entry.1.id
    -- a row without an offset does not slide, it jumps
    let newIndex ← i32OfIndex entry.2
    let oldIndex ← i32OfIndex oldIndex
    let displacement := newIndex - oldIndex
    if displacement ≠ 0 then some (entry.1.id, displacement * sceneRowStride) else none

/-- `scene_reorder_offsets`. -/
def sceneReorderOffsets (previousOrder : List ElementId) (scene : Scene) (dragged : ElementId) :
    ElementId → Option ℚ :=
  let previousIndices := collect previousOrder.zipIdx
  collect (scene.elements.zipIdx.filterMap (reorderOffset previousIndices dragged))

/-! ## The list -/

/-- The list, and what is dragged in it. -/
structure SceneRows where
  scene : Scene
  draggingItem : Option ElementId
  grabOffset : Option (ℚ × ℚ)
  itemOffsets : ElementId → Option ℚ
  animationStarted : Option ℚ
  listBounds : Option Bounds
  now : ℚ

inductive SceneRowsStep
  | wait (duration : ℚ)
  | measure (bounds : Bounds)
  | edit (scene : Scene)
  | grab (item : ElementId) (grabOffset : ℚ × ℚ)
  | move (position : ℚ × ℚ)
  | release (mouse : ℚ × ℚ) (row : Option Bounds)

namespace SceneRows

variable (rows : SceneRows)

/-- The elements in their order. -/
def order : List ElementId := sceneOrder rows.scene

/-- `drag_scene_item_over`. -/
def dragSceneItemOver (dragged : ElementId) (position : ℚ × ℚ) : SceneRows :=
  match rows.grabOffset, rows.listBounds with
  | some grabOffset, some bounds =>
    match sceneDragRenderIndex position.2 grabOffset.2 bounds rows.scene.elements.length with
    | none => rows
    | some destination =>
      match rows.scene.moveToIndex dragged destination with
      | none => rows
      | some scene =>
        -- the offsets of rows that are still sliding are dropped
        { rows with
          scene
          itemOffsets := sceneReorderOffsets rows.order scene dragged
          animationStarted := some rows.now }
  | _, _ => rows

/-- How much of the offsets is left. -/
def remaining : ℚ :=
  match rows.animationStarted with
  | none => 0
  | some started => sceneAnimationRemaining (rows.now - started)

/-- `animate_scene_drag_release`; `row` is where the row was drawn last. -/
def animateSceneDragRelease (item : ElementId) (mouse : ℚ × ℚ) (row : Option Bounds) : SceneRows :=
  match rows.grabOffset with
  | none => rows
  | some grabOffset =>
    -- the offset of the grip is gone even where the row is not found
    let taken := { rows with grabOffset := none }
    match rows.listBounds with
    | none => taken
    | some bounds =>
      let root := (mouse.1 - grabOffset.1, mouse.2 - grabOffset.2)
      let releaseOrigin := clampedSceneDragOrigin root bounds
      match (row.map Bounds.origin).or (sceneItemOrigin rows.scene item bounds) with
      | none => taken
      | some finalOrigin =>
        let itemOffsets := fun id =>
          ((rows.itemOffsets id).map (· * rows.remaining)).filter fun offset => 0.1 < |offset|
        let releaseOffset := releaseOrigin.2 - finalOrigin.2
        { taken with
          itemOffsets :=
            if 0.1 < |releaseOffset| then Function.update itemOffsets item (some releaseOffset)
            else itemOffsets
          animationStarted := some rows.now }

/-- How far from its place a row is drawn. -/
def slide (item : ElementId) : ℚ := (rows.itemOffsets item).getD 0 * rows.remaining

/-- Where a row is drawn. -/
def drawnTop (bounds : Bounds) (item : ElementId) : Option ℚ :=
  (sceneItemOrigin rows.scene item bounds).map fun origin => origin.2 + rows.slide item

def step (rows : SceneRows) : SceneRowsStep → Option SceneRows
  | .wait duration => if 0 ≤ duration then some { rows with now := rows.now + duration } else none
  | .measure bounds => some { rows with listBounds := some bounds }
  | .edit scene =>
    if (sceneOrder scene).Nodup then some { rows with scene } else none
  | .grab item grabOffset =>
    some
      { rows with
        draggingItem := some item
        grabOffset := some grabOffset }
  | .move position => rows.draggingItem.map fun item => rows.dragSceneItemOver item position
  | .release mouse row => rows.draggingItem.map fun item =>
    { rows.animateSceneDragRelease item mouse row with draggingItem := none }

end SceneRows

/-- The list from when the application opens: the elements have identifiers of their own. -/
def sceneRowsSystem : System SceneRows SceneRowsStep where
  init rows := rows.order.Nodup ∧ rows.draggingItem = none ∧ rows.grabOffset = none ∧
    rows.itemOffsets = (fun _ => none) ∧ rows.animationStarted = none ∧ rows.listBounds = none
  step rows label rows' := rows.step label = some rows'

end Blip.Studio.Exact
