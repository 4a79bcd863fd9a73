import Blip.Studio.InspectorEdits

/-!
# Dragging an element on the canvas

What the pointer and the arrow keys do to the selected element: which of its handles a press takes, and
the center, size and corner radius that moving the pointer then gives. As in the inspector, the numbers
are exact, and an element is pressed where the frame that is shown has it.
-/

namespace Blip.Studio.Exact

structure Bounds where
  origin : ℚ × ℚ
  size : ℚ × ℚ
deriving DecidableEq

/-- `Bounds::contains`. -/
def Bounds.contains (bounds : Bounds) (point : ℚ × ℚ) : Bool :=
  decide (bounds.origin.1 ≤ point.1) && decide (point.1 < bounds.origin.1 + bounds.size.1) &&
    decide (bounds.origin.2 ≤ point.2) && decide (point.2 < bounds.origin.2 + bounds.size.2)

/-- `Bounds::center`. -/
def Bounds.center (bounds : Bounds) : ℚ × ℚ :=
  (bounds.origin.1 + bounds.size.1 / 2, bounds.origin.2 + bounds.size.2 / 2)

/-! ## The preview -/

/-- The size of a window that has room for the preview between its sidebars. -/
structure Viewport where
  size : ℚ × ℚ
  room : 512 < size.1 ∧ 0 < size.2

/-- `preview_bounds`. -/
def previewBounds (viewport : Viewport) : Bounds where
  origin := (280, 0)
  size := (max (viewport.size.1 - 280 - 232) 0, viewport.size.2)

/-- `ObjectFit::Contain.get_bounds`. -/
def containBounds (bounds : Bounds) (imageSize : ℚ × ℚ) : Bounds :=
  let imageRatio := imageSize.1 / imageSize.2
  let boundsRatio := bounds.size.1 / bounds.size.2
  let newSize :=
    if imageRatio < boundsRatio then
      (imageSize.1 * (bounds.size.2 / imageSize.2), bounds.size.2)
    else (bounds.size.1, imageSize.2 * (bounds.size.1 / imageSize.1))
  { origin := (bounds.origin.1 + (bounds.size.1 - newSize.1) / 2,
      bounds.origin.2 + (bounds.size.2 - newSize.2) / 2)
    size := newSize }

/-- `preview_frame_bounds`. -/
def previewFrameBounds (viewport : Viewport) (dimensions : ℕ × ℕ) : Option Bounds :=
  if dimensions.1 < 2 ^ 31 ∧ dimensions.2 < 2 ^ 31 then
    some (containBounds (previewBounds viewport) (dimensions.1, dimensions.2))
  else none

/-- `transform_bounds`. -/
def transformBounds (frame : Bounds) (transform : ItemTransform) : Bounds :=
  let insetSize := (frame.size.1 * transform.size.1, frame.size.2 * transform.size.2)
  { origin := (frame.origin.1 + frame.size.1 * transform.center.1 - insetSize.1 * 0.5,
      frame.origin.2 + frame.size.2 * transform.center.2 - insetSize.2 * 0.5)
    size := insetSize }

/-- `ItemTransform::clamped_corner_radius`. -/
def ItemTransform.clampedCornerRadius (transform : ItemTransform) (canvasSize : ℚ × ℚ) : ℚ :=
  let width := canvasSize.1 * transform.size.1
  let height := canvasSize.2 * transform.size.2
  max 0 (min transform.cornerRadius (min width height * 0.5))

/-- `item_corner_radius`. -/
def itemCornerRadius (frame : Bounds) (dimensions : ℕ × ℕ) (transform : ItemTransform) : ℚ :=
  let canvasSize : ℚ × ℚ := (dimensions.1, dimensions.2)
  transform.clampedCornerRadius canvasSize * (frame.size.1 / canvasSize.1)

/-! ## Handles -/

/-- `ResizeHandle::axes`. -/
def axes : ResizeHandle → ℚ × ℚ
  | .topLeft => (-1, -1)
  | .top => (0, -1)
  | .topRight => (1, -1)
  | .right => (1, 0)
  | .bottomRight => (1, 1)
  | .bottom => (0, 1)
  | .bottomLeft => (-1, 1)
  | .left => (-1, 0)

/-- `resize_handles`. -/
def resizeHandles (bounds : Bounds) : List (ResizeHandle × (ℚ × ℚ)) :=
  let left := bounds.origin.1
  let top := bounds.origin.2
  let centerX := left + bounds.size.1 * 0.5
  let centerY := top + bounds.size.2 * 0.5
  let right := left + bounds.size.1
  let bottom := top + bounds.size.2
  [(.topLeft, (left, top)), (.top, (centerX, top)), (.topRight, (right, top)),
    (.right, (right, centerY)), (.bottomRight, (right, bottom)), (.bottom, (centerX, bottom)),
    (.bottomLeft, (left, bottom)), (.left, (left, centerY))]

/-- `resize_handle_bounds`. -/
def resizeHandleBounds (center : ℚ × ℚ) : Bounds where
  origin := (center.1 - 10 * 0.5, center.2 - 10 * 0.5)
  size := (10, 10)

/-- `resize_handle_at`. -/
def resizeHandleAt (position : ℚ × ℚ) (bounds : Bounds) : Option ResizeHandle :=
  ((resizeHandles bounds).find? fun handle => (resizeHandleBounds handle.2).contains position).map
    Prod.fst

/-- `corner_radius_handle_bounds`. -/
def cornerRadiusHandleBounds (bounds : Bounds) (radius : ℚ) : Bounds :=
  let maximumInset := min bounds.size.1 bounds.size.2 * 0.5
  let fixedInset := 16
  let inset :=
    -- without room for a drag the handle stays in the middle
    if maximumInset ≤ fixedInset then maximumInset
    else fixedInset + max 0 (min (radius / maximumInset) 1) * (maximumInset - fixedInset)
  resizeHandleBounds (bounds.origin.1 + bounds.size.1 - inset, bounds.origin.2 + inset)

/-- `corner_radius_ratio_from_position`. -/
def cornerRadiusRatioFromPosition (bounds : Bounds) (position : ℚ × ℚ) : ℚ :=
  let maximumInset := min bounds.size.1 bounds.size.2 * 0.5
  let fixedInset := 16
  if maximumInset ≤ fixedInset then 0
  else
    let right := bounds.origin.1 + bounds.size.1
    let pointerInset := ((right - position.1) + (position.2 - bounds.origin.2)) * 0.5
    max 0 (min ((pointerInset - fixedInset) / (maximumInset - fixedInset)) 1) * 0.5

/-! ## Moving -/

/-- The guides that are drawn along the canvas while a drag snaps to it. -/
structure SnapGuides where
  x : Option ℚ
  y : Option ℚ
deriving DecidableEq

/-- `normalized_position_unclamped`, in both directions. -/
def normalizedPositionUnclamped (frame : Bounds) (position : ℚ × ℚ) : ℚ × ℚ :=
  ((position.1 - frame.origin.1) / frame.size.1, (position.2 - frame.origin.2) / frame.size.2)

/-- `normalized_position`, in both directions. -/
def normalizedPosition (frame : Bounds) (position : ℚ × ℚ) : ℚ × ℚ :=
  let unclamped := normalizedPositionUnclamped frame position
  (max 0 (min unclamped.1 1), max 0 (min unclamped.2 1))

/-- `nudged_center`. -/
def nudgedCenter (center delta canvas : ℚ × ℚ) : ℚ × ℚ :=
  (max 0 (min (center.1 + delta.1 / canvas.1) 1), max 0 (min (center.2 + delta.2 / canvas.2) 1))

/-- `normalized_snap_threshold`. -/
def normalizedSnapThreshold (frame : Bounds) : ℚ × ℚ := (8 / frame.size.1, 8 / frame.size.2)

/-- What the loop of `snapped_move_axis` has found: the adjustment that is the smallest so far, with the
center and the guide that it gives. -/
structure Snap where
  adjustment : Option ℚ
  snapped : ℚ
  guide : Option ℚ

/-- The body of the loop, for a place of the element and where it snaps to. -/
def Snap.try (center threshold : ℚ) (best : Snap) (place : ℚ × ℚ) : Snap :=
  let adjustment := place.2 - place.1
  if |adjustment| ≤ threshold ∧ best.adjustment.all
    (fun smallest => decide (|adjustment| < smallest)) then
    { adjustment := some |adjustment|
      snapped := center + adjustment
      guide := some place.2 }
  else best

/-- `snapped_move_axis`. -/
def snappedMoveAxis (center size threshold : ℚ) : ℚ × Option ℚ :=
  let halfSize := size * 0.5
  let best := [(center - halfSize, 0), (center, 0.5), (center + halfSize, 1)].foldl
    (Snap.try center threshold)
    { adjustment := none
      snapped := center
      guide := none }
  (best.snapped, best.guide)

/-- `snapped_move_center`. -/
def snappedMoveCenter (center size threshold : ℚ × ℚ) : (ℚ × ℚ) × SnapGuides :=
  let x := snappedMoveAxis center.1 size.1 threshold.1
  let y := snappedMoveAxis center.2 size.2 threshold.2
  ((x.1, y.1), ⟨x.2, y.2⟩)

/-! ## Resizing -/

/-- `minimum_resize_ratio`. -/
def minimumResizeRatio (size : ℚ × ℚ) : ℚ := 0.05 / max size.1 size.2

/-- `resized_item`. -/
def resizedItem (handle : ResizeHandle) (initial : ItemTransform) (anchor pointer : ℚ × ℚ)
    (minimumRatio : ℚ) : (ℚ × ℚ) × ℚ :=
  let (horizontal, vertical) := axes handle
  let resizeVector := (horizontal * initial.size.1, vertical * initial.size.2)
  let pointerVector := (pointer.1 - anchor.1, pointer.2 - anchor.2)
  let denominator := resizeVector.1 * resizeVector.1 + resizeVector.2 * resizeVector.2
  let ratio := max ((pointerVector.1 * resizeVector.1 + pointerVector.2 * resizeVector.2) / denominator)
    minimumRatio
  let center :=
    (if horizontal = 0 then initial.center.1 else anchor.1 + resizeVector.1 * ratio * 0.5,
      if vertical = 0 then initial.center.2 else anchor.2 + resizeVector.2 * ratio * 0.5)
  (center, ratio)

/-- What the loop of `resized_item_with_border_snap` has found: the ratio that is the nearest to the
pointer's so far, with its guides. -/
structure BorderSnap where
  adjustment : Option ℚ
  ratio : ℚ
  guides : SnapGuides

/-- The body of the loop, for an axis with the guides of its border. -/
def BorderSnap.try (ratio minimumRatio anchor direction size threshold : ℚ) (guides : ℚ → SnapGuides)
    (best : BorderSnap) : BorderSnap :=
  if direction = 0 then best
  else
    -- the border is the one the handle's edge moves toward, not the one that is nearest
    let border := if direction < 0 then 0 else 1
    let movingEdge := anchor + direction * size * ratio
    if threshold < |movingEdge - border| then best
    else
      -- the guide is kept even when the smallest ratio wins over the one of the border
      let candidate := max ((border - anchor) / (direction * size)) minimumRatio
      let adjustment := |candidate - ratio|
      if best.adjustment.all fun smallest => decide (adjustment < smallest) then
        { adjustment := some adjustment
          ratio := candidate
          guides := guides border }
      else best

/-- `resized_item_with_border_snap`. -/
def resizedItemWithBorderSnap (handle : ResizeHandle) (initial : ItemTransform)
    (anchor pointer : ℚ × ℚ) (minimumRatio : ℚ) (threshold : ℚ × ℚ) : (ℚ × ℚ) × ℚ × SnapGuides :=
  let (_, ratio) := resizedItem handle initial anchor pointer minimumRatio
  let (horizontal, vertical) := axes handle
  let best : BorderSnap :=
    { adjustment := none
      ratio
      guides := ⟨none, none⟩ }
  let best := best.try ratio minimumRatio anchor.1 horizontal initial.size.1 threshold.1
    fun border => ⟨some border, none⟩
  let best := best.try ratio minimumRatio anchor.2 vertical initial.size.2 threshold.2
    fun border => ⟨none, some border⟩
  -- the pointer is replaced by the point at the ratio that was found
  let (center, ratio) := resizedItem handle initial anchor
    (anchor.1 + horizontal * initial.size.1 * best.ratio,
      anchor.2 + vertical * initial.size.2 * best.ratio) minimumRatio
  (center, ratio, best.guides)

/-! ## The element and its drag -/

inductive DragOperation
  | move (offset : ℚ × ℚ)
  | resize (handle : ResizeHandle) (initialTransform : ItemTransform) (initialSize anchor : ℚ × ℚ)
  | cornerRadius (bounds : Bounds)

/-- `resize_operation`. -/
def resizeOperation (handle : ResizeHandle) (transform : ItemTransform) (initialSize : ℚ × ℚ) :
    DragOperation :=
  .resize handle transform initialSize
    (transform.center.1 - (axes handle).1 * transform.size.1 * 0.5,
      transform.center.2 - (axes handle).2 * transform.size.2 * 0.5)

/-- An element of the scene beside the viewer's fields: the size of the frames that are shown, whether
the element is the selected one, and the drag of it. -/
structure Stage extends Inspector where
  contentDimensions : Option (ℕ × ℕ)
  selected : Bool
  dragOperation : Option DragOperation
  snapGuides : SnapGuides

/-- The arrow keys. -/
inductive Arrow
  | moveLeft
  | moveRight
  | moveUp
  | moveDown
deriving DecidableEq

/-- The delta that a key hands `move_selected`. -/
def Arrow.delta : Arrow → ℚ × ℚ
  | moveLeft => (-1, 0)
  | moveRight => (1, 0)
  | moveUp => (0, -1)
  | moveDown => (0, 1)

inductive StageStep
  | inspect (step : InspectorStep)
  | select (selected : Bool)
  | press (viewport : Viewport) (position : ℚ × ℚ) (covered : Bool)
  | drag (viewport : Viewport) (position : ℚ × ℚ)
  | release
  | nudge (key : Arrow)

namespace Stage

def noGuides : SnapGuides := ⟨none, none⟩

/-- The end of `begin_drag`, where no handle is taken: the element in front is selected and moved. -/
def pressElement (stage : Stage) (frame : Bounds) (position : ℚ × ℚ) (covered : Bool) : Stage :=
  let pressed := stage.shown.filter fun transform =>
    !covered && (transformBounds frame transform).contains position
  -- the press is clamped to the canvas here, and the moves of the drag are not
  let normalized := normalizedPosition frame position
  { stage with
    selected := pressed.isSome
    dragOperation := pressed.map fun transform =>
      .move (normalized.1 - transform.center.1, normalized.2 - transform.center.2) }

/-- `begin_drag`, of a press that an element in front may cover. -/
def beginDrag (stage : Stage) (viewport : Viewport) (position : ℚ × ℚ) (covered : Bool) : Stage :=
  let stage := { stage with snapGuides := noGuides }
  match stage.contentDimensions with
  | none => stage
  | some dimensions =>
    match previewFrameBounds viewport dimensions with
    | none => stage
    | some frame =>
      if stage.selected then
        match stage.shown with
        | none => stage
        | some transform =>
          let bounds := transformBounds frame transform
          let radius := itemCornerRadius frame dimensions transform
          if (cornerRadiusHandleBounds bounds radius).contains position then
            { stage with dragOperation := some (.cornerRadius bounds) }
          else
            match resizeHandleAt position bounds with
            | some handle =>
              { stage with
                dragOperation := some (resizeOperation handle transform stage.layout.size) }
            | none => stage.pressElement frame position covered
      else stage.pressElement frame position covered

variable (threshold : Bounds → ℚ × ℚ)

/-- `reposition_item`. -/
def repositionItem (stage : Stage) (offset : ℚ × ℚ) (viewport : Viewport) (position : ℚ × ℚ) : Stage :=
  match stage.contentDimensions.bind (previewFrameBounds viewport), stage.shown with
  | some frame, some transform =>
    let normalized := normalizedPositionUnclamped frame position
    let snapped := snappedMoveCenter (normalized.1 - offset.1, normalized.2 - offset.2)
      transform.size (threshold frame)
    { stage with
      snapGuides := snapped.2
      layout := { stage.layout with center := snapped.1 } }
  | _, _ => stage

/-- `resize_item`. -/
def resizeItem (stage : Stage) (handle : ResizeHandle) (initialTransform : ItemTransform)
    (initialSize anchor : ℚ × ℚ) (viewport : Viewport) (position : ℚ × ℚ) : Stage :=
  match stage.contentDimensions.bind (previewFrameBounds viewport) with
  | some frame =>
    let resized := resizedItemWithBorderSnap handle initialTransform anchor
      (normalizedPositionUnclamped frame position) (minimumResizeRatio initialSize) (threshold frame)
    { stage with
      snapGuides := resized.2.2
      layout := { stage.layout with
        center := resized.1
        size := scaledSize initialSize resized.2.1 } }
  | none => stage

/-- `adjust_corner_radius`. -/
def adjustCornerRadius (stage : Stage) (bounds : Bounds) (position : ℚ × ℚ) : Stage :=
  { stage with
    layout := { stage.layout with
      cornerRadiusRatio := cornerRadiusRatioFromPosition bounds position } }

/-- `drag_inset`. -/
def dragInset (stage : Stage) (viewport : Viewport) (position : ℚ × ℚ) : Stage :=
  match stage.dragOperation with
  | some (.move offset) => stage.repositionItem threshold offset viewport position
  | some (.resize handle initialTransform initialSize anchor) =>
    stage.resizeItem threshold handle initialTransform initialSize anchor viewport position
  | some (.cornerRadius bounds) => stage.adjustCornerRadius bounds position
  | none => stage

/-- `end_drag`. -/
def endDrag (stage : Stage) : Stage :=
  { stage with
    dragOperation := none
    snapGuides := noGuides }

/-- `move_selected`. -/
def moveSelected (stage : Stage) (delta : ℚ × ℚ) : Stage :=
  let (width, height) := stage.contentDimensions.getD (1920, 1080)
  if width < 2 ^ 32 ∧ height < 2 ^ 32 then
    { stage with
      layout := { stage.layout with
        center := nudgedCenter stage.layout.center delta (width, height) } }
  else stage

/-- The fields of the inspector are those of the element that is selected. -/
def offers (stage : Stage) : InspectorStep → Bool
  | .edit .. => stage.selected
  | .request | .take | .compose _ | .showFrame => true

/-- `show_frame` keeps the dimensions of the frame beside it. -/
def shownDimensions (item : Inspected) (stage : Stage) : InspectorStep → Option (ℕ × ℕ)
  | .showFrame => some item.canvas
  | .edit .. | .request | .take | .compose _ => stage.contentDimensions

def step (item : Inspected) (stage : Stage) : StageStep → Option Stage
  | .inspect step =>
    if stage.offers step then
      (stage.toInspector.step item step).map fun inspector =>
        { stage with
          toInspector := inspector
          contentDimensions := stage.shownDimensions item step }
    else none
  | .select selected => some { stage with selected }
  | .press viewport position covered => some (stage.beginDrag viewport position covered)
  | .drag viewport position => some (stage.dragInset threshold viewport position)
  | .release => some stage.endDrag
  | .nudge key => if stage.selected then some (stage.moveSelected key.delta) else none

end Stage

/-- An element that is about to be shown, with the distance from which a drag snaps to the canvas. -/
def stageSystem (item : Inspected) (threshold : Bounds → ℚ × ℚ) : System Stage StageStep where
  init := fun stage =>
    (inspectorSystem item).init stage.toInspector ∧ stage.contentDimensions = none ∧
      stage.dragOperation = none ∧ stage.snapGuides = Stage.noGuides
  step := fun stage label stage' => stage.step threshold item label = some stage'

variable {item : Inspected} {threshold : Bounds → ℚ × ℚ} {stage stage' : Stage} {label : StageStep}

/-! ## A drag that is held -/

/-- The button is neither pressed nor let go. -/
def StageStep.Held : StageStep → Prop
  | .press .. | .release => False
  | .inspect _ | .select _ | .drag .. | .nudge _ => True

theorem dragInset_dragOperation (viewport : Viewport) (position : ℚ × ℚ) :
    (stage.dragInset threshold viewport position).dragOperation = stage.dragOperation := by
  rw [Stage.dragInset]
  cases hoperation : stage.dragOperation with
  | none => exact hoperation
  | some operation =>
    cases operation with
    | move offset =>
      dsimp only
      rw [Stage.repositionItem]
      split
      · exact hoperation
      · exact hoperation
    | resize handle initialTransform initialSize anchor =>
      dsimp only
      rw [Stage.resizeItem]
      split
      · exact hoperation
      · exact hoperation
    | cornerRadius bounds => exact hoperation

theorem moveSelected_dragOperation (delta : ℚ × ℚ) :
    (stage.moveSelected delta).dragOperation = stage.dragOperation := by
  rw [Stage.moveSelected]
  dsimp only
  split
  · rfl
  · rfl

/-- What the inspector and its frames do to the element: its drag stays. -/
theorem step_inspect {step : InspectorStep} (h : stage.step threshold item (.inspect step) =
    some stage') :
    stage.toInspector.step item step = some stage'.toInspector ∧
      stage' =
        { stage with
          toInspector := stage'.toInspector
          contentDimensions := stage.shownDimensions item step } := by
  obtain ⟨-, h⟩ := Option.ite_none_right_eq_some.mp h
  obtain ⟨inspector, hstep, rfl⟩ := Option.map_eq_some_iff.mp h
  exact ⟨hstep, rfl⟩

theorem Held.step (hlabel : label.Held) (h : (stageSystem item threshold).step stage label stage') :
    stage'.dragOperation = stage.dragOperation := by
  cases label with
  | inspect step =>
    obtain ⟨-, hstage⟩ := step_inspect h
    rw [hstage]
  | select selected =>
    obtain rfl := Option.some.inj h
    rfl
  | press viewport position covered => exact hlabel.elim
  | drag viewport position =>
    obtain rfl := Option.some.inj h
    exact dragInset_dragOperation viewport position
  | release => exact hlabel.elim
  | nudge key =>
    obtain ⟨-, h⟩ := Option.ite_none_right_eq_some.mp h
    obtain rfl := Option.some.inj h
    exact moveSelected_dragOperation key.delta

/-- While a drag is held it is the one that the press began. -/
theorem Held.run {labels : List StageStep} (hlabels : ∀ label ∈ labels, label.Held)
    (hrun : (stageSystem item threshold).Run stage labels stage') :
    stage'.dragOperation = stage.dragOperation := by
  induction hrun with
  | nil => rfl
  | cons hstep _ ih =>
    rw [ih fun label hmem => hlabels label (.tail _ hmem), Held.step (hlabels _ (.head _)) hstep]

end Blip.Studio.Exact
