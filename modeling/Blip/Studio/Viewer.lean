import Blip.Studio.Canvas
import Blip.Common.Rounding
import Blip.Common.System

/-!
# The studio's viewer

`FrameViewer` and the methods that its window and its background work call, and with it what they
change outside: the saved project, the frames on their way through the compositor, the capturers
that are running, and the callbacks still to be delivered.
-/

namespace Blip.Studio

/-- What can be captured. -/
inductive CaptureTarget
  | display (id : ℕ)
  | window (id : ℕ)
  | camera (id : ℕ)
deriving DecidableEq, Repr

/-- `CaptureTarget::id`. -/
def CaptureTarget.id : CaptureTarget → SourceId
  | display id => .display id
  | window id => .window id
  | camera id => .camera id

/-- `CaptureResource`: a running capturer, and the generation its callbacks carry. -/
structure CaptureResource where
  capturer : ℕ
  generation : ℕ
deriving DecidableEq

inductive TransformAdjustment
  | x
  | y
  | width
  | height
  | cornerRadius
  | colorRed
  | colorGreen
  | colorBlue
deriving DecidableEq, Repr

inductive DragOperation
  | move (item : ElementId) (offset : Vec2)
  | resize (item : ElementId) (handle : ResizeHandle) (initialTransform : ItemTransform)
      (initialSize anchor : Vec2)
  | cornerRadius (item : ElementId) (bounds : Bounds)

structure FrameViewer where
  contentDimensions : Option (ℕ × ℕ)
  scene : Scene
  renderedElements : List RenderedElement
  selectedItem : Option ElementId
  dragOperation : Option DragOperation
  focusedTransformInputs : Finset TransformAdjustment
  sceneDraggingItem : Option ElementId
  sceneDragGrabbed : Bool
  targets : List CaptureTarget
  captures : SourceId → Option CaptureResource
  pendingCaptures : SourceId → Option ℕ
  failedCaptures : Finset SourceId
  nextCaptureGeneration : ℕ
  colors : Colors
  nextColorSourceId : ℕ
  streamUrlFocused : Bool

/-- A report of a capturer that it stopped, with the generation it was started with. -/
structure ErrorEvent where
  source : SourceId
  generation : ℕ
  capturer : ℕ
deriving DecidableEq

/-- A camera that is being started. `deleted` tells whether its source has been out of the scene
since. -/
structure CameraStart where
  source : SourceId
  generation : ℕ
  deleted : Bool
deriving DecidableEq

/-- The viewer, and what its methods change outside: capturers are numbered as they are built. -/
structure Viewer extends FrameViewer where
  saved : Option Project
  requested : Option (List SceneElement)
  composed : Option (List RenderedElement)
  openCapturers : Finset ℕ
  nextCapturer : ℕ
  errors : List ErrorEvent
  starts : List CameraStart
  /-- Sources in use whose capture failed and was not started again. -/
  lost : Finset SourceId

/-- How building and starting a capturer ends; one that fails may have reported that it stopped. -/
inductive StartOutcome
  | started
  | failed (reported : Bool)
deriving DecidableEq, Repr

/-- `DEFAULT_CANVAS_DIMENSIONS`. -/
def defaultCanvasDimensions : ℕ × ℕ := (1920, 1080)

def shouldRestartCapture (sourceInUse : Bool) (currentGeneration : Option ℕ)
    (failedGeneration : ℕ) : Bool :=
  sourceInUse && currentGeneration = some failedGeneration

def shouldFinishPendingCapture (pendingGeneration : Option ℕ) (completedGeneration : ℕ)
    (sourceInUse : Bool) : Bool :=
  sourceInUse && pendingGeneration = some completedGeneration

namespace Viewer

/-- `save_project`. -/
def saveProject (viewer : Viewer) : Viewer :=
  { viewer with
    saved := some (projectSnapshot viewer.scene viewer.colors viewer.selectedItem) }

def rendersItem (viewer : Viewer) (item : ElementId) : Option ItemTransform :=
  (viewer.renderedElements.find? (·.id = item)).map RenderedElement.transform

/-! ## Scene rows -/

/-- `select_scene_item`. -/
def selectSceneItem (item : ElementId) (viewer : Viewer) : Viewer :=
  saveProject { viewer with selectedItem := some item }

/-- The start of a drag of a scene row. -/
def startSceneDrag (item : ElementId) (viewer : Viewer) : Viewer :=
  { viewer with
    sceneDraggingItem := some item
    sceneDragGrabbed := true
    selectedItem := some item }

/-- `drag_scene_item_over`, over the row that `scene_drag_render_index` finds. -/
def dragSceneItemOver (dragged : ElementId) (destination : Option ℕ) (viewer : Viewer) : Viewer :=
  if viewer.sceneDragGrabbed then
    match destination.bind (viewer.scene.moveToIndex dragged) with
    | none => viewer
    | some scene => saveProject { viewer with scene }
  else viewer

/-- `drop_scene_item`. -/
def dropSceneItem (item : ElementId) (viewer : Viewer) : Viewer :=
  saveProject
    { viewer with
      sceneDragGrabbed := false
      sceneDraggingItem := none
      selectedItem := some item }

/-! ## Captures -/

/-- Building and starting a capturer for a source that has none. -/
def startCapture (source : SourceId) (generation : ℕ) (outcome : StartOutcome) (viewer : Viewer) :
    Viewer :=
  match outcome with
  | .started =>
    { viewer with
      captures := Function.update viewer.captures source (some ⟨viewer.nextCapturer, generation⟩)
      openCapturers := insert viewer.nextCapturer viewer.openCapturers
      nextCapturer := viewer.nextCapturer + 1 }
  | .failed reported =>
    { viewer with
      nextCapturer := viewer.nextCapturer + 1
      errors := if reported then viewer.errors ++ [⟨source, generation, viewer.nextCapturer⟩]
        else viewer.errors }

/-- The part of adding and replacing that makes sure of a capture: the new state, if there is one. -/
def ensureCapture (source : SourceId) (outcome : StartOutcome) (viewer : Viewer) :
    Bool × Viewer :=
  if (viewer.captures source).isSome then (true, viewer)
  else (outcome = .started, viewer.startCapture source 1 outcome)

/-- Stopping the capture of a source, or what was left of starting it. -/
def releaseCapture (source : SourceId) (viewer : Viewer) : Viewer :=
  { viewer with
    pendingCaptures := Function.update viewer.pendingCaptures source none
    failedCaptures := viewer.failedCaptures.erase source
    captures := Function.update viewer.captures source none
    openCapturers := match viewer.captures source with
      | some resource => viewer.openCapturers.erase resource.capturer
      | none => viewer.openCapturers }

/-- `delete_selected`. -/
def deleteSelected (viewer : Viewer) : Viewer :=
  if viewer.streamUrlFocused || viewer.focusedTransformInputs ≠ ∅ then viewer
  else
    match viewer.selectedItem with
    | none => viewer
    | some selected =>
      match viewer.scene.remove selected with
      | (none, _) => { viewer with selectedItem := none }
      | (some removed, scene) =>
        let viewer := { viewer with selectedItem := none, scene }
        let viewer :=
          if scene.usesSource removed.source then viewer
          else match removed.source with
            | .color _ =>
              { viewer with colors := Function.update viewer.colors removed.source none }
            | _ => viewer.releaseCapture removed.source
        saveProject
          { viewer with
            renderedElements := viewer.renderedElements.filter (·.id ≠ selected)
            dragOperation := none }

/-- Adding an element that shows a source, and selecting it. -/
def addElement (source : SourceId) (layout : ItemLayout) (viewer : Viewer) : Viewer :=
  let added := viewer.scene.add source layout
  { viewer with
    scene := added.2
    selectedItem := some added.1 }

/-- `add_camera_target`. -/
def addCameraTarget (source : SourceId) (viewer : Viewer) : Viewer :=
  let viewer := saveProject (viewer.addElement source insetLayout)
  if (viewer.captures source).isSome || (viewer.pendingCaptures source).isSome then viewer
  else
    { viewer with
      nextCaptureGeneration := saturatingSucc viewer.nextCaptureGeneration
      pendingCaptures :=
        Function.update viewer.pendingCaptures source (some viewer.nextCaptureGeneration)
      failedCaptures := viewer.failedCaptures.erase source
      starts := viewer.starts ++ [⟨source, viewer.nextCaptureGeneration, false⟩] }

/-- `add_capture_target`. -/
def addCaptureTarget (targetIndex : ℕ) (outcome : StartOutcome) (viewer : Viewer) : Viewer :=
  match viewer.targets[targetIndex]? with
  | none => viewer
  | some (.camera id) => viewer.addCameraTarget (.camera id)
  | some target =>
    match viewer.ensureCapture target.id outcome with
    | (false, viewer) => viewer
    | (true, viewer) => saveProject (viewer.addElement target.id insetLayout)

/-- `replace_selected_capture`. -/
def replaceSelectedCapture (targetIndex : ℕ) (outcome : StartOutcome) (viewer : Viewer) : Viewer :=
  match viewer.selectedItem, viewer.targets[targetIndex]? with
  | some item, some target =>
    match target with
    | .camera _ => viewer
    | target =>
      match viewer.scene.element item with
      | none => viewer
      | some element =>
        if target.id = element.source then viewer
        else match viewer.ensureCapture target.id outcome with
          | (false, viewer) => viewer
          | (true, viewer) =>
            let viewer := { viewer with scene := viewer.scene.replaceSource item target.id }
            let viewer :=
              if viewer.scene.usesSource element.source then viewer
              else viewer.releaseCapture element.source
            saveProject viewer
  | _, _ => viewer

/-- `camera_started`, with the running capturer if the camera started. -/
def cameraStarted (source : SourceId) (generation : ℕ) (result : Option ℕ) (viewer : Viewer) :
    Viewer :=
  if shouldFinishPendingCapture (viewer.pendingCaptures source) generation
      (viewer.scene.usesSource source) then
    let viewer :=
      { viewer with pendingCaptures := Function.update viewer.pendingCaptures source none }
    match result with
    | some capturer =>
      { viewer with
        captures := Function.update viewer.captures source (some ⟨capturer, generation⟩)
        failedCaptures := viewer.failedCaptures.erase source }
    | none => { viewer with failedCaptures := insert source viewer.failedCaptures }
  else
    match result with
    | some capturer => { viewer with openCapturers := viewer.openCapturers.erase capturer }
    | none => viewer

/-- `add_color_source`. -/
def addColorSource (viewer : Viewer) : Viewer :=
  let source := SourceId.color viewer.nextColorSourceId
  let viewer :=
    { viewer with
      nextColorSourceId := saturatingSucc viewer.nextColorSourceId
      colors := Function.update viewer.colors source (some (88, 101, 242)) }
  saveProject (viewer.addElement source fullCanvasLayout)

/-- Changing the color that the selected element shows, where it shows one. -/
def changeSelectedColor (change : Rgb → Rgb) (viewer : Viewer) : Viewer :=
  match viewer.selectedItem.bind viewer.scene.element with
  | none => viewer
  | some element =>
    match viewer.colors element.source with
    | none => viewer
    | some color =>
      saveProject
        { viewer with colors := Function.update viewer.colors element.source (some (change color)) }

/-- `set_selected_color`. -/
def setSelectedColor (color : Rgb) (viewer : Viewer) : Viewer :=
  viewer.changeSelectedColor fun _ => color

/-- `capture_failed`. -/
def captureFailed (source : SourceId) (generation : ℕ) (outcome : StartOutcome)
    (viewer : Viewer) : Viewer :=
  match viewer.captures source with
  | none => viewer
  | some resource =>
    if shouldRestartCapture (viewer.scene.usesSource source) (some resource.generation)
        generation then
      let viewer :=
        { viewer with
          captures := Function.update viewer.captures source none
          openCapturers := viewer.openCapturers.erase resource.capturer }
      if viewer.targets.any (·.id = source) then
        viewer.startCapture source (saturatingSucc generation) outcome
      else viewer
    else viewer

/-! ## The canvas -/

/-- `show_frame`. -/
def showFrame (elements : List RenderedElement) (viewer : Viewer) : Viewer :=
  { viewer with
    contentDimensions := some defaultCanvasDimensions
    renderedElements := elements }

/-- Changing the layout of an element of the scene, where it has it. -/
def changeLayout (item : ElementId) (change : ItemLayout → ItemLayout) (viewer : Viewer) : Viewer :=
  { viewer with
    scene := viewer.scene.modifyElement item fun element =>
      { element with layout := change element.layout } }

/-- `move_selected`. -/
def moveSelected (delta : Vec2) (viewer : Viewer) : Viewer :=
  if viewer.streamUrlFocused || viewer.focusedTransformInputs ≠ ∅ then viewer
  else
    match viewer.selectedItem with
    | none => viewer
    | some selected =>
      let (width, height) := viewer.contentDimensions.getD defaultCanvasDimensions
      if width < 2 ^ 32 ∧ height < 2 ^ 32 then
        match viewer.scene.element selected with
        | none => viewer
        | some _ =>
          saveProject (viewer.changeLayout selected fun layout =>
            { layout with
              center := nudgedCenter layout.center delta (ofCount width, ofCount height) })
      else viewer

/-- `begin_drag`, in a window of a size. -/
def beginDrag (viewport : Vec2) (position : Point) (viewer : Viewer) : Viewer :=
  match viewer.contentDimensions with
  | none => viewer
  | some dimensions =>
    match previewFrameBounds viewport dimensions with
    | none => viewer
    | some frame =>
      let press (viewer : Viewer) : Viewer :=
        let selectedItem := (viewer.renderedElements.reverse.find? fun element =>
          (transformBounds frame element.transform).contains position).map RenderedElement.id
        { viewer with
          selectedItem
          dragOperation := selectedItem.map fun item =>
            let center := ((viewer.rendersItem item).map ItemTransform.center).getD (half, half)
            .move item
              (normalizedPosition position.x frame.origin.x frame.size.1 - center.1,
                normalizedPosition position.y frame.origin.y frame.size.2 - center.2) }
      match viewer.selectedItem with
      | none => press viewer
      | some item =>
        match viewer.rendersItem item with
        | none => viewer
        | some transform =>
          let bounds := transformBounds frame transform
          let radius := itemCornerRadius frame dimensions transform
          if (cornerRadiusHandleBounds bounds radius).contains position then
            { viewer with dragOperation := some (.cornerRadius item bounds) }
          else
            match resizeHandleAt position bounds with
            | none => press viewer
            | some handle =>
              match viewer.scene.element item with
              | none => viewer
              | some element =>
                let (horizontal, vertical) := handle.axes
                { viewer with
                  dragOperation := some (.resize item handle transform element.layout.size
                    (transform.center.1 - horizontal * transform.size.1 * half,
                      transform.center.2 - vertical * transform.size.2 * half)) }

/-- The layout that dragging gives an element, where it gives one. -/
def draggedLayout (viewer : Viewer) (viewport : Vec2) (position : Point) :
    DragOperation → Option (ElementId × (ItemLayout → ItemLayout))
  | .move item offset => do
    let dimensions ← viewer.contentDimensions
    let frame ← previewFrameBounds viewport dimensions
    let transform ← viewer.rendersItem item
    let center :=
      (normalizedPositionUnclamped position.x frame.origin.x frame.size.1 - offset.1,
        normalizedPositionUnclamped position.y frame.origin.y frame.size.2 - offset.2)
    return (item, fun layout =>
      { layout with
        center := snappedMoveCenter center transform.size (normalizedSnapThreshold frame) })
  | .resize item handle initialTransform initialSize anchor => do
    let dimensions ← viewer.contentDimensions
    let frame ← previewFrameBounds viewport dimensions
    let pointer :=
      (normalizedPositionUnclamped position.x frame.origin.x frame.size.1,
        normalizedPositionUnclamped position.y frame.origin.y frame.size.2)
    let resized := resizedItemWithBorderSnap handle initialTransform anchor pointer
      (minimumResizeRatio initialSize) (normalizedSnapThreshold frame)
    return (item, fun layout =>
      { layout with
        center := resized.1
        size := scaledSize initialSize resized.2 })
  | .cornerRadius item bounds =>
    some (item, fun layout =>
      { layout with cornerRadiusRatio := cornerRadiusRatioFromPosition bounds position })

/-- `drag_inset`. -/
def dragInset (viewport : Vec2) (position : Point) (viewer : Viewer) : Viewer :=
  match viewer.dragOperation.bind (viewer.draggedLayout viewport position) with
  | none => viewer
  | some (item, change) => viewer.changeLayout item change

/-- `end_drag`. -/
def endDrag (viewer : Viewer) : Viewer :=
  let projectChanged := viewer.dragOperation.isSome || viewer.sceneDraggingItem.isSome
  let viewer :=
    { viewer with
      dragOperation := none
      sceneDragGrabbed := viewer.sceneDragGrabbed && viewer.sceneDraggingItem.isNone
      sceneDraggingItem := none }
  if projectChanged then viewer.saveProject else viewer

/-! ## The inspector -/

/-- `value.round().clamp(0.0, 255.0) as u8`. -/
def colorChannel : F32 → Fin 256
  | .nan | .infinite true => 0
  | .infinite false => 255
  | value@(.finite _ _) => Fin.ofNat 256 (min (f64Round value.toRat).toNat 255)

/-- The layout that an inspector field gives an element rendered with a transform. -/
def editedLayout (adjustment : TransformAdjustment) (value : F32) (canvas : Vec2)
    (transform : ItemTransform) (layout : ItemLayout) : ItemLayout :=
  match adjustment with
  | .x => { layout with center.1 := value / canvas.1 + transform.size.1 * half }
  | .y => { layout with center.2 := value / canvas.2 + transform.size.2 * half }
  | .width =>
    { layout with
      size := scaledSize layout.size (value.max (.ofRat 1) / (transform.size.1 * canvas.1)) }
  | .height =>
    { layout with
      size := scaledSize layout.size (value.max (.ofRat 1) / (transform.size.2 * canvas.2)) }
  | .cornerRadius =>
    let maximum := (transform.size.1 * canvas.1).min (transform.size.2 * canvas.2) * half
    { layout with
      cornerRadiusRatio :=
        if (F32.ofRat 0).lt maximum then
          value.clamp (.ofRat 0) maximum / (maximum * .ofRat 2)
        else .ofRat 0 }
  | .colorRed | .colorGreen | .colorBlue => layout

/-- `set_transform_value`. -/
def setTransformValue (adjustment : TransformAdjustment) (value : F32) (viewer : Viewer) : Viewer :=
  match adjustment with
  | .colorRed => viewer.changeSelectedColor fun color => (colorChannel value, color.2)
  | .colorGreen => viewer.changeSelectedColor fun color => (color.1, colorChannel value, color.2.2)
  | .colorBlue => viewer.changeSelectedColor fun color => (color.1, color.2.1, colorChannel value)
  | adjustment =>
    match viewer.selectedItem, viewer.contentDimensions with
    | some item, some (width, height) =>
      match viewer.rendersItem item, viewer.scene.element item with
      | some transform, some _ =>
        saveProject (viewer.changeLayout item
          (editedLayout adjustment value (ofCount width, ofCount height) transform))
      | _, _ => viewer
    | _, _ => viewer

/-! ## Launch -/

/-- The loop of `view` over the targets that starts the captures of the initial target and of the
sources in use: `starts` tells which capturers can be built and started. -/
def launchCaptures (initialSource : SourceId) (starts : SourceId → Bool) (viewer : Viewer) :
    List CaptureTarget → Viewer
  | [] => viewer
  | target :: targets =>
    let source := target.id
    if (viewer.captures source).isSome ||
        (source ≠ initialSource && !viewer.scene.usesSource source) || !starts source then
      launchCaptures initialSource starts viewer targets
    else
      launchCaptures initialSource starts
        { viewer.startCapture source viewer.nextCaptureGeneration .started with
          nextCaptureGeneration := saturatingSucc viewer.nextCaptureGeneration } targets

/-- The scene that `view` begins with: that of the project loaded, or the initial target twice. -/
def launchScene (initialSource : SourceId) : Option Project → Restored
  | some project => restoreProject project
  | none =>
    let scene := (Scene.new.add initialSource fullCanvasLayout).2
    let selected := scene.add initialSource insetLayout
    ⟨selected.2, fun _ => none, some selected.1, 1⟩

/-- The viewer that `view` begins with, before it starts captures. -/
def beforeCaptures (targets : List CaptureTarget) (restored : Restored) : Viewer where
  contentDimensions := none
  scene := restored.scene
  renderedElements := []
  selectedItem := restored.selectedItem
  dragOperation := none
  focusedTransformInputs := ∅
  sceneDraggingItem := none
  sceneDragGrabbed := false
  targets := targets
  captures := fun _ => none
  pendingCaptures := fun _ => none
  failedCaptures := ∅
  nextCaptureGeneration := 1
  colors := restored.colors
  nextColorSourceId := restored.nextColorSourceId
  streamUrlFocused := false
  saved := none
  requested := none
  composed := none
  openCapturers := ∅
  nextCapturer := 0
  errors := []
  starts := []
  lost := ∅

/-- The sources in use that need a capture and have none. -/
def missingCaptures (viewer : Viewer) : Finset SourceId :=
  ((viewer.scene.elements.map SceneElement.source).filter fun source =>
    ¬ source.IsColor ∧ (viewer.captures source).isNone).toFinset

/-- The viewer that `view` shows: the capture of its initial target has to start. -/
def launch (targets : List CaptureTarget) (target : CaptureTarget) (starts : SourceId → Bool)
    (loaded : Option Project) : Viewer :=
  let viewer := launchCaptures target.id starts
    (beforeCaptures targets (launchScene target.id loaded)) (target :: targets)
  { viewer with lost := viewer.missingCaptures }

end Viewer

/-! ## Events -/

/-- What calls a method of the viewer, and what happens outside it. -/
inductive ViewerCall
  | selectSceneItem (item : ElementId)
  | startSceneDrag (item : ElementId)
  | dragSceneItemOver (dragged : ElementId) (destination : Option ℕ)
  | dropSceneItem (item : ElementId)
  | deleteSelected
  | moveSelected (delta : Vec2)
  | focusTransformInput (adjustment : TransformAdjustment) (focused : Bool)
  | focusStreamUrl (focused : Bool)
  | setTransformValue (adjustment : TransformAdjustment) (value : F32)
  | setSelectedColor (color : Rgb)
  | beginDrag (viewport : Vec2) (position : Point)
  | dragInset (viewport : Vec2) (position : Point)
  | endDrag
  | addCaptureTarget (targetIndex : ℕ) (outcome : StartOutcome)
  | replaceSelectedCapture (targetIndex : ℕ) (outcome : StartOutcome)
  | addColorSource
  | cameraStarted (start : CameraStart) (started : Bool)
  | captureFailed (event : ErrorEvent) (outcome : StartOutcome)
  | captureReports (source : SourceId)
  | renderReady
  | compose (rendered : List RenderedElement)
  | compositionReady

/-- The elements that a frame shows are among those that were asked for, in their order. -/
def Renders (elements : List SceneElement) (rendered : List RenderedElement) : Prop :=
  (rendered.map RenderedElement.id).Sublist (elements.map SceneElement.id)

instance (elements : List SceneElement) (rendered : List RenderedElement) :
    Decidable (Renders elements rendered) :=
  inferInstanceAs (Decidable (List.Sublist _ _))

namespace Viewer

/-- A call, where it can happen. -/
def perform (viewer : Viewer) : ViewerCall → Option Viewer
  | .selectSceneItem item => some (viewer.selectSceneItem item)
  | .startSceneDrag item => some (viewer.startSceneDrag item)
  | .dragSceneItemOver dragged destination => some (viewer.dragSceneItemOver dragged destination)
  | .dropSceneItem item => some (viewer.dropSceneItem item)
  | .deleteSelected => some viewer.deleteSelected
  | .moveSelected delta => some (viewer.moveSelected delta)
  | .focusTransformInput adjustment focused =>
    some
      { viewer with
        focusedTransformInputs :=
          if focused then insert adjustment viewer.focusedTransformInputs
          else viewer.focusedTransformInputs.erase adjustment }
  | .focusStreamUrl focused => some { viewer with streamUrlFocused := focused }
  | .setTransformValue adjustment value => some (viewer.setTransformValue adjustment value)
  | .setSelectedColor color => some (viewer.setSelectedColor color)
  | .beginDrag viewport position => some (viewer.beginDrag viewport position)
  | .dragInset viewport position => some (viewer.dragInset viewport position)
  | .endDrag => some viewer.endDrag
  | .addCaptureTarget targetIndex outcome => some (viewer.addCaptureTarget targetIndex outcome)
  | .replaceSelectedCapture targetIndex outcome =>
    some (viewer.replaceSelectedCapture targetIndex outcome)
  | .addColorSource => some viewer.addColorSource
  | .cameraStarted start started =>
    if start ∈ viewer.starts then
      let viewer := { viewer with starts := viewer.starts.erase start }
      if started then
        some (cameraStarted start.source start.generation (some viewer.nextCapturer)
          { viewer with
            openCapturers := insert viewer.nextCapturer viewer.openCapturers
            nextCapturer := viewer.nextCapturer + 1 })
      else some (viewer.cameraStarted start.source start.generation none)
    else none
  | .captureFailed event outcome =>
    if event ∈ viewer.errors then
      some (captureFailed event.source event.generation outcome
        { viewer with errors := viewer.errors.erase event })
    else none
  | .captureReports source =>
    match source, viewer.captures source with
    | .display _, some resource | .window _, some resource =>
      some
        { viewer with
          errors := viewer.errors ++ [⟨source, resource.generation, resource.capturer⟩] }
    | _, _ => none
  | .renderReady => some { viewer with requested := some viewer.scene.elements }
  | .compose rendered =>
    match viewer.requested with
    | some elements =>
      if Renders elements rendered then
        some
          { viewer with
            requested := none
            composed := some rendered }
      else none
    | none => none
  | .compositionReady =>
    viewer.composed.map fun rendered => { viewer.showFrame rendered with composed := none }

/-- What is noted of a call: sources that left the scene, and captures that failed for good. -/
def note (before : Viewer) (call : ViewerCall) (viewer : Viewer) : Viewer :=
  { viewer with
    starts := viewer.starts.map fun start =>
      { start with deleted := start.deleted || !viewer.scene.usesSource start.source }
    lost :=
      (match call with
        | .captureFailed event _ =>
          if (before.captures event.source).isSome then insert event.source viewer.lost
          else viewer.lost
        | _ => viewer.lost).filter fun source => (viewer.captures source).isNone }

/-- What a call makes of the viewer, where it can happen. -/
def after (viewer : Viewer) (call : ViewerCall) : Option Viewer :=
  (viewer.perform call).map (note viewer call)

end Viewer

/-- The runs of the studio: its initial target is one of its targets, whose capture starts, and the
project it loads is valid. -/
def viewerSystem : System Viewer ViewerCall where
  init viewer := ∃ targets, ∃ target ∈ targets, ∃ starts loaded,
    starts target.id = true ∧ (∀ project ∈ loaded, Project.isValid project) ∧
      viewer = Viewer.launch targets target starts loaded
  step viewer call viewer' := viewer.after call = some viewer'

end Blip.Studio
