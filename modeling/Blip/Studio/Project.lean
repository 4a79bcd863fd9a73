import Blip.Common.Float32
import Mathlib.Data.List.Pairwise
import Mathlib.Logic.Function.Basic

/-!
# The studio's project

The scene of the studio is a list of elements, each showing a source. A project is what the studio
writes of it to disk and reads back at its start.
-/

namespace Blip.Studio

/-- `u64::MAX`. -/
def u64Max : ℕ := 2 ^ 64 - 1

/-- `saturating_add(1)` of a `u64`. -/
def saturatingSucc (value : ℕ) : ℕ := min (value + 1) u64Max

abbrev ElementId := ℕ

inductive SourceId
  | display (id : ℕ)
  | window (id : ℕ)
  | camera (id : ℕ)
  | color (id : ℕ)
deriving DecidableEq, Repr

/-- Sources without a capture. -/
def SourceId.IsColor : SourceId → Prop
  | color _ => True
  | _ => False

instance (source : SourceId) : Decidable source.IsColor :=
  match source with
  | .color _ => isTrue trivial
  | .display _ => isFalse id
  | .window _ => isFalse id
  | .camera _ => isFalse id

/-- The pair of numbers of a canvas axis each. -/
abbrev Vec2 := F32 × F32

instance neZeroChannel : NeZero 256 := ⟨by decide⟩

/-- The red, green and blue of a color, each from 0 to 255. -/
abbrev Rgb := Fin 256 × Fin 256 × Fin 256

structure ItemLayout where
  center : Vec2
  size : Vec2
  cornerRadiusRatio : F32
deriving DecidableEq

def fullCanvasLayout : ItemLayout where
  center := (.ofRat 0.5, .ofRat 0.5)
  size := (.ofRat 1, .ofRat 1)
  cornerRadiusRatio := .ofRat 0

def insetLayout : ItemLayout where
  center := (.ofRat 0.5, .ofRat 0.5)
  size := (.ofRat 0.5, .ofRat 0.5)
  cornerRadiusRatio := .ofRat 0.08

/-! ## Projects -/

/-- `project::Source`. -/
inductive ProjectSource
  | display (id : ℕ)
  | window (id : ℕ)
  | camera (id : ℕ)
  | color (id : ℕ) (value : Rgb)
deriving DecidableEq

/-- `project::Element`. -/
structure ProjectElement where
  id : ElementId
  source : ProjectSource
  center : Vec2
  size : Vec2
  cornerRadiusRatio : F32
deriving DecidableEq

structure Project where
  elements : List ProjectElement
  selectedItem : Option ElementId
deriving DecidableEq

/-- `value.is_finite() && value > 0.0`. -/
def positiveFinite (value : F32) : Bool := value.isFinite && (F32.ofRat 0).lt value

/-- The numbers of an element that `is_valid` accepts. -/
def ProjectElement.numbersValid (element : ProjectElement) : Bool :=
  element.center.1.isFinite && element.center.2.isFinite &&
    positiveFinite element.size.1 && positiveFinite element.size.2 &&
    element.cornerRadiusRatio.isFinite && (F32.ofRat 0).le element.cornerRadiusRatio

/-- The loop of `is_valid` over the elements: `ids` are those seen before. -/
def elementsValid (ids : List ElementId) : List ProjectElement → Bool
  | [] => true
  | element :: elements =>
    0 < element.id && element.id < u64Max && element.id ∉ ids && element.numbersValid &&
      elementsValid (element.id :: ids) elements

/-- `Project::is_valid`. -/
def Project.isValid (project : Project) : Bool :=
  elementsValid [] project.elements &&
    project.selectedItem.all (· ∈ project.elements.map ProjectElement.id)

/-! ## Scenes -/

structure SceneElement where
  id : ElementId
  source : SourceId
  layout : ItemLayout
deriving DecidableEq

structure Scene where
  elements : List SceneElement
  nextId : ElementId
deriving DecidableEq

namespace Scene

def new : Scene where
  elements := []
  nextId := 1

/-- `Scene::add`, with the identifier given to the new element. -/
def add (scene : Scene) (source : SourceId) (layout : ItemLayout) : ElementId × Scene :=
  (scene.nextId, ⟨scene.elements ++ [⟨scene.nextId, source, layout⟩], saturatingSucc scene.nextId⟩)

def element (scene : Scene) (id : ElementId) : Option SceneElement :=
  scene.elements.find? (·.id = id)

/-- The change of the first element with an identifier that `Scene::element_mut` gives access to. -/
def modifyElement (scene : Scene) (id : ElementId) (change : SceneElement → SceneElement) : Scene :=
  let rec go : List SceneElement → List SceneElement
    | [] => []
    | element :: elements =>
      if element.id = id then change element :: elements else element :: go elements
  { scene with elements := go scene.elements }

/-- `Scene::remove`. -/
def remove (scene : Scene) (id : ElementId) : Option SceneElement × Scene :=
  (scene.element id, { scene with elements := scene.elements.eraseP (·.id = id) })

def usesSource (scene : Scene) (source : SourceId) : Bool :=
  scene.elements.any (·.source = source)

/-- `Scene::replace_source`. -/
def replaceSource (scene : Scene) (id : ElementId) (source : SourceId) : Scene :=
  scene.modifyElement id ({ · with source })

/-- `Scene::move_to_index`: the new scene, if the element moves. -/
def moveToIndex (scene : Scene) (item : ElementId) (index : ℕ) : Option Scene :=
  match scene.elements.findIdx? (·.id = item) with
  | none => none
  | some currentIndex =>
    let destination := min index (scene.elements.length - 1)
    if currentIndex = destination then none
    else scene.elements[currentIndex]?.map fun element =>
      { scene with
        elements := (scene.elements.eraseIdx currentIndex).insertIdx destination element }

end Scene

/-- The colors of the color sources. -/
abbrev Colors := SourceId → Option Rgb

/-- The source of an element, with its color. -/
def projectSource (colors : Colors) : SourceId → ProjectSource
  | .display id => .display id
  | .window id => .window id
  | .camera id => .camera id
  | .color id => .color id ((colors (.color id)).getD (0, 0, 0))

/-- `project_snapshot`. -/
def projectSnapshot (scene : Scene) (colors : Colors) (selectedItem : Option ElementId) :
    Project where
  elements := scene.elements.map fun element =>
    { id := element.id
      source := projectSource colors element.source
      center := element.layout.center
      size := element.layout.size
      cornerRadiusRatio := element.layout.cornerRadiusRatio }
  selectedItem := selectedItem

/-- What `restore_project` gives. -/
structure Restored where
  scene : Scene
  colors : Colors
  selectedItem : Option ElementId
  nextColorSourceId : ℕ

/-- The body of the loop of `restore_project`. -/
def restoreElement (restored : Restored) (element : ProjectElement) : Restored :=
  let layout : ItemLayout := ⟨element.center, element.size, element.cornerRadiusRatio⟩
  let nextId := max restored.scene.nextId (saturatingSucc element.id)
  let push (source : SourceId) : Scene :=
    ⟨restored.scene.elements ++ [⟨element.id, source, layout⟩], nextId⟩
  match element.source with
  | .display id => { restored with scene := push (.display id) }
  | .window id => { restored with scene := push (.window id) }
  | .camera id => { restored with scene := push (.camera id) }
  | .color id value =>
    { restored with
      scene := push (.color id)
      colors := Function.update restored.colors (.color id) (some value)
      nextColorSourceId := max restored.nextColorSourceId (saturatingSucc id) }

/-- `restore_project`. -/
def restoreProject (project : Project) : Restored :=
  project.elements.foldl restoreElement ⟨.new, fun _ => none, project.selectedItem, 1⟩

end Blip.Studio
