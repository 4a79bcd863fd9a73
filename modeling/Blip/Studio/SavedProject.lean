import Blip.Studio.Captures
import Blip.Studio.LayoutNumbers

/-!
# Saved projects load again

A project that the studio wrote is read back at its next start, unless it is not valid, and then the
scene is lost. The results hold as long as only elements of the scene are selected, the numbers that
edits and drags give fit, and identifiers are left.
-/

namespace Blip.Studio

/-- A project that the next start takes as it is: valid, so its numbers are finite, given back by
restoring it, and with identifiers left for what is added. -/
structure Project.Loadable (project : Project) : Prop where
  valid : project.isValid = true
  restored :
    let restored := restoreProject project
    projectSnapshot restored.scene restored.colors restored.selectedItem = project
  nextId : ∀ element ∈ project.elements, element.id < (restoreProject project).scene.nextId
  nextColorSourceId : ∀ element ∈ project.elements, ∀ id value, element.source = .color id value →
    id < (restoreProject project).nextColorSourceId

/-- The elements of a scene have identifiers of their own below the next one, valid layouts, and
colors below the next one. -/
structure Scene.Sound (scene : Scene) (nextColorSourceId : ℕ) : Prop where
  distinct : (scene.elements.map SceneElement.id).Nodup
  ids : ∀ element ∈ scene.elements, 0 < element.id ∧ element.id < scene.nextId
  nextId : 0 < scene.nextId ∧ scene.nextId ≤ u64Max
  layouts : ∀ element ∈ scene.elements, element.layout.Valid
  colors : ∀ element ∈ scene.elements, ∀ id, element.source = .color id → id < nextColorSourceId

/-! ## Projects and scenes -/

theorem elementsValid_iff {ids : List ElementId} {elements : List ProjectElement} :
    elementsValid ids elements = true ↔
      (∀ element ∈ elements, 0 < element.id ∧ element.id < u64Max ∧ element.id ∉ ids ∧
        element.numbersValid = true) ∧ (elements.map ProjectElement.id).Nodup := by
  induction elements generalizing ids with
  | nil => simp [elementsValid]
  | cons element elements ih =>
    rw [List.forall_mem_cons]
    simp only [elementsValid, Bool.and_eq_true, decide_eq_true_eq, ih, List.map_cons,
      List.nodup_cons, List.mem_map, not_exists, not_and]
    constructor
    · rintro ⟨⟨⟨⟨hpos, hlt⟩, hnew⟩, hnumbers⟩, hrest, hnodup⟩
      refine ⟨⟨⟨hpos, hlt, hnew, hnumbers⟩, fun other hother => ?_⟩, fun other hother => ?_, hnodup⟩
      · obtain ⟨hpos, hlt, hnew, hnumbers⟩ := hrest other hother
        exact ⟨hpos, hlt, fun hmem => hnew (List.mem_cons_of_mem _ hmem), hnumbers⟩
      · exact fun heq => (hrest other hother).2.2.1 (heq ▸ List.mem_cons_self)
    · rintro ⟨⟨⟨hpos, hlt, hnew, hnumbers⟩, hrest⟩, hdistinct, hnodup⟩
      refine ⟨⟨⟨⟨hpos, hlt⟩, hnew⟩, hnumbers⟩, fun other hother => ?_, hnodup⟩
      obtain ⟨hpos, hlt, hnew, hnumbers⟩ := hrest other hother
      refine ⟨hpos, hlt, fun hmem => ?_, hnumbers⟩
      rcases List.mem_cons.1 hmem with heq | hmem
      · exact hdistinct other hother heq
      · exact hnew hmem

/-- What is written of an element. -/
def SceneElement.projectElement (colors : Colors) (element : SceneElement) : ProjectElement where
  id := element.id
  source := projectSource colors element.source
  center := element.layout.center
  size := element.layout.size
  cornerRadiusRatio := element.layout.cornerRadiusRatio

theorem projectSnapshot_elements (scene : Scene) (colors : Colors)
    (selectedItem : Option ElementId) :
    (projectSnapshot scene colors selectedItem).elements =
      scene.elements.map (SceneElement.projectElement colors) := rfl

@[simp] theorem sceneElement_projectElement (colors : Colors) (element : SceneElement) :
    (element.projectElement colors).sceneElement = element := by
  rcases element with ⟨id, source, layout⟩
  cases source <;> rfl

theorem restoreProject_selectedItem (project : Project) :
    (restoreProject project).selectedItem = project.selectedItem := by
  obtain ⟨elements, selectedItem⟩ := project
  induction elements using List.reverseRecOn with
  | nil => rfl
  | append_singleton elements element ih =>
    rw [restoreProject_append]
    rcases element with ⟨id, source, center, size, cornerRadiusRatio⟩
    cases source <;> exact ih

theorem restoreElement_nextColorSourceId (restored : Restored) (element : ProjectElement) :
    restored.nextColorSourceId ≤ (restoreElement restored element).nextColorSourceId ∧
      ∀ id value, element.source = .color id value →
        saturatingSucc id ≤ (restoreElement restored element).nextColorSourceId := by
  rcases element with ⟨id, source, center, size, cornerRadiusRatio⟩
  cases source with
  | display | window | camera => exact ⟨le_rfl, nofun⟩
  | color color value =>
    refine ⟨le_max_left _ _, ?_⟩
    rintro _ _ ⟨⟩
    exact le_max_right _ _

/-- The next identifiers restored are above those of the project. -/
theorem restoreProject_next (elements : List ProjectElement) (selectedItem : Option ElementId) :
    ∀ element ∈ elements,
      saturatingSucc element.id ≤ (restoreProject ⟨elements, selectedItem⟩).scene.nextId ∧
        ∀ id value, element.source = .color id value →
          saturatingSucc id ≤ (restoreProject ⟨elements, selectedItem⟩).nextColorSourceId := by
  induction elements using List.reverseRecOn with
  | nil => exact fun _ h => absurd h List.not_mem_nil
  | append_singleton elements last ih =>
    intro element helement
    have hcolors := restoreElement_nextColorSourceId (restoreProject ⟨elements, selectedItem⟩) last
    rw [restoreProject_append, restoreElement_scene]
    rcases List.mem_append.1 helement with helement | helement
    · obtain ⟨hid, hcolor⟩ := ih element helement
      exact ⟨hid.trans (le_max_left _ _), fun id value hsource =>
        (hcolor id value hsource).trans hcolors.1⟩
    · obtain rfl := List.mem_singleton.1 helement
      exact ⟨le_max_right _ _, hcolors.2⟩

theorem restoreProject_bounds (elements : List ProjectElement) (selectedItem : Option ElementId) :
    (0 < (restoreProject ⟨elements, selectedItem⟩).scene.nextId ∧
        (restoreProject ⟨elements, selectedItem⟩).scene.nextId ≤ u64Max) ∧
      (restoreProject ⟨elements, selectedItem⟩).nextColorSourceId ≤ u64Max := by
  induction elements using List.reverseRecOn with
  | nil => exact (by decide : (0 < 1 ∧ 1 ≤ u64Max) ∧ 1 ≤ u64Max)
  | append_singleton elements last ih =>
    obtain ⟨⟨hpos, hle⟩, hcolors⟩ := ih
    rw [restoreProject_append, restoreElement_scene]
    refine ⟨⟨hpos.trans_le (le_max_left _ _), max_le hle (min_le_right _ _)⟩, ?_⟩
    rcases last with ⟨id, source, center, size, cornerRadiusRatio⟩
    cases source with
    | display | window | camera => exact hcolors
    | color => exact max_le hcolors (min_le_right _ _)

/-- The colors restored are those of the project, where elements with a color agree on it. -/
theorem restoreProject_color {elements : List ProjectElement} {color : ℕ → Rgb}
    (hcolor : ∀ element ∈ elements, ∀ id value, element.source = .color id value → value = color id)
    (selectedItem : Option ElementId) : ∀ element ∈ elements, ∀ id value,
      element.source = .color id value →
        (restoreProject ⟨elements, selectedItem⟩).colors (.color id) = some (color id) := by
  induction elements using List.reverseRecOn with
  | nil => exact fun _ h => absurd h List.not_mem_nil
  | append_singleton elements last ih =>
    intro element helement id value hsource
    have hearlier : ∀ element ∈ elements, element.source = .color id value →
        (restoreProject ⟨elements, selectedItem⟩).colors (.color id) = some (color id) :=
      fun element helement => ih (fun other hother => hcolor other (List.mem_append_left _ hother))
        element helement id value
    have hlast := hcolor last (List.mem_append_right _ List.mem_cons_self)
    rw [restoreProject_append]
    rcases last with ⟨lastId, source, center, size, cornerRadiusRatio⟩
    cases source with
    | color lastColor lastValue =>
      by_cases heq : id = lastColor
      · subst heq
        simp [restoreElement, hlast id lastValue rfl]
      · rcases List.mem_append.1 helement with helement | helement
        · simpa [restoreElement, heq] using hearlier element helement hsource
        · obtain rfl := List.mem_singleton.1 helement
          cases hsource
          exact absurd rfl heq
    | display | window | camera =>
      rcases List.mem_append.1 helement with helement | helement
      · exact hearlier element helement hsource
      · obtain rfl := List.mem_singleton.1 helement
        cases hsource

theorem lt_saturatingSucc {value : ℕ} (h : value < u64Max) : value < saturatingSucc value :=
  lt_min (Nat.lt_succ_self value) h

theorem projectSource_sourceId {colors colors' : Colors} {source : SourceId}
    (h : ∀ id, source = .color id →
      colors' (.color id) = some ((colors (.color id)).getD (0, 0, 0))) :
    projectSource colors' source = projectSource colors source := by
  cases source with
  | display | window | camera => rfl
  | color id => rw [projectSource, h id rfl, projectSource, Option.getD_some]

/-- Restoring what was written of a scene gives it back. -/
theorem restoreProject_snapshot (scene : Scene) (colors : Colors)
    (selectedItem : Option ElementId) :
    let project := projectSnapshot scene colors selectedItem
    let restored := restoreProject project
    projectSnapshot restored.scene restored.colors restored.selectedItem = project := by
  have hcolors := @restoreProject_color (projectSnapshot scene colors selectedItem).elements
    (fun id => (colors (.color id)).getD (0, 0, 0)) (fun element helement id value hsource => by
      obtain ⟨⟨_, source, _⟩, -, rfl⟩ := List.mem_map.1 helement
      cases source <;> cases hsource
      rfl) selectedItem
  have helements := restoreProject_elements (projectSnapshot scene colors selectedItem).elements
    selectedItem
  change Project.mk _ _ = Project.mk _ _
  rw [Project.mk.injEq]
  refine ⟨?_, restoreProject_selectedItem _⟩
  change List.map _ (restoreProject ⟨(projectSnapshot scene colors selectedItem).elements,
    selectedItem⟩).scene.elements = _
  rw [helements, projectSnapshot_elements, List.map_map, List.map_map]
  refine List.map_congr_left fun element helement => ?_
  change SceneElement.projectElement _ (ProjectElement.sceneElement (element.projectElement colors)) = _
  have hsource : projectSource (restoreProject (projectSnapshot scene colors selectedItem)).colors
      element.source = projectSource colors element.source := by
    refine projectSource_sourceId fun id hid => ?_
    refine hcolors (element.projectElement colors) (List.mem_map_of_mem helement) id
      ((colors (.color id)).getD (0, 0, 0)) ?_
    change projectSource colors element.source = _
    rw [hid]
    rfl
  rw [sceneElement_projectElement]
  simp only [SceneElement.projectElement, hsource]

/-- What is written of a sound scene and a selection in it loads again. -/
theorem Scene.Sound.loadable {scene : Scene} {nextColorSourceId : ℕ}
    (h : scene.Sound nextColorSourceId) (hcolors : nextColorSourceId ≤ u64Max) (colors : Colors)
    {selectedItem : Option ElementId}
    (hselected : ∀ item ∈ selectedItem, item ∈ scene.elements.map SceneElement.id) :
    (projectSnapshot scene colors selectedItem).Loadable where
  valid := by
    have hids : (projectSnapshot scene colors selectedItem).elements.map ProjectElement.id =
        scene.elements.map SceneElement.id := List.map_map
    rw [Project.isValid, Bool.and_eq_true, elementsValid_iff, hids]
    refine ⟨⟨fun element helement => ?_, h.distinct⟩, ?_⟩
    · obtain ⟨element, hmem, rfl⟩ := List.mem_map.1 helement
      obtain ⟨hpos, hlt⟩ := h.ids element hmem
      refine ⟨hpos, hlt.trans_le h.nextId.2, List.not_mem_nil, ?_⟩
      rw [numbersValid_iff]
      exact h.layouts element hmem
    · cases selectedItem with
      | none => rfl
      | some item => exact decide_eq_true (hselected item rfl)
  restored := restoreProject_snapshot scene colors selectedItem
  nextId element helement := by
    have hnext := (restoreProject_next _ selectedItem element helement).1
    obtain ⟨element, hmem, rfl⟩ := List.mem_map.1 helement
    exact (lt_saturatingSucc ((h.ids element hmem).2.trans_le h.nextId.2)).trans_le hnext
  nextColorSourceId element helement id value hsource := by
    have hnext := (restoreProject_next _ selectedItem element helement).2 id value hsource
    obtain ⟨⟨elementId, source, layout⟩, hmem, rfl⟩ := List.mem_map.1 helement
    cases source <;> cases hsource
    exact (lt_saturatingSucc ((h.colors _ hmem id rfl).trans_le hcolors)).trans_le hnext

/-! ## Scenes stay sound -/

namespace Scene.Sound

variable {scene scene' : Scene} {nextColorSourceId : ℕ}

theorem new : Scene.new.Sound 1 where
  distinct := List.nodup_nil
  ids _ h := absurd h List.not_mem_nil
  nextId := by decide
  layouts _ h := absurd h List.not_mem_nil
  colors _ h := absurd h List.not_mem_nil

theorem mono (h : scene.Sound nextColorSourceId) {next : ℕ} (hnext : nextColorSourceId ≤ next) :
    scene.Sound next :=
  { h with colors := fun element helement id hid => (h.colors element helement id hid).trans_le hnext }

theorem add (h : scene.Sound nextColorSourceId) (hnext : scene.nextId < u64Max) {source : SourceId}
    {layout : ItemLayout} (hlayout : layout.Valid)
    (hcolor : ∀ id, source = .color id → id < nextColorSourceId) :
    (scene.add source layout).2.Sound nextColorSourceId where
  distinct := by
    rw [Scene.add, List.map_append, List.nodup_append']
    refine ⟨h.distinct, List.nodup_singleton _, List.disjoint_singleton.2 fun hmem => ?_⟩
    obtain ⟨element, helement, hid⟩ := List.mem_map.1 hmem
    exact absurd hid (h.ids element helement).2.ne
  ids element helement := by
    rcases List.mem_append.1 helement with helement | helement
    · obtain ⟨hpos, hlt⟩ := h.ids element helement
      exact ⟨hpos, hlt.trans (lt_saturatingSucc hnext)⟩
    · obtain rfl := List.mem_singleton.1 helement
      exact ⟨h.nextId.1, lt_saturatingSucc hnext⟩
  nextId := ⟨h.nextId.1.trans (lt_saturatingSucc hnext), min_le_right _ _⟩
  layouts element helement := by
    rcases List.mem_append.1 helement with helement | helement
    · exact h.layouts element helement
    · obtain rfl := List.mem_singleton.1 helement
      exact hlayout
  colors element helement := by
    rcases List.mem_append.1 helement with helement | helement
    · exact h.colors element helement
    · obtain rfl := List.mem_singleton.1 helement
      exact hcolor

/-- Some of the elements, in any order. -/
theorem of_subperm (h : scene.Sound nextColorSourceId) (hnext : scene'.nextId = scene.nextId)
    (helements : scene'.elements.Subperm scene.elements) : scene'.Sound nextColorSourceId where
  distinct := by
    obtain ⟨elements, hperm, hsublist⟩ := helements
    rw [← (hperm.map SceneElement.id).nodup_iff]
    exact (hsublist.map SceneElement.id).nodup h.distinct
  ids element helement := hnext ▸ h.ids element (helements.subset helement)
  nextId := hnext ▸ h.nextId
  layouts element helement := h.layouts element (helements.subset helement)
  colors element helement := h.colors element (helements.subset helement)

theorem modifyElement_ids {item : ElementId} {change : SceneElement → SceneElement}
    (hchange : ∀ element, (change element).id = element.id) :
    (scene.modifyElement item change).elements.map SceneElement.id =
      scene.elements.map SceneElement.id := by
  cases helement : scene.element item with
  | none => rw [modifyElement_eq_none helement]
  | some element =>
    obtain ⟨before, after, helements, -, -, hscene⟩ := modifyElement_eq_some helement
    rw [hscene, helements, List.map_append, List.map_append, List.map_cons, List.map_cons, hchange]

/-- Changing an element keeps the scene sound if the element stays valid. -/
theorem modifyElement (h : scene.Sound nextColorSourceId) {item : ElementId}
    {change : SceneElement → SceneElement}
    (hid : ∀ element, (change element).id = element.id)
    (hlayout : ∀ element, scene.element item = some element → element.layout.Valid →
      (change element).layout.Valid)
    (hcolor : ∀ element ∈ scene.elements, ∀ id, (change element).source = .color id →
      id < nextColorSourceId) : (scene.modifyElement item change).Sound nextColorSourceId := by
  cases helement : scene.element item with
  | none => rwa [modifyElement_eq_none helement]
  | some element =>
    have hids := @modifyElement_ids scene item change hid
    obtain ⟨before, after, helements, -, -, hscene⟩ := modifyElement_eq_some helement
    have hmem : element ∈ scene.elements := (element_eq_some helement).1
    rw [hscene] at hids ⊢
    have hcases : ∀ other ∈ before ++ change element :: after,
        other = change element ∨ other ∈ scene.elements := by
      intro other hother
      rw [helements]
      simp only [List.mem_append, List.mem_cons] at hother ⊢
      tauto
    refine ⟨hids ▸ h.distinct, fun other hother => ?_, h.nextId, fun other hother => ?_,
      fun other hother => ?_⟩
    · rcases hcases other hother with rfl | hother
      · rw [hid]
        exact h.ids element hmem
      · exact h.ids other hother
    · rcases hcases other hother with rfl | hother
      · exact hlayout element helement (h.layouts element hmem)
      · exact h.layouts other hother
    · rcases hcases other hother with rfl | hother
      · exact hcolor element hmem
      · exact h.colors other hother

/-- The scene restored from a project that is valid. -/
theorem restore {elements : List ProjectElement} (selectedItem : Option ElementId)
    (hnodup : (elements.map ProjectElement.id).Nodup)
    (hvalid : ∀ element ∈ elements, 0 < element.id ∧ element.id < u64Max ∧
      element.numbersValid = true ∧ ∀ id value, element.source = .color id value → id < u64Max) :
    (restoreProject ⟨elements, selectedItem⟩).scene.Sound
        (restoreProject ⟨elements, selectedItem⟩).nextColorSourceId ∧
      (restoreProject ⟨elements, selectedItem⟩).nextColorSourceId ≤ u64Max := by
  obtain ⟨hnextId, hnextColor⟩ := restoreProject_bounds elements selectedItem
  have hnext := restoreProject_next elements selectedItem
  have helements := restoreProject_elements elements selectedItem
  refine ⟨⟨?_, fun element helement => ?_, hnextId, fun element helement => ?_,
    fun element helement id hid => ?_⟩, hnextColor⟩
  · rw [helements, List.map_map]
    exact hnodup
  · rw [helements] at helement
    obtain ⟨element, hmem, rfl⟩ := List.mem_map.1 helement
    obtain ⟨hpos, hlt, -⟩ := hvalid element hmem
    exact ⟨hpos, (lt_saturatingSucc hlt).trans_le (hnext element hmem).1⟩
  · rw [helements] at helement
    obtain ⟨element, hmem, rfl⟩ := List.mem_map.1 helement
    exact numbersValid_iff.1 (hvalid element hmem).2.2.1
  · rw [helements] at helement
    obtain ⟨element, hmem, rfl⟩ := List.mem_map.1 helement
    obtain ⟨-, -, -, hcolor⟩ := hvalid element hmem
    have hnext := (hnext element hmem).2
    rcases element with ⟨elementId, source, center, size, cornerRadiusRatio⟩
    cases source <;> cases hid
    exact (lt_saturatingSucc (hcolor id _ rfl)).trans_le (hnext id _ rfl)

end Scene.Sound

/-! ## The viewer -/

theorem CaptureTarget.id_ne_color (target : CaptureTarget) (id : ℕ) : target.id ≠ .color id := by
  intro heq
  have hcolor := target.not_isColor
  rw [heq] at hcolor
  exact hcolor trivial

namespace Viewer

/-- The identifiers of the elements in the scene. -/
def ids (viewer : Viewer) : List ElementId := viewer.scene.elements.map SceneElement.id

/-- The scene is sound, what is selected is in it, and what was saved loads again. -/
structure Sound (viewer : Viewer) : Prop where
  scene : viewer.scene.Sound viewer.nextColorSourceId
  nextColorSourceId : viewer.nextColorSourceId ≤ u64Max
  selected : ∀ item ∈ viewer.selectedItem, item ∈ viewer.ids
  canvas : ∀ dimensions ∈ viewer.contentDimensions, dimensions = defaultCanvasDimensions
  saved : ∀ project ∈ viewer.saved, project.Loadable

/-- Whether a press on the canvas selects what is under the pointer, and does not take hold of the
selected element. -/
def selectsPressed (viewer : Viewer) (frame : Bounds) (dimensions : ℕ × ℕ) (position : Point) :
    Bool :=
  match viewer.selectedItem with
  | none => true
  | some item =>
    match viewer.rendersItem item with
    | none => false
    | some transform =>
      let bounds := transformBounds frame transform
      let radius := itemCornerRadius frame dimensions transform
      !(cornerRadiusHandleBounds bounds radius).contains position &&
        (resizeHandleAt position bounds).isNone

/-- The topmost element of the frame shown that is under the pointer. -/
def pressedItem (viewer : Viewer) (frame : Bounds) (position : Point) : Option ElementId :=
  (viewer.renderedElements.reverse.find? fun element =>
    (transformBounds frame element.transform).contains position).map RenderedElement.id

/-- A call that selects elements of the scene only, whose numbers fit, and that has identifiers left
for what it adds. -/
def KeepsProject (viewer : Viewer) : ViewerCall → Prop
  | .selectSceneItem item | .startSceneDrag item | .dropSceneItem item => item ∈ viewer.ids
  | .beginDrag viewport position => ∀ dimensions ∈ viewer.contentDimensions,
    ∀ frame ∈ previewFrameBounds viewport dimensions,
      viewer.selectsPressed frame dimensions position = true →
        ∀ item ∈ viewer.pressedItem frame position, item ∈ viewer.ids
  | .dragInset viewport position => ∀ operation ∈ viewer.dragOperation,
    DragFits (viewer.contentDimensions.bind (previewFrameBounds viewport)) position operation
  | .moveSelected delta => delta.1.isNan = false ∧ delta.2.isNan = false
  | .setTransformValue adjustment value => ∀ item ∈ viewer.selectedItem,
    ∀ dimensions ∈ viewer.contentDimensions, ∀ transform ∈ viewer.rendersItem item,
      ∀ element ∈ viewer.scene.element item,
        EditFits adjustment value (ofCount dimensions.1, ofCount dimensions.2) transform
          element.layout
  | .addCaptureTarget _ _ => viewer.scene.nextId < u64Max
  | .addColorSource => viewer.scene.nextId < u64Max ∧ viewer.nextColorSourceId < u64Max
  | _ => True

instance (viewer : Viewer) (call : ViewerCall) : Decidable (viewer.KeepsProject call) :=
  match call with
  | .selectSceneItem item | .startSceneDrag item | .dropSceneItem item =>
    inferInstanceAs (Decidable (item ∈ viewer.ids))
  | .beginDrag _ _ => inferInstanceAs (Decidable (∀ dimensions ∈ viewer.contentDimensions,
      ∀ frame ∈ previewFrameBounds _ dimensions, _ = true → ∀ item ∈ viewer.pressedItem frame _, _))
  | .dragInset _ _ => inferInstanceAs (Decidable (∀ operation ∈ viewer.dragOperation, _))
  | .moveSelected _ => inferInstanceAs (Decidable (_ ∧ _))
  | .setTransformValue _ _ => inferInstanceAs (Decidable (∀ item ∈ viewer.selectedItem,
      ∀ dimensions ∈ viewer.contentDimensions, ∀ transform ∈ viewer.rendersItem item,
        ∀ element ∈ viewer.scene.element item, _))
  | .addCaptureTarget _ _ => inferInstanceAs (Decidable (_ < _))
  | .addColorSource => inferInstanceAs (Decidable (_ ∧ _))
  | .dragSceneItemOver _ _ | .deleteSelected | .focusTransformInput _ _ | .focusStreamUrl _
  | .setSelectedColor _ | .endDrag | .replaceSelectedCapture _ _ | .cameraStarted _ _
  | .captureFailed _ _ | .captureReports _ | .renderReady | .compose _ | .compositionReady =>
    isTrue trivial

variable {viewer viewer' : Viewer}

/-- Nothing that is saved changes, and nothing is saved. -/
structure SameProject (viewer viewer' : Viewer) : Prop where
  scene : viewer'.scene = viewer.scene
  nextColorSourceId : viewer'.nextColorSourceId = viewer.nextColorSourceId
  selectedItem : viewer'.selectedItem = viewer.selectedItem
  contentDimensions : viewer'.contentDimensions = viewer.contentDimensions
  saved : viewer'.saved = viewer.saved

namespace Sound

theorem same (h : viewer.Sound) (hsame : SameProject viewer viewer') : viewer'.Sound where
  scene := by rw [hsame.scene, hsame.nextColorSourceId]; exact h.scene
  nextColorSourceId := by rw [hsame.nextColorSourceId]; exact h.nextColorSourceId
  selected := by rw [hsame.selectedItem, ids, hsame.scene]; exact h.selected
  canvas := by rw [hsame.contentDimensions]; exact h.canvas
  saved := by rw [hsame.saved]; exact h.saved

theorem saveProject (h : viewer.Sound) : viewer.saveProject.Sound where
  scene := h.scene
  nextColorSourceId := h.nextColorSourceId
  selected := h.selected
  canvas := h.canvas
  saved := by
    rintro project ⟨⟩
    exact h.scene.loadable h.nextColorSourceId viewer.colors h.selected

/-- Selecting an element of the scene. -/
theorem select (h : viewer.Sound) {selectedItem : Option ElementId}
    (hselected : ∀ item ∈ selectedItem, item ∈ viewer.ids) :
    Sound { viewer with selectedItem } where
  scene := h.scene
  nextColorSourceId := h.nextColorSourceId
  selected := hselected
  canvas := h.canvas
  saved := h.saved

/-- Changing the scene but not what is in it. -/
theorem rearrange (h : viewer.Sound) {scene : Scene} (hscene : scene.Sound viewer.nextColorSourceId)
    (hids : ∀ item ∈ viewer.ids, item ∈ scene.elements.map SceneElement.id) :
    Sound { viewer with scene } where
  scene := hscene
  nextColorSourceId := h.nextColorSourceId
  selected item hitem := hids item (h.selected item hitem)
  canvas := h.canvas
  saved := h.saved

/-! ### Scene rows -/

theorem dragSceneItemOver (h : viewer.Sound) (dragged : ElementId) (destination : Option ℕ) :
    (viewer.dragSceneItemOver dragged destination).Sound := by
  rw [Viewer.dragSceneItemOver]
  split
  · split
    · exact h
    · rename_i scene hscene
      obtain ⟨index, -, hscene⟩ := Option.bind_eq_some_iff.1 hscene
      obtain ⟨hperm, hnext⟩ := Scene.moveToIndex_eq_some hscene
      refine saveProject (h.rearrange (h.scene.of_subperm hnext hperm.subperm) fun item hitem => ?_)
      exact ((hperm.map SceneElement.id).mem_iff).2 hitem
  · exact h

/-! ### Captures -/

theorem startCapture (source : SourceId) (generation : ℕ) (outcome : StartOutcome) :
    SameProject viewer (viewer.startCapture source generation outcome) := by
  cases outcome <;> exact ⟨rfl, rfl, rfl, rfl, rfl⟩

theorem ensureCapture (source : SourceId) (outcome : StartOutcome) :
    SameProject viewer (viewer.ensureCapture source outcome).2 := by
  rw [Viewer.ensureCapture]
  split
  · exact ⟨rfl, rfl, rfl, rfl, rfl⟩
  · exact startCapture source 1 outcome

theorem addElement (h : viewer.Sound) (hnext : viewer.scene.nextId < u64Max) {source : SourceId}
    {layout : ItemLayout} (hlayout : layout.Valid)
    (hcolor : ∀ id, source = .color id → id < viewer.nextColorSourceId) :
    (viewer.addElement source layout).Sound := by
  have hids : ∀ item ∈ viewer.ids,
      item ∈ (viewer.scene.add source layout).2.elements.map SceneElement.id := by
    intro item hitem
    rw [Scene.add, List.map_append]
    exact List.mem_append_left _ hitem
  refine (h.rearrange (h.scene.add hnext hlayout hcolor) hids).select ?_
  rintro item ⟨⟩
  rw [ids, Scene.add, List.map_append]
  exact List.mem_append_right _ (List.mem_singleton.2 rfl)

theorem addCameraTarget (h : viewer.Sound) (hnext : viewer.scene.nextId < u64Max) (id : ℕ) :
    (viewer.addCameraTarget (.camera id)).Sound := by
  have hadded : (viewer.addElement (.camera id) insetLayout).saveProject.Sound :=
    (h.addElement hnext insetLayout_valid fun _ hid => by cases hid).saveProject
  rw [Viewer.addCameraTarget]
  split
  · exact hadded
  · exact hadded.same ⟨rfl, rfl, rfl, rfl, rfl⟩

theorem addCaptureTarget (h : viewer.Sound) (hnext : viewer.scene.nextId < u64Max)
    (targetIndex : ℕ) (outcome : StartOutcome) :
    (viewer.addCaptureTarget targetIndex outcome).Sound := by
  rw [Viewer.addCaptureTarget]
  split
  · exact h
  · exact h.addCameraTarget hnext _
  · rename_i target hcamera htarget
    have hsame := @ensureCapture viewer target.id outcome
    split <;> rename_i started hensure <;> rw [hensure] at hsame
    · exact h.same hsame
    · refine saveProject ((h.same hsame).addElement (hsame.scene ▸ hnext) insetLayout_valid ?_)
      exact fun id hid => absurd hid (target.id_ne_color id)

theorem releaseCapture (source : SourceId) : SameProject viewer (viewer.releaseCapture source) :=
  ⟨rfl, rfl, rfl, rfl, rfl⟩

theorem addColorSource (h : viewer.Sound) (hnext : viewer.scene.nextId < u64Max)
    (hcolor : viewer.nextColorSourceId < u64Max) : viewer.addColorSource.Sound := by
  have hlt := lt_saturatingSucc hcolor
  have hcolored : Sound
      { viewer with
        nextColorSourceId := saturatingSucc viewer.nextColorSourceId
        colors := Function.update viewer.colors (.color viewer.nextColorSourceId)
          (some (88, 101, 242)) } :=
    { h with
      scene := h.scene.mono hlt.le
      nextColorSourceId := min_le_right _ _ }
  refine saveProject (hcolored.addElement hnext fullCanvasLayout_valid ?_)
  rintro id ⟨⟩
  exact hlt

theorem deleteSelected (h : viewer.Sound) : viewer.deleteSelected.Sound := by
  rw [Viewer.deleteSelected]
  split
  · exact h
  · split
    · exact h
    · split
      · exact h.select (by rintro _ ⟨⟩)
      · rename_i removed scene hremove
        obtain ⟨before, after, helements, -, -, rfl⟩ := Scene.remove_eq_some hremove
        have hsublist : (before ++ after).Sublist viewer.scene.elements := by
          rw [helements]
          exact List.Sublist.append_left (List.sublist_cons_self removed after) before
        have hremoved : Sound
            { viewer with
              selectedItem := none
              scene := { viewer.scene with elements := before ++ after } } :=
          { scene := h.scene.of_subperm rfl hsublist.subperm
            nextColorSourceId := h.nextColorSourceId
            selected := by rintro _ ⟨⟩
            canvas := h.canvas
            saved := h.saved }
        dsimp only
        split
        · exact saveProject (hremoved.same ⟨rfl, rfl, rfl, rfl, rfl⟩)
        · split <;> exact saveProject (hremoved.same ⟨rfl, rfl, rfl, rfl, rfl⟩)

theorem replaceSelectedCapture (h : viewer.Sound) (targetIndex : ℕ) (outcome : StartOutcome) :
    (viewer.replaceSelectedCapture targetIndex outcome).Sound := by
  rw [Viewer.replaceSelectedCapture]
  split
  · rename_i selected target hselected htarget
    split
    · exact h
    · split
      · exact h
      · rename_i element helement
        split
        · exact h
        · have hsame := @ensureCapture viewer target.id outcome
          split <;> rename_i started hensure <;> rw [hensure] at hsame
          · exact h.same hsame
          · have hreplaced : Sound
                { started with scene := started.scene.replaceSource selected target.id } := by
              have hstarted := h.same hsame
              refine hstarted.rearrange (hstarted.scene.modifyElement (fun _ => rfl)
                (fun _ _ hlayout => hlayout) fun _ _ id hid => ?_) fun item hitem => ?_
              · exact absurd hid (target.id_ne_color id)
              · have hids := @Scene.Sound.modifyElement_ids started.scene selected
                  ({ · with source := target.id }) fun _ => rfl
                rw [Scene.replaceSource, hids]
                exact hitem
            dsimp only
            split
            · exact hreplaced.saveProject
            · exact saveProject (hreplaced.same (releaseCapture element.source))
  · exact h

theorem cameraStarted (source : SourceId) (generation : ℕ) (result : Option ℕ) :
    SameProject viewer (viewer.cameraStarted source generation result) := by
  unfold Viewer.cameraStarted
  split
  · cases result <;> exact ⟨rfl, rfl, rfl, rfl, rfl⟩
  · cases result <;> exact ⟨rfl, rfl, rfl, rfl, rfl⟩

theorem captureFailed (source : SourceId) (generation : ℕ) (outcome : StartOutcome) :
    SameProject viewer (viewer.captureFailed source generation outcome) := by
  rw [Viewer.captureFailed]
  split
  · exact ⟨rfl, rfl, rfl, rfl, rfl⟩
  · split
    · dsimp only
      split
      · cases outcome <;> exact ⟨rfl, rfl, rfl, rfl, rfl⟩
      · exact ⟨rfl, rfl, rfl, rfl, rfl⟩
    · exact ⟨rfl, rfl, rfl, rfl, rfl⟩

/-! ### The canvas and the inspector -/

/-- Changing the layout of an element that stays valid. -/
theorem changeLayout (h : viewer.Sound) {item : ElementId} {change : ItemLayout → ItemLayout}
    (hchange : ∀ element, viewer.scene.element item = some element → element.layout.Valid →
      (change element.layout).Valid) : (viewer.changeLayout item change).Sound := by
  refine h.rearrange (h.scene.modifyElement (fun _ => rfl) hchange h.scene.colors)
    fun other hother => ?_
  have hids := @Scene.Sound.modifyElement_ids viewer.scene item
    (fun element => { element with layout := change element.layout }) fun _ => rfl
  rw [hids]
  exact hother

theorem moveSelected (h : viewer.Sound) {delta : Vec2}
    (hdelta : delta.1.isNan = false ∧ delta.2.isNan = false) : (viewer.moveSelected delta).Sound := by
  rw [Viewer.moveSelected]
  split
  · exact h
  · split
    · exact h
    · have hcanvas : viewer.contentDimensions.getD defaultCanvasDimensions =
          defaultCanvasDimensions := by
        cases hdimensions : viewer.contentDimensions with
        | none => rfl
        | some dimensions => exact h.canvas dimensions hdimensions
      rw [hcanvas]
      dsimp only [defaultCanvasDimensions]
      split
      · split
        · exact h
        · refine saveProject (h.changeLayout fun element _ hlayout => ?_)
          obtain ⟨hx, hy⟩ := @nudgedCenter_isFinite element.layout.center delta
            (ofCount 1920, ofCount 1080)
            (F32.add_isNan hlayout.centerX
              (F32.div_isNan hdelta.1 (by decide +kernel) (by decide +kernel)))
            (F32.add_isNan hlayout.centerY
              (F32.div_isNan hdelta.2 (by decide +kernel) (by decide +kernel)))
          exact
            { hlayout with
              centerX := hx
              centerY := hy }
      · exact h

theorem dragInset (h : viewer.Sound) {viewport : Vec2} {position : Point}
    (hfits : viewer.KeepsProject (.dragInset viewport position)) :
    (viewer.dragInset viewport position).Sound := by
  rw [Viewer.dragInset]
  split
  · exact h
  · rename_i item change hchange
    obtain ⟨operation, hoperation, hchange⟩ := Option.bind_eq_some_iff.1 hchange
    exact h.changeLayout fun _ _ hlayout =>
      draggedLayout_valid (hfits operation hoperation) hchange hlayout

theorem endDrag (h : viewer.Sound) : viewer.endDrag.Sound := by
  rw [Viewer.endDrag]
  split
  · exact saveProject (h.same ⟨rfl, rfl, rfl, rfl, rfl⟩)
  · exact h.same ⟨rfl, rfl, rfl, rfl, rfl⟩

theorem changeSelectedColor (h : viewer.Sound) (change : Rgb → Rgb) :
    (viewer.changeSelectedColor change).Sound := by
  rw [Viewer.changeSelectedColor]
  split
  · exact h
  · split
    · exact h
    · exact saveProject (h.same ⟨rfl, rfl, rfl, rfl, rfl⟩)

theorem setTransformValue (h : viewer.Sound) {adjustment : TransformAdjustment} {value : F32}
    (hfits : viewer.KeepsProject (.setTransformValue adjustment value)) :
    (viewer.setTransformValue adjustment value).Sound := by
  unfold Viewer.setTransformValue
  split
  · exact h.changeSelectedColor _
  · exact h.changeSelectedColor _
  · exact h.changeSelectedColor _
  · split
    · rename_i item width height hselected hdimensions
      split
      · rename_i transform element htransform helement
        have hcanvas := h.canvas _ hdimensions
        refine saveProject (h.changeLayout fun other hother hlayout => ?_)
        have hedit := hfits item hselected _ hdimensions transform htransform other hother
        rw [Prod.mk.injEq] at hcanvas
        obtain ⟨rfl, rfl⟩ := hcanvas
        exact editedLayout_valid hlayout hedit
      · exact h
    · exact h

theorem beginDrag (h : viewer.Sound) {viewport : Vec2} {position : Point}
    (hpress : viewer.KeepsProject (.beginDrag viewport position)) :
    (viewer.beginDrag viewport position).Sound := by
  rw [Viewer.beginDrag]
  split
  · exact h
  · rename_i dimensions hdimensions
    split
    · exact h
    · rename_i frame hframe
      have hpress := hpress dimensions hdimensions frame hframe
      rw [selectsPressed] at hpress
      have hpressed : (∀ item ∈ viewer.pressedItem frame position, item ∈ viewer.ids) →
          ∀ dragOperation, Sound
            { viewer with
              selectedItem := viewer.pressedItem frame position
              dragOperation } := fun hselected dragOperation =>
        (h.select hselected).same ⟨rfl, rfl, rfl, rfl, rfl⟩
      dsimp only
      split
      · rename_i hnone
        rw [hnone] at hpress
        exact hpressed (hpress rfl) _
      · rename_i item hselected
        rw [hselected] at hpress
        split
        · exact h
        · rename_i transform htransform
          simp only [htransform] at hpress
          split
          · exact h.same ⟨rfl, rfl, rfl, rfl, rfl⟩
          · rename_i hcorner
            split
            · rename_i hhandle
              exact hpressed (hpress (by simp [hcorner, hhandle])) _
            · split
              · exact h
              · exact h.same ⟨rfl, rfl, rfl, rfl, rfl⟩

/-! ### Runs -/

theorem perform (h : viewer.Sound) {call : ViewerCall} (hok : viewer.KeepsProject call)
    (hperform : viewer.perform call = some viewer') : viewer'.Sound := by
  have hsome : ∀ next, viewer.perform call = some next → next.Sound → viewer'.Sound :=
    fun next hnext hsound => Option.some.inj (hnext.symm.trans hperform) ▸ hsound
  -- a call saves what it changes, or changes nothing that is saved
  cases call with
  | selectSceneItem item =>
    refine hsome _ rfl (saveProject (h.select ?_))
    rintro _ ⟨⟩
    exact hok
  | startSceneDrag item =>
    have hselected : Sound { viewer with selectedItem := some item } := h.select (by
      rintro _ ⟨⟩
      exact hok)
    exact hsome _ rfl (hselected.same ⟨rfl, rfl, rfl, rfl, rfl⟩)
  | dropSceneItem item =>
    have hselected : Sound { viewer with selectedItem := some item } := h.select (by
      rintro _ ⟨⟩
      exact hok)
    exact hsome _ rfl (saveProject (hselected.same ⟨rfl, rfl, rfl, rfl, rfl⟩))
  | dragSceneItemOver dragged destination => exact hsome _ rfl (h.dragSceneItemOver _ _)
  | deleteSelected => exact hsome _ rfl h.deleteSelected
  | moveSelected delta => exact hsome _ rfl (h.moveSelected hok)
  | focusTransformInput adjustment focused =>
    exact hsome _ rfl (h.same ⟨rfl, rfl, rfl, rfl, rfl⟩)
  | focusStreamUrl focused => exact hsome _ rfl (h.same ⟨rfl, rfl, rfl, rfl, rfl⟩)
  | setTransformValue adjustment value => exact hsome _ rfl (h.setTransformValue hok)
  | setSelectedColor color => exact hsome _ rfl (h.changeSelectedColor _)
  | beginDrag viewport position => exact hsome _ rfl (h.beginDrag hok)
  | dragInset viewport position => exact hsome _ rfl (h.dragInset hok)
  | endDrag => exact hsome _ rfl h.endDrag
  | addCaptureTarget targetIndex outcome => exact hsome _ rfl (h.addCaptureTarget hok _ _)
  | replaceSelectedCapture targetIndex outcome =>
    exact hsome _ rfl (h.replaceSelectedCapture _ _)
  | addColorSource => exact hsome _ rfl (h.addColorSource hok.1 hok.2)
  | cameraStarted start started =>
    rw [Viewer.perform] at hperform
    split at hperform
    · cases started with
      | true =>
        obtain rfl := Option.some.inj hperform
        refine same ?_ (cameraStarted _ _ _)
        exact h.same ⟨rfl, rfl, rfl, rfl, rfl⟩
      | false =>
        obtain rfl := Option.some.inj hperform
        refine same ?_ (cameraStarted _ _ _)
        exact h.same ⟨rfl, rfl, rfl, rfl, rfl⟩
    · cases hperform
  | captureFailed event outcome =>
    rw [Viewer.perform] at hperform
    split at hperform
    · obtain rfl := Option.some.inj hperform
      refine same ?_ (captureFailed _ _ _)
      exact h.same ⟨rfl, rfl, rfl, rfl, rfl⟩
    · cases hperform
  | captureReports source =>
    unfold Viewer.perform at hperform
    dsimp only at hperform
    split at hperform
    · obtain rfl := Option.some.inj hperform
      exact h.same ⟨rfl, rfl, rfl, rfl, rfl⟩
    · obtain rfl := Option.some.inj hperform
      exact h.same ⟨rfl, rfl, rfl, rfl, rfl⟩
    · cases hperform
  | renderReady => exact hsome _ rfl (h.same ⟨rfl, rfl, rfl, rfl, rfl⟩)
  | compose rendered =>
    simp only [Viewer.perform] at hperform
    split at hperform
    · split at hperform
      · obtain rfl := Option.some.inj hperform
        exact h.same ⟨rfl, rfl, rfl, rfl, rfl⟩
      · cases hperform
    · cases hperform
  | compositionReady =>
    obtain ⟨rendered, -, rfl⟩ := Option.map_eq_some_iff.1 hperform
    -- the canvas is as large as the composition that was shown last
    exact
      { scene := h.scene
        nextColorSourceId := h.nextColorSourceId
        selected := h.selected
        canvas := by
          rintro dimensions ⟨⟩
          rfl
        saved := h.saved }

theorem after (h : viewer.Sound) {call : ViewerCall} (hok : viewer.KeepsProject call)
    (hcall : viewer.after call = some viewer') : viewer'.Sound := by
  obtain ⟨performed, hperform, rfl⟩ := Option.map_eq_some_iff.1 hcall
  exact (h.perform hok hperform).same ⟨rfl, rfl, rfl, rfl, rfl⟩

end Sound

/-! ## Launch -/

theorem launchCaptures_same (initialSource : SourceId) (starts : SourceId → Bool)
    (targets : List CaptureTarget) :
    SameProject viewer (viewer.launchCaptures initialSource starts targets) := by
  induction targets generalizing viewer with
  | nil => exact ⟨rfl, rfl, rfl, rfl, rfl⟩
  | cons target targets ih =>
    rw [launchCaptures]
    dsimp only
    split
    · exact ih
    · exact
        { scene := ih.scene
          nextColorSourceId := ih.nextColorSourceId
          selectedItem := ih.selectedItem
          contentDimensions := ih.contentDimensions
          saved := ih.saved }

/-- A project with colors below the largest identifier. -/
def ColorsFit (project : Project) : Prop :=
  ∀ element ∈ project.elements, ∀ id value, element.source = .color id value → id < u64Max

theorem sound_launch (targets : List CaptureTarget) (target : CaptureTarget)
    (starts : SourceId → Bool) {loaded : Option Project}
    (hloaded : ∀ project ∈ loaded, project.isValid = true ∧ ColorsFit project) :
    (launch targets target starts loaded).Sound := by
  have hbefore : (beforeCaptures targets (launchScene target.id loaded)).Sound := by
    cases loaded with
    | none =>
      have hcolor : ∀ id, target.id = .color id → id < 1 := fun id hid =>
        absurd hid (target.id_ne_color id)
      have hscene := (Scene.Sound.new.add (by decide) fullCanvasLayout_valid hcolor).add
        (by decide : 2 < u64Max) insetLayout_valid hcolor
      exact
        { scene := hscene
          nextColorSourceId := (by decide : 1 ≤ u64Max)
          selected := by
            rintro _ ⟨⟩
            exact List.mem_cons_of_mem _ List.mem_cons_self
          canvas := nofun
          saved := nofun }
    | some project =>
      obtain ⟨hvalid, hcolors⟩ := hloaded project rfl
      rw [Project.isValid, Bool.and_eq_true, elementsValid_iff] at hvalid
      obtain ⟨⟨helements, hnodup⟩, hselected⟩ := hvalid
      obtain ⟨hscene, hnext⟩ := Scene.Sound.restore project.selectedItem hnodup
        fun element helement => by
          obtain ⟨hpos, hlt, -, hnumbers⟩ := helements element helement
          exact ⟨hpos, hlt, hnumbers, hcolors element helement⟩
      refine ⟨hscene, hnext, fun item hitem => ?_, nofun, nofun⟩
      have hids : (restoreProject project).scene.elements.map SceneElement.id =
          project.elements.map ProjectElement.id := by
        rw [restoreProject_elements project.elements project.selectedItem, List.map_map]
        rfl
      have hitem : item ∈ project.selectedItem := by
        rw [← restoreProject_selectedItem]
        exact hitem
      rw [Option.all_eq_true] at hselected
      change item ∈ (restoreProject project).scene.elements.map SceneElement.id
      rw [hids]
      exact of_decide_eq_true (hselected item hitem)
  have hlaunched := hbefore.same (launchCaptures_same target.id starts (target :: targets))
  exact hlaunched.same ⟨rfl, rfl, rfl, rfl, rfl⟩

end Viewer

/-- In every run that selects elements of the scene only, whose numbers fit, and that has
identifiers left, every project saved loads again. -/
theorem saved_project_loads {targets : List CaptureTarget} {target : CaptureTarget}
    {starts : SourceId → Bool} {loaded : Option Project}
    (hloaded : ∀ project ∈ loaded, project.isValid = true ∧ Viewer.ColorsFit project)
    {calls : List ViewerCall} {viewer : Viewer}
    (hrun : (viewerSystem.restrict Viewer.KeepsProject).Run
      (Viewer.launch targets target starts loaded) calls viewer) :
    ∀ project ∈ viewer.saved, project.Loadable := by
  have hstep : ∀ viewer call viewer', viewer.Sound →
      (viewerSystem.restrict Viewer.KeepsProject).step viewer call viewer' → viewer'.Sound :=
    fun _ _ _ h hcall => h.after hcall.1 hcall.2
  exact (hrun.invariant hstep (Viewer.sound_launch targets target starts hloaded)).saved

/-! ## A display twice -/

/-- The studio on a display, whose scene shows it on the whole canvas and again in the middle. -/
def oneDisplay : Viewer := .launch [.display 1] (.display 1) (fun _ => true) none

/-- The frame of the scene of `oneDisplay`. -/
def oneDisplayFrame : List RenderedElement :=
  [⟨1, (half, half), (.ofRat 1, .ofRat 1), .ofRat 0⟩,
    ⟨2, (half, half), (half, half), .ofRat 43.2⟩]

/-- A window in which the canvas is 960 pixels wide, and a place on both elements. -/
def window : Vec2 := (.ofRat 1472, .ofRat 540)

def onInset : Point := ⟨.ofRat 700, .ofRat 200⟩

/-- The inset is drawn, widened, rounded, moved and nudged, and a color is added. -/
def editInset : List ViewerCall :=
  [.renderReady, .compose oneDisplayFrame, .compositionReady, .selectSceneItem 2,
    .setTransformValue .width (.ofRat 1200), .setTransformValue .cornerRadius (.infinite false),
    .beginDrag window onInset, .dragInset window ⟨.ofRat 750, .ofRat 260⟩, .endDrag,
    .moveSelected (.ofRat 10, .ofRat 0), .addColorSource]

theorem saved_project_loads_editInset :
    ∃ viewer, oneDisplay.afterAll (fun viewer call => decide (viewer.KeepsProject call))
      editInset = some viewer ∧ ∀ project ∈ viewer.saved, project.Loadable := by
  have hsome : (oneDisplay.afterAll (fun viewer call => decide (viewer.KeepsProject call))
    editInset).isSome := by decide +kernel
  obtain ⟨viewer, hviewer⟩ := Option.isSome_iff_exists.1 hsome
  exact ⟨viewer, hviewer, saved_project_loads (fun _ hproject => by cases hproject)
    (Viewer.run_afterAll (fun _ _ h => of_decide_eq_true h) hviewer)⟩

/-- The inset is deleted before the frame with it is shown, and the pointer takes hold of it. -/
def pressDeleted : List ViewerCall :=
  [.renderReady, .compose oneDisplayFrame, .deleteSelected, .compositionReady,
    .beginDrag window onInset, .endDrag]

/-- The project saved has the deleted inset selected, so that it is not loaded again. -/
theorem pressed_deleted_not_loadable :
    ¬ ∀ targets target starts loaded calls viewer, target ∈ targets → starts target.id = true →
      (∀ project ∈ loaded, Project.isValid project = true) →
        viewerSystem.Run (Viewer.launch targets target starts loaded) calls viewer →
          ∀ project ∈ viewer.saved, project.Loadable := by
  intro h
  have hpressed : (oneDisplay.afterAll (fun _ _ => true) pressDeleted).map (fun viewer =>
      viewer.saved.map Project.isValid) = some (some false) := by decide +kernel
  obtain ⟨viewer, hviewer, hsaved⟩ := Option.map_eq_some_iff.1 hpressed
  obtain ⟨project, hproject, hinvalid⟩ := Option.map_eq_some_iff.1 hsaved
  have hloadable := h _ (.display 1) _ none _ viewer List.mem_cons_self rfl
    (fun _ hproject => by cases hproject) (Viewer.run_afterAll (fun _ _ _ => trivial) hviewer).of_restrict project hproject
  exact absurd (hloadable.valid.symm.trans hinvalid) (by decide)

end Blip.Studio
