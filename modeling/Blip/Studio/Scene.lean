import Blip.Studio.Project
import Mathlib.Data.List.Induction

/-!
# Changes of a scene

What the operations on a scene do to its elements and to the sources in use.
-/

namespace Blip.Studio.Scene

variable {scene scene' : Scene} {source : SourceId} {id : ElementId}

theorem usesSource_iff :
    scene.usesSource source = true ↔ ∃ element ∈ scene.elements, element.source = source := by
  simp [usesSource]

theorem usesSource_add (layout : ItemLayout) (added : SourceId) :
    (scene.add added layout).2.usesSource source = true ↔
      scene.usesSource source = true ∨ source = added := by
  rw [usesSource_iff, usesSource_iff, add]
  constructor
  · rintro ⟨element, helement, rfl⟩
    rcases List.mem_append.1 helement with helement | helement
    · exact .inl ⟨element, helement, rfl⟩
    · exact .inr (by rw [List.mem_singleton.1 helement])
  · rintro (⟨element, helement, rfl⟩ | rfl)
    · exact ⟨element, List.mem_append_left _ helement, rfl⟩
    · exact ⟨_, List.mem_append_right _ List.mem_cons_self, rfl⟩

theorem element_eq_some {element : SceneElement} (h : scene.element id = some element) :
    element ∈ scene.elements ∧ element.id = id :=
  ⟨List.mem_of_find?_eq_some h, by simpa using List.find?_some h⟩

/-- An element is taken out and the others stay in order. -/
theorem remove_eq_some {removed : SceneElement} (h : scene.remove id = (some removed, scene')) :
    ∃ before after, scene.elements = before ++ removed :: after ∧ removed.id = id ∧
      (∀ element ∈ before, element.id ≠ id) ∧ scene' = { scene with elements := before ++ after } := by
  rw [remove, Prod.mk.injEq, element, List.find?_eq_some_iff_append] at h
  obtain ⟨⟨hid, before, after, helements, hbefore⟩, rfl⟩ := h
  have hid : removed.id = id := by simpa using hid
  have hbefore : ∀ element ∈ before, element.id ≠ id := by simpa using hbefore
  refine ⟨before, after, helements, hid, hbefore, ?_⟩
  rw [helements, List.eraseP_append_right _ (by simpa using hbefore), List.eraseP_cons_of_pos]
  simpa using hid

/-- An element that is moved is taken out and put in elsewhere. -/
theorem moveToIndex_eq_some {index : ℕ} (h : scene.moveToIndex id index = some scene') :
    scene'.elements.Perm scene.elements ∧ scene'.nextId = scene.nextId := by
  rw [moveToIndex] at h
  split at h
  · cases h
  · rename_i current hcurrent
    dsimp only at h
    split at h
    · cases h
    · obtain ⟨element, helement, rfl⟩ := Option.map_eq_some_iff.1 h
      obtain ⟨hlt, rfl⟩ := List.getElem?_eq_some_iff.1 helement
      refine ⟨?_, rfl⟩
      have hlength : min index (scene.elements.length - 1) ≤
          (scene.elements.eraseIdx current).length := by
        rw [List.length_eraseIdx_of_lt hlt]
        omega
      exact (List.perm_insertIdx _ _ hlength).trans (List.getElem_cons_eraseIdx_perm hlt)

theorem usesSource_congr (h : scene'.elements.Perm scene.elements) :
    scene'.usesSource source = scene.usesSource source :=
  Bool.eq_iff_iff.2 (by simp only [usesSource_iff, h.mem_iff])

theorem usesSource_remove {removed : SceneElement} (h : scene.remove id = (some removed, scene')) :
    scene.usesSource source = true ↔ scene'.usesSource source = true ∨ source = removed.source := by
  obtain ⟨before, after, helements, -, -, rfl⟩ := remove_eq_some h
  simp only [usesSource_iff, helements, List.mem_append, List.mem_cons]
  constructor
  · rintro ⟨element, helement | rfl | helement, rfl⟩
    · exact .inl ⟨element, .inl helement, rfl⟩
    · exact .inr rfl
    · exact .inl ⟨element, .inr helement, rfl⟩
  · rintro (⟨element, helement | helement, rfl⟩ | rfl)
    · exact ⟨element, .inl helement, rfl⟩
    · exact ⟨element, .inr (.inr helement), rfl⟩
    · exact ⟨removed, .inr (.inl rfl), rfl⟩

/-! ## Changing an element -/

section

variable {change : SceneElement → SceneElement}

/-- The first element with an identifier is changed and the others stay. -/
theorem modifyElement_eq_some {element : SceneElement} (h : scene.element id = some element) :
    ∃ before after, scene.elements = before ++ element :: after ∧ element.id = id ∧
      (∀ other ∈ before, other.id ≠ id) ∧
      scene.modifyElement id change =
        { scene with elements := before ++ change element :: after } := by
  rw [Scene.element, List.find?_eq_some_iff_append] at h
  obtain ⟨hid, before, after, helements, hdistinct⟩ := h
  have hid : element.id = id := by simpa using hid
  have hbefore : ∀ other ∈ before, other.id ≠ id := by simpa using hdistinct
  clear hdistinct
  refine ⟨before, after, helements, hid, hbefore, ?_⟩
  rw [modifyElement, helements]
  congr 1
  clear helements
  induction before with
  | nil => rw [List.nil_append, modifyElement.go, if_pos hid, List.nil_append]
  | cons other before ih =>
    rw [List.cons_append, modifyElement.go, if_neg (hbefore other List.mem_cons_self),
      ih fun other hother => hbefore other (List.mem_cons_of_mem _ hother), List.cons_append]

theorem modifyElement_eq_none (h : scene.element id = none) :
    scene.modifyElement id change = scene := by
  rw [Scene.element, List.find?_eq_none] at h
  have hgo : ∀ elements : List SceneElement, (∀ element ∈ elements, element.id ≠ id) →
      modifyElement.go id change elements = elements := by
    intro elements helements
    induction elements with
    | nil => rfl
    | cons element elements ih =>
      rw [modifyElement.go, if_neg (helements element List.mem_cons_self),
        ih fun other hother => helements other (List.mem_cons_of_mem _ hother)]
  rw [modifyElement, hgo _ (by simpa using h)]

/-- Changes of an element that keep its source do not change the sources in use. -/
theorem usesSource_modifyElement (hchange : ∀ element, (change element).source = element.source) :
    (scene.modifyElement id change).usesSource source = scene.usesSource source := by
  cases helement : scene.element id with
  | none => rw [modifyElement_eq_none helement]
  | some element =>
    obtain ⟨before, after, helements, -, -, hscene⟩ := modifyElement_eq_some helement
    rw [hscene, usesSource, usesSource, helements]
    simp [hchange]

/-- Another source takes the place of that of an element. -/
theorem usesSource_replaceSource {element : SceneElement} (h : scene.element id = some element)
    (replacement : SourceId) :
    scene.usesSource source = true ∨ source = replacement ↔
      (scene.replaceSource id replacement).usesSource source = true ∨ source = element.source := by
  obtain ⟨before, after, helements, -, -, hscene⟩ :=
    @modifyElement_eq_some scene id ({ · with source := replacement }) element h
  rw [replaceSource, hscene]
  simp only [usesSource, helements, List.any_append, List.any_cons, Bool.or_eq_true,
    decide_eq_true_eq, @eq_comm _ source replacement, @eq_comm _ source element.source]
  grind

end

end Blip.Studio.Scene

namespace Blip.Studio

/-! ## Restoring a project -/

/-- The source that a project's source stands for. -/
def ProjectSource.sourceId : ProjectSource → SourceId
  | display id => .display id
  | window id => .window id
  | camera id => .camera id
  | color id _ => .color id

/-- The element of the scene that a project's element stands for. -/
def ProjectElement.sceneElement (element : ProjectElement) : SceneElement where
  id := element.id
  source := element.source.sourceId
  layout := ⟨element.center, element.size, element.cornerRadiusRatio⟩

theorem restoreElement_scene (restored : Restored) (element : ProjectElement) :
    (restoreElement restored element).scene =
      ⟨restored.scene.elements ++ [element.sceneElement],
        max restored.scene.nextId (saturatingSucc element.id)⟩ := by
  rcases element with ⟨id, source, center, size, cornerRadiusRatio⟩
  cases source <;> rfl

theorem restoreProject_append (elements : List ProjectElement) (element : ProjectElement)
    (selectedItem : Option ElementId) :
    restoreProject ⟨elements ++ [element], selectedItem⟩ =
      restoreElement (restoreProject ⟨elements, selectedItem⟩) element := by
  rw [restoreProject, List.foldl_append, restoreProject]
  rfl

/-- The scene restored has the elements of the project. -/
theorem restoreProject_elements (elements : List ProjectElement)
    (selectedItem : Option ElementId) :
    (restoreProject ⟨elements, selectedItem⟩).scene.elements =
      elements.map ProjectElement.sceneElement := by
  induction elements using List.reverseRecOn with
  | nil => rfl
  | append_singleton elements element ih =>
    rw [restoreProject_append, restoreElement_scene, ih, List.map_append]
    rfl

/-- The color table restored has the color sources in use. -/
theorem restoreProject_colors (elements : List ProjectElement) (selectedItem : Option ElementId)
    (source : SourceId) :
    ((restoreProject ⟨elements, selectedItem⟩).colors source).isSome = true ↔
      (restoreProject ⟨elements, selectedItem⟩).scene.usesSource source = true ∧
        source.IsColor := by
  induction elements using List.reverseRecOn with
  | nil => simp [restoreProject, Scene.usesSource, Scene.new]
  | append_singleton elements element ih =>
    have huses : (restoreProject ⟨elements ++ [element], selectedItem⟩).scene.usesSource source =
        true ↔ (restoreProject ⟨elements, selectedItem⟩).scene.usesSource source = true ∨
          source = element.source.sourceId := by
      rw [restoreProject_append, restoreElement_scene, Scene.usesSource_iff, Scene.usesSource_iff]
      simp [or_and_right, exists_or, ProjectElement.sceneElement, eq_comm]
    rw [huses, restoreProject_append]
    rcases element with ⟨id, element, center, size, cornerRadiusRatio⟩
    cases element with
    | color id value =>
      by_cases hsource : source = .color id
      · subst hsource
        simp [restoreElement, ProjectSource.sourceId, SourceId.IsColor]
      · simpa [restoreElement, hsource, ProjectSource.sourceId] using ih
    | display id | window id | camera id =>
      refine ih.trans ⟨fun h => ⟨.inl h.1, h.2⟩, ?_⟩
      rintro ⟨huses | rfl, hcolor⟩
      · exact ⟨huses, hcolor⟩
      · exact absurd hcolor (by simp [ProjectSource.sourceId, SourceId.IsColor])

end Blip.Studio
