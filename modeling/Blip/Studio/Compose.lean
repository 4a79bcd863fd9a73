import Blip.Common.FirstUse
import Blip.Compositor.Pictures
import Blip.Studio.Inspector

/-!
# Composing a scene

`compose_scene` of the viewer and `compose` of the headless program: each source that has a frame goes to
the compositor once, however many elements show it, and the items refer to it by its index. What is drawn
is every element by itself, in the order of the scene. Numbers are exact.
-/

namespace Blip.Studio.Exact

open Compositor (CompositorSource CompositorItem OwnContent Gpu PixelBuffer RenderFailure Vec4
    renderItems)

variable {Frame : Type}

/-! ## The viewer -/

/-- The newest frame of a source; a frame has pixels. -/
structure SourceFrame (Frame : Type) where
  pixelBuffer : PixelBuffer Frame
  contentRect : Option Capture.ContentRect
  dimensions : ℚ × ℚ
  dimensions_pos : 0 < dimensions.1 ∧ 0 < dimensions.2

/-- The frames of the captures; a color has none. -/
structure SourceFrames (Frame : Type) where
  frame : SourceId → Option (SourceFrame Frame)
  color : ∀ id, frame (.color id) = none

/-- A `SceneElement`. -/
structure PlacedElement where
  id : ElementId
  source : SourceId
  layout : ItemLayout

/-- A `RenderedElement`. -/
structure PlacedTransform where
  id : ElementId
  transform : ItemTransform
deriving DecidableEq

def SourceFrame.source (frame : SourceFrame Frame) : CompositorSource Frame where
  pixelBuffer := frame.pixelBuffer
  contentRect := frame.contentRect

/-- `normalized_color`. -/
def normalizedColor (color : Rgb) : Vec4 :=
  (color.1 / 255, color.2.1 / 255, color.2.2 / 255, 1)

/-- Where an element is on the canvas, with a source of a size. -/
def placedTransform (layout : ItemLayout) (source : ℚ × ℚ) (canvas : ℕ × ℕ) : ItemTransform :=
  let size := aspectFitSize layout.size source (canvas.1, canvas.2)
  { center := layout.center
    size
    cornerRadius := min (size.1 * canvas.1) (size.2 * canvas.2) * layout.cornerRadiusRatio }

/-- `element_transform`. -/
def elementTransform (layout : ItemLayout) (source : ℚ × ℚ) (canvas : ℕ × ℕ) :
    Except RenderFailure ItemTransform :=
  if 2 ^ 32 ≤ canvas.1 then .error (.error "canvas width exceeds u32")
  else if 2 ^ 32 ≤ canvas.2 then .error (.error "canvas height exceeds u32")
  else .ok (placedTransform layout source canvas)

/-- The item of the compositor for a transform. -/
def ItemTransform.item (transform : ItemTransform) : Compositor.ItemTransform :=
  { Compositor.ItemTransform.new transform.center transform.size with
    cornerRadius := transform.cornerRadius }

variable (frames : SourceFrames Frame) (colors : Colors) (canvas : ℕ × ℕ)

/-- The content of an element and the size of its source, with the indices of the sources. -/
def elementContent (table : FirstUse SourceId) (element : PlacedElement) :
    Option (Compositor.CompositorItemContent × (ℚ × ℚ)) :=
  match element.source with
  | .color id => (colors (.color id)).map fun color =>
      (.color (normalizedColor color), (canvas.1, canvas.2))
  | source =>
    match table.index source, frames.frame source with
    | some index, some frame => some (.source index, frame.dimensions)
    | _, _ => none

/-- The body of the loop of `compose_scene`; `none` is its `continue`. -/
def composeElement (table : FirstUse SourceId) (element : PlacedElement) :
    Except RenderFailure (Option (CompositorItem × PlacedTransform)) :=
  match elementContent frames colors canvas table element with
  | none => .ok none
  | some (content, dimensions) => do
    let transform ← elementTransform element.layout dimensions canvas
    let cornerScale : ℚ := canvas.1 / canvas.1
    let scaled := { transform with cornerRadius := transform.cornerRadius * cornerScale }
    return some (⟨content, scaled.item⟩, ⟨element.id, transform⟩)

/-- The sources of the elements that have a frame, with their indices. -/
def sourceTable (elements : List PlacedElement) : FirstUse SourceId :=
  .ofUsed (fun source => (frames.frame source).isSome) (elements.map PlacedElement.source)

/-- `compose_scene`. -/
def composeScene (gpu : Gpu Frame) (elements : List PlacedElement)
    (lockedDimensions : Option (ℕ × ℕ)) :
    Except RenderFailure (PixelBuffer Frame × (ℕ × ℕ) × List PlacedTransform) := do
  let canvas := lockedDimensions.getD defaultCanvasDimensions
  let table := sourceTable frames elements
  let sources := (table.keys.filterMap frames.frame).map SourceFrame.source
  let drawn ← elements.mapM (composeElement frames colors canvas table)
  let items := drawn.reduceOption
  let image ← Compositor.render gpu sources (items.map Prod.fst) canvas
  return (image, canvas, items.map Prod.snd)

/-! ## The headless program -/

/-- A `SourceDefinition`; which camera it names is left out. -/
inductive SourceDefinition
  | camera
  | color (rgb : Rgb)

structure ElementDefinition where
  source : String
  center : ℚ × ℚ
  size : ℚ × ℚ
  cornerRadius : ℚ

structure SceneGraph where
  canvas : ℕ × ℕ
  sources : String → Option SourceDefinition
  elements : List ElementDefinition

/-- The frames of the cameras of a scene. -/
structure CameraFrames (graph : SceneGraph) (Frame : Type) where
  frame : String → Option (PixelBuffer Frame)
  camera : ∀ source, (frame source).isSome → graph.sources source = some .camera

def ElementDefinition.transform (element : ElementDefinition) : Compositor.ItemTransform :=
  { Compositor.ItemTransform.new element.center element.size with
    cornerRadius := element.cornerRadius }

def cameraTable (graph : SceneGraph) (frames : CameraFrames graph Frame) : FirstUse String :=
  .ofUsed (fun source => (frames.frame source).isSome) (graph.elements.map ElementDefinition.source)

/-- An element as an item, with the indices of the sources. -/
def composeItem (graph : SceneGraph) (table : FirstUse String) (element : ElementDefinition) :
    Option CompositorItem :=
  match graph.sources element.source with
  | none => none
  | some .camera => (table.index element.source).map fun index => ⟨.source index, element.transform⟩
  | some (.color rgb) => some ⟨.color (normalizedColor rgb), element.transform⟩

/-- The picture of `compose`. -/
def compose (gpu : Gpu Frame) (graph : SceneGraph) (frames : CameraFrames graph Frame) :
    Except RenderFailure (PixelBuffer Frame) :=
  let table := cameraTable graph frames
  let sources := (table.keys.filterMap frames.frame).map fun buffer => CompositorSource.mk buffer none
  Compositor.render gpu sources (graph.elements.filterMap (composeItem graph table)) graph.canvas

/-! ## Every element by itself -/

/-- The content of an element with the frame of its own source. -/
def ownContent (element : PlacedElement) : Option (OwnContent Frame × (ℚ × ℚ)) :=
  match element.source with
  | .color id => (colors (.color id)).map fun color =>
      (.color (normalizedColor color), (canvas.1, canvas.2))
  | source => (frames.frame source).map fun frame => (.source frame.source, frame.dimensions)

/-- What an element shows and where; `none` without a frame or a color. -/
def shownElement (element : PlacedElement) : Option (OwnContent Frame × PlacedTransform) :=
  (ownContent frames colors canvas element).map fun (content, dimensions) =>
    (content, ⟨element.id, placedTransform element.layout dimensions canvas⟩)

/-- What a definition of the headless program shows. -/
def ElementDefinition.shown {graph : SceneGraph} (frames : CameraFrames graph Frame)
    (element : ElementDefinition) : Option (OwnContent Frame × Compositor.ItemTransform) :=
  match graph.sources element.source with
  | none => none
  | some .camera => (frames.frame element.source).map fun buffer =>
      (.source ⟨buffer, none⟩, element.transform)
  | some (.color rgb) => some (.color (normalizedColor rgb), element.transform)

/-! ## The sources -/

section

variable {K Source : Type} [DecidableEq K] {value : K → Option Source} {keys : List K}

/-- A key of the list that has a value is found by its index, and a key without one has none. -/
theorem index_cases (toSource : Source → CompositorSource Frame) {key : K} (hkey : key ∈ keys) :
    let table : FirstUse K := .ofUsed (fun key => (value key).isSome) keys
    (table.index key = none ∧ value key = none) ∨
      ∃ index found, table.index key = some index ∧ value key = some found ∧
        Compositor.resolve ((table.keys.filterMap value).map toSource) (.source index) =
          some (.source (toSource found)) := by
  have hindex := FirstUse.index_ofUsed (fun key => (value key).isSome) hkey
  dsimp only
  cases hplace : (FirstUse.ofUsed (fun key => (value key).isSome) keys).index key with
  | none =>
    rw [hplace] at hindex
    exact .inl ⟨rfl, Option.isNone_iff_eq_none.1 (by simpa using hindex.symm)⟩
  | some index =>
    rw [hplace] at hindex
    obtain ⟨found, hfound⟩ := Option.isSome_iff_exists.1 hindex.symm
    refine .inr ⟨index, found, rfl, hfound, ?_⟩
    have hvalue := FirstUse.value_ofUsed value keys hplace
    rw [Compositor.resolve, List.getElem?_map, hvalue, hfound]
    rfl

/-- Every source is that of a key of the list. -/
theorem source_of_index {index : ℕ}
    (hindex : index <
      ((FirstUse.ofUsed (fun key => (value key).isSome) keys).keys.filterMap value).length) :
    ∃ key ∈ keys, (value key).isSome = true ∧
      (FirstUse.ofUsed (fun key => (value key).isSome) keys).index key = some index := by
  have hlength := List.length_filterMap_le value
    (FirstUse.ofUsed (fun key => (value key).isSome) keys).keys
  obtain ⟨hkey, hused⟩ := (FirstUse.mem_ofUsed _ _ _).1 (List.getElem_mem (hindex.trans_le hlength))
  exact ⟨_, hkey, hused, ((FirstUse.sound_ofUsed _ _).index _ _).2
    (List.getElem?_eq_getElem (hindex.trans_le hlength))⟩

end

/-! ## What is drawn -/

section

variable {frames : SourceFrames Frame} {colors : Colors} {canvas : ℕ × ℕ} {elements : List PlacedElement}

/-- What the loop makes of an element whose canvas has a size. -/
def drawnElement (frames : SourceFrames Frame) (colors : Colors) (canvas : ℕ × ℕ)
    (table : FirstUse SourceId) (element : PlacedElement) : Option (CompositorItem × PlacedTransform) :=
  (elementContent frames colors canvas table element).map fun (content, dimensions) =>
    let transform := placedTransform element.layout dimensions canvas
    (⟨content, transform.item⟩, ⟨element.id, transform⟩)

theorem composeElement_eq (hcanvas : 0 < canvas.1) (hwidth : canvas.1 < 2 ^ 32)
    (hheight : canvas.2 < 2 ^ 32) (table : FirstUse SourceId) (element : PlacedElement) :
    composeElement frames colors canvas table element =
      .ok (drawnElement frames colors canvas table element) := by
  have hscale : (canvas.1 : ℚ) / canvas.1 = 1 := div_self (Nat.cast_ne_zero.2 hcanvas.ne')
  unfold composeElement drawnElement elementTransform
  cases elementContent frames colors canvas table element with
  | none => rfl
  | some content =>
    simp only [Nat.not_le.2 hwidth, Nat.not_le.2 hheight, if_false, hscale, mul_one, bind, Except.bind]
    rfl

/-- An element refers to the content that it has by itself. -/
theorem elementContent_cases {element : PlacedElement} (helement : element ∈ elements) :
    (elementContent frames colors canvas (sourceTable frames elements) element = none ∧
        ownContent frames colors canvas element = none) ∨
      ∃ content own dimensions,
        elementContent frames colors canvas (sourceTable frames elements) element =
            some (content, dimensions) ∧
          ownContent frames colors canvas element = some (own, dimensions) ∧
          Compositor.resolve (((sourceTable frames elements).keys.filterMap frames.frame).map
            SourceFrame.source) content = some own := by
  have hmem : element.source ∈ elements.map PlacedElement.source := List.mem_map_of_mem helement
  have hindex := @index_cases Frame _ _ _ frames.frame _ SourceFrame.source _ hmem
  unfold elementContent ownContent
  cases hsource : element.source with
  | color id =>
    cases hcolor : colors (.color id) with
    | none => exact .inl ⟨by simp [hcolor], by simp [hcolor]⟩
    | some color =>
      exact .inr ⟨.color (normalizedColor color), .color (normalizedColor color), (canvas.1, canvas.2),
        by simp [hcolor], by simp [hcolor], rfl⟩
  | display id | window id | camera id =>
    rw [hsource] at hindex
    rcases hindex with ⟨hnone, hframe⟩ | ⟨index, frame, hsome, hframe, hresolve⟩
    · simp [sourceTable, hnone, hframe]
    · exact .inr ⟨.source index, .source frame.source, frame.dimensions,
        by simp [sourceTable, hsome, hframe],
        by simp [hframe], hresolve⟩

theorem shownElement_cases {element : PlacedElement} (helement : element ∈ elements) :
    (drawnElement frames colors canvas (sourceTable frames elements) element = none ∧
        shownElement frames colors canvas element = none) ∨
      ∃ drawn shown,
        drawnElement frames colors canvas (sourceTable frames elements) element = some drawn ∧
          shownElement frames colors canvas element = some shown ∧
          Compositor.Refers (((sourceTable frames elements).keys.filterMap frames.frame).map
            SourceFrame.source) drawn.1 (shown.1, shown.2.transform.item) ∧ drawn.2 = shown.2 := by
  unfold drawnElement shownElement
  rcases elementContent_cases helement with
    ⟨hnone, hnone'⟩ | ⟨content, own, dimensions, hsome, hown, hresolve⟩
  · rw [hnone, hnone']
    exact .inl ⟨rfl, rfl⟩
  · rw [hsome, hown]
    exact .inr ⟨_, _, rfl, rfl, ⟨hresolve, rfl⟩, rfl⟩

/-- Every source is that of an item. -/
theorem sources_used {index : ℕ}
    (hindex : index < ((sourceTable frames elements).keys.filterMap frames.frame).length) :
    ∃ drawn ∈ elements.filterMap (drawnElement frames colors canvas (sourceTable frames elements)),
      drawn.1.content = .source index := by
  obtain ⟨source, hsource, hframe, hplace⟩ := source_of_index hindex
  obtain ⟨element, helement, rfl⟩ := List.mem_map.1 hsource
  obtain ⟨frame, hframe⟩ := Option.isSome_iff_exists.1 hframe
  have hcontent : elementContent frames colors canvas (sourceTable frames elements) element =
      some (.source index, frame.dimensions) := by
    have hplace' : (sourceTable frames elements).index element.source = some index := hplace
    unfold elementContent
    cases hkind : element.source with
    | color id =>
      rw [hkind, frames.color] at hframe
      cases hframe
    | display id | window id | camera id =>
      rw [hkind] at hframe hplace'
      simp [hframe, hplace']
  exact ⟨_, List.mem_filterMap.2 ⟨element, helement, by rw [drawnElement, hcontent]; rfl⟩, rfl⟩

variable (frames colors canvas elements) in
/-- The items, and where they are, are those of the elements that are shown. -/
theorem drawn_refer :
    List.Forall₂
      (fun (drawn : CompositorItem × PlacedTransform) (shown : OwnContent Frame × PlacedTransform) =>
        Compositor.Refers (((sourceTable frames elements).keys.filterMap frames.frame).map
          SourceFrame.source) drawn.1 (shown.1, shown.2.transform.item) ∧ drawn.2 = shown.2)
      (elements.filterMap (drawnElement frames colors canvas (sourceTable frames elements)))
      (elements.filterMap (shownElement frames colors canvas)) :=
  forall₂_filterMap fun _ => shownElement_cases

end

theorem shown_sublist (frames : SourceFrames Frame) (colors : Colors) (canvas : ℕ × ℕ)
    (elements : List PlacedElement) :
    ((elements.filterMap (shownElement frames colors canvas)).map fun item => item.2.id).Sublist
      (elements.map PlacedElement.id) := by
  induction elements with
  | nil => exact .slnil
  | cons element elements ih =>
    cases hshown : shownElement frames colors canvas element with
    | none =>
      rw [List.filterMap_cons_none hshown]
      exact ih.cons _
    | some shown =>
      obtain ⟨own, _, rfl⟩ := Option.map_eq_some_iff.1 hshown
      rw [List.filterMap_cons_some hshown]
      exact ih.cons_cons _

/-- Composing a scene draws every element that has a frame or a color by itself, with that frame, in the
order of the scene; it tells of each where it is, and no frame is given to the compositor twice. -/
theorem compose_scene_draws (gpu : Gpu Frame) (frames : SourceFrames Frame) (colors : Colors)
    (elements : List PlacedElement) (lockedDimensions : Option (ℕ × ℕ))
    (hlocked : ∀ canvas ∈ lockedDimensions, 0 < canvas.1 ∧ canvas.1 < 2 ^ 32 ∧ canvas.2 < 2 ^ 32)
    (image : PixelBuffer Frame) (dimensions : ℕ × ℕ) (rendered : List PlacedTransform) :
    let canvas := lockedDimensions.getD defaultCanvasDimensions
    let shown := elements.filterMap (shownElement frames colors canvas)
    (composeScene frames colors gpu elements lockedDimensions = .ok (image, dimensions, rendered) ↔
      dimensions = canvas ∧ rendered = shown.map Prod.snd ∧
        renderItems gpu .black (shown.map fun item => (item.1, item.2.transform.item)) canvas =
          .ok image) ∧
    (shown.map fun item => item.2.id).Sublist (elements.map PlacedElement.id) ∧
    (sourceTable frames elements).keys.Nodup := by
  intro canvas shown
  obtain ⟨hpos, hwidth, hheight⟩ : 0 < canvas.1 ∧ canvas.1 < 2 ^ 32 ∧ canvas.2 < 2 ^ 32 := by
    cases lockedDimensions with
    | none => exact ⟨by decide, by decide, by decide⟩
    | some dimensions => exact hlocked dimensions rfl
  refine ⟨?_, shown_sublist frames colors canvas elements, (FirstUse.sound_ofUsed _ _).nodup⟩
  have hdrawn : elements.mapM (composeElement frames colors canvas (sourceTable frames elements)) =
      .ok (elements.map (drawnElement frames colors canvas (sourceTable frames elements))) := by
    rw [mapM_eq_ok, List.forall₂_map_right_iff, List.forall₂_same]
    exact fun element _ => composeElement_eq hpos hwidth hheight _ element
  have hrefer := drawn_refer frames colors canvas elements
  have hrendered :
      (elements.filterMap (drawnElement frames colors canvas (sourceTable frames elements))).map
      Prod.snd = shown.map Prod.snd := by
    rw [← List.forall₂_eq_eq_eq, List.forall₂_map_left_iff, List.forall₂_map_right_iff]
    exact hrefer.imp fun _ _ h => h.2
  have hrender : Compositor.render gpu (((sourceTable frames elements).keys.filterMap frames.frame).map
        SourceFrame.source) ((elements.filterMap (drawnElement frames colors canvas
        (sourceTable frames elements))).map Prod.fst) canvas = .ok image ↔
      renderItems gpu .black (shown.map fun item => (item.1, item.2.transform.item)) canvas =
        .ok image :=
    Compositor.renderWithClearColor_eq_ok
      (List.forall₂_map_left_iff.2 (List.forall₂_map_right_iff.2 (hrefer.imp fun _ _ h => h.1)))
      fun index hindex => by
        obtain ⟨drawn, hmem, hcontent⟩ := sources_used (List.length_map _ ▸ hindex)
        exact ⟨_, List.mem_map_of_mem hmem, hcontent⟩
  have hitems :
      (elements.map (drawnElement frames colors canvas (sourceTable frames elements))).reduceOption =
      elements.filterMap (drawnElement frames colors canvas (sourceTable frames elements)) := by
    change (elements.map _).filterMap id = _
    rw [List.filterMap_map, Function.id_comp]
  have hcompose : composeScene frames colors gpu elements lockedDimensions =
      (Compositor.render gpu (((sourceTable frames elements).keys.filterMap frames.frame).map
        SourceFrame.source) ((elements.filterMap (drawnElement frames colors canvas
        (sourceTable frames elements))).map Prod.fst) canvas).map
        fun image => (image, canvas, shown.map Prod.snd) := by
    unfold composeScene
    simp only [canvas, bind, Except.bind] at hdrawn hitems hrendered ⊢
    rw [hdrawn]
    simp only [hitems, hrendered]
    cases Compositor.render gpu _ _ _ <;> rfl
  rw [hcompose, ← hrender]
  cases Compositor.render gpu _ _ canvas with
  | error failure => simp [Except.map]
  | ok picture =>
    simp only [Except.map, Except.ok.injEq, Prod.mk.injEq]
    constructor
    · rintro ⟨rfl, rfl, rfl⟩
      exact ⟨rfl, rfl, rfl⟩
    · rintro ⟨rfl, rfl, rfl⟩
      exact ⟨rfl, rfl, rfl⟩

/-- Two elements that show the same display, one over the other. -/
def twice : List PlacedElement :=
  [⟨1, .display 7, ⟨(1 / 2, 1 / 2), (1, 1), 0⟩⟩, ⟨2, .display 7, ⟨(1 / 2, 1 / 2), (1, 1), 0⟩⟩]

/-- Only the display has a frame. -/
def displayFrame : SourceFrames Unit where
  frame := fun source =>
    if source = .display 7 then some
      { pixelBuffer := ⟨.frame (), Compositor.kCVPixelFormatType_32BGRA, 2560, 1440, []⟩
        contentRect := none
        dimensions := (2560, 1440)
        dimensions_pos := ⟨by norm_num, by norm_num⟩ }
    else none
  color := fun _ => rfl

/-- The frame of the display is given to the compositor once, and drawn twice. -/
theorem compose_scene_draws_twice : ∃ (gpu : Gpu Unit) (image : PixelBuffer Unit)
    (rendered : List PlacedTransform), rendered.length = 2 ∧
      composeScene displayFrame (fun _ => none) gpu twice none = .ok (image, (1920, 1080), rendered) := by
  let gpu : Gpu Unit := ⟨fun _ => none, fun _ _ => none, fun _ => none⟩
  have hrender : (renderItems gpu .black ((twice.filterMap
      (shownElement displayFrame (fun _ => none) defaultCanvasDimensions)).map fun item =>
        (item.1, item.2.transform.item)) defaultCanvasDimensions).toBool = true := by decide +kernel
  cases himage : renderItems gpu .black ((twice.filterMap
      (shownElement displayFrame (fun _ => none) defaultCanvasDimensions)).map fun item =>
        (item.1, item.2.transform.item)) defaultCanvasDimensions with
  | error failure =>
    rw [himage] at hrender
    cases hrender
  | ok image =>
    exact ⟨gpu, image, _, rfl, (compose_scene_draws gpu displayFrame (fun _ => none) twice none nofun image
      (1920, 1080) _).1.2 ⟨rfl, rfl, himage⟩⟩

/-- What the headless program composes are its elements, each by itself. -/
theorem compose_draws (gpu : Gpu Frame) (graph : SceneGraph) (frames : CameraFrames graph Frame)
    (image : PixelBuffer Frame) : compose gpu graph frames = .ok image ↔
      renderItems gpu .black (graph.elements.filterMap (ElementDefinition.shown frames)) graph.canvas =
        .ok image := by
  refine Compositor.renderWithClearColor_eq_ok (forall₂_filterMap fun element helement => ?_)
    fun index hindex => ?_
  · have hmem : element.source ∈ graph.elements.map ElementDefinition.source :=
      List.mem_map_of_mem helement
    have hindex := @index_cases Frame _ _ _ frames.frame _ (fun buffer => ⟨buffer, none⟩) _ hmem
    unfold composeItem ElementDefinition.shown
    cases graph.sources element.source with
    | none => exact .inl ⟨rfl, rfl⟩
    | some definition =>
      cases definition with
      | color rgb => exact .inr ⟨_, _, rfl, rfl, rfl, rfl⟩
      | camera =>
        rcases hindex with ⟨hnone, hframe⟩ | ⟨index, buffer, hsome, hframe, hresolve⟩
        · exact .inl ⟨by simp [cameraTable, hnone], by simp [hframe]⟩
        · exact .inr ⟨⟨.source index, element.transform⟩, (.source ⟨buffer, none⟩, element.transform),
            by simp [cameraTable, hsome], by simp [hframe], hresolve, rfl⟩
  · obtain ⟨source, hsource, hframe, hplace⟩ := source_of_index (List.length_map _ ▸ hindex)
    obtain ⟨element, helement, rfl⟩ := List.mem_map.1 hsource
    have hplace' : (cameraTable graph frames).index element.source = some index := hplace
    have hitem : composeItem graph (cameraTable graph frames) element =
        some ⟨.source index, element.transform⟩ := by
      unfold composeItem
      rw [frames.camera element.source hframe, hplace']
      rfl
    exact ⟨_, List.mem_filterMap.2 ⟨element, helement, hitem⟩, rfl⟩

end Blip.Studio.Exact
