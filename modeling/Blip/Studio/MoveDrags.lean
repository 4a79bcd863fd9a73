import Blip.Studio.ResizeDrags

/-!
# Moving an element on the canvas

A move follows the pointer from where it was pressed, as long as that was over the canvas: there the
clamped position, which the offset is taken from, is the position itself. What it snaps to is the
nearest of three places. A nudge is of one pixel while the center stays on the canvas.
-/

namespace Blip.Studio.Exact

variable {item : Inspected} {threshold : Bounds → ℚ × ℚ} {stage stage' : Stage} {drawn : ItemTransform}

/-! ## Snapping -/

/-- The places of an element along an axis, each with where it snaps to. -/
def snapPlaces (center size : ℚ) : List (ℚ × ℚ) :=
  [(center - size * 0.5, 0), (center, 0.5), (center + size * 0.5, 1)]

/-- What the loop has found after the places it has tried. -/
inductive Found (center threshold : ℚ) (tried : List (ℚ × ℚ)) : Snap → Prop
  | nothing (hfar : ∀ place ∈ tried, threshold < |place.2 - place.1|) :
      Found center threshold tried
        { adjustment := none
          snapped := center
          guide := none }
  | nearest (place : ℚ × ℚ) (hmem : place ∈ tried) (hnear : |place.2 - place.1| ≤ threshold)
      (hnearest : ∀ other ∈ tried, |place.2 - place.1| ≤ |other.2 - other.1|) :
      Found center threshold tried
        { adjustment := some |place.2 - place.1|
          snapped := center + (place.2 - place.1)
          guide := some place.2 }

theorem Found.try {center threshold : ℚ} {tried : List (ℚ × ℚ)} {best : Snap}
    (h : Found center threshold tried best) (place : ℚ × ℚ) :
    Found center threshold (tried ++ [place]) (Snap.try center threshold best place) := by
  rw [Snap.try]
  cases h with
  | nothing hfar =>
    split
    · rename_i hnear
      refine .nearest place (by simp) hnear.1 ?_
      rw [List.forall_mem_append, List.forall_mem_singleton]
      exact ⟨fun other hmem => hnear.1.trans (hfar other hmem).le, le_rfl⟩
    · rename_i hnear
      refine .nothing ?_
      rw [List.forall_mem_append, List.forall_mem_singleton]
      exact ⟨hfar, not_le.mp fun hle => hnear ⟨hle, rfl⟩⟩
  | nearest found hmem hnear hnearest =>
    split
    · rename_i hcloser
      have hlt := of_decide_eq_true hcloser.2
      refine .nearest place (by simp) hcloser.1 ?_
      rw [List.forall_mem_append, List.forall_mem_singleton]
      exact ⟨fun other hmem' => hlt.le.trans (hnearest other hmem'), le_rfl⟩
    · rename_i hcloser
      -- a place as far as the one that was found does not take its place
      have hle : |found.2 - found.1| ≤ |place.2 - place.1| := by
        refine not_lt.mp fun hlt => hcloser ⟨hlt.le.trans hnear, ?_⟩
        exact decide_eq_true hlt
      refine .nearest found (List.mem_append_left _ hmem) hnear ?_
      rw [List.forall_mem_append, List.forall_mem_singleton]
      exact ⟨hnearest, hle⟩

theorem Found.foldl {center threshold : ℚ} {tried : List (ℚ × ℚ)} {best : Snap}
    (h : Found center threshold tried best) (places : List (ℚ × ℚ)) :
    Found center threshold (tried ++ places) (places.foldl (Snap.try center threshold) best) := by
  induction places generalizing tried best with
  | nil => rwa [List.append_nil]
  | cons place places ih =>
    rw [List.append_cons]
    exact ih (h.try place)

/-- What is snapped to is the nearest of the three places, where any is within the threshold. -/
theorem snappedMoveAxis_found (center size threshold : ℚ) :
    ∃ best, Found center threshold (snapPlaces center size) best ∧
      snappedMoveAxis center size threshold = (best.snapped, best.guide) := by
  have hstart : Found center threshold [] _ := .nothing (by simp)
  exact ⟨_, hstart.foldl (snapPlaces center size), rfl⟩

/-- A move along an axis to a center that was free, by an element of a size. -/
structure MovedAxis (free size threshold center : ℚ) (guide : Option ℚ) : Prop where
  follows : guide = none → center = free
  onGuide : ∀ target, guide = some target → target = 0 ∧ center - size * 0.5 = target ∨
    target = 0.5 ∧ center = target ∨ target = 1 ∧ center + size * 0.5 = target
  near : ∀ target, guide = some target → |center - free| ≤ threshold
  nearest : ∀ target, guide = some target →
    ∀ place ∈ snapPlaces free size, |center - free| ≤ |place.2 - place.1|

theorem movedAxis (free size threshold : ℚ) :
    MovedAxis free size threshold (snappedMoveAxis free size threshold).1
      (snappedMoveAxis free size threshold).2 := by
  obtain ⟨best, hfound, hsnapped⟩ := snappedMoveAxis_found free size threshold
  rw [hsnapped]
  cases hfound with
  | nothing => exact ⟨fun _ => rfl, by rintro _ ⟨⟩, by rintro _ ⟨⟩, by rintro _ ⟨⟩⟩
  | nearest place hmem hnear hnearest =>
    refine ⟨by rintro ⟨⟩, ?_, ?_, ?_⟩
    · rintro _ ⟨⟩
      simp only [snapPlaces, List.mem_cons, List.not_mem_nil, or_false] at hmem
      rcases hmem with rfl | rfl | rfl
      · exact .inl ⟨rfl, by ring⟩
      · exact .inr (.inl ⟨rfl, by ring⟩)
      · exact .inr (.inr ⟨rfl, by ring⟩)
    · rintro _ -
      simpa using hnear
    · rintro _ - other hother
      simpa using hnearest other hother

/-! ## Moves -/

/-- Only a field of the inspector changes the layout there. -/
theorem layout_step {inspector inspector' : Inspector} {step : InspectorStep}
    (hstep : ∀ adjustment value, step ≠ .edit adjustment value)
    (h : inspector.step item step = some inspector') : inspector'.layout = inspector.layout := by
  cases step with
  | edit adjustment value => exact absurd rfl (hstep adjustment value)
  | request =>
    obtain rfl := Option.some.inj h
    rfl
  | take =>
    obtain ⟨layout, -, rfl⟩ := Option.map_eq_some_iff.mp h
    rfl
  | compose available =>
    obtain ⟨layout, -, rfl⟩ := Option.map_eq_some_iff.mp h
    rfl
  | showFrame =>
    obtain ⟨shown, -, rfl⟩ := Option.map_eq_some_iff.mp h
    rfl

/-- A press takes the element itself: none of its handles, and nothing is in front. -/
structure Stage.Takes (stage : Stage) (viewport : Viewport) (position : ℚ × ℚ) (frame : Bounds)
    (drawn : ItemTransform) : Prop where
  shown : stage.shown = some drawn
  dimensions : ∃ dimensions, stage.contentDimensions = some dimensions ∧
    previewFrameBounds viewport dimensions = some frame ∧ (stage.selected = true →
      (cornerRadiusHandleBounds (transformBounds frame drawn)
        (itemCornerRadius frame dimensions drawn)).contains position = false)
  noHandle : stage.selected = true → resizeHandleAt position (transformBounds frame drawn) = none
  pressed : (transformBounds frame drawn).contains position = true

theorem Stage.Takes.pressElement {viewport : Viewport} {position : ℚ × ℚ} {frame : Bounds}
    (h : stage.Takes viewport position frame drawn) :
    ({ stage with snapGuides := Stage.noGuides }.pressElement frame position false).dragOperation =
      some (.move ((normalizedPosition frame position).1 - drawn.center.1,
        (normalizedPosition frame position).2 - drawn.center.2)) := by
  rw [Stage.pressElement, h.shown, Option.filter_some, if_pos (by simp [h.pressed])]
  rfl

theorem Stage.Takes.beginDrag {viewport : Viewport} {position : ℚ × ℚ} {frame : Bounds}
    (h : stage.Takes viewport position frame drawn) :
    (stage.beginDrag viewport position false).dragOperation =
      some (.move ((normalizedPosition frame position).1 - drawn.center.1,
        (normalizedPosition frame position).2 - drawn.center.2)) := by
  obtain ⟨dimensions, hdimensions, hframe, hcorner⟩ := h.dimensions
  rw [← h.pressElement, Stage.beginDrag]
  dsimp only
  rw [hdimensions]
  dsimp only
  rw [hframe]
  dsimp only
  split
  · rename_i hselected
    rw [h.shown]
    dsimp only
    rw [hcorner hselected, if_neg Bool.false_ne_true, h.noHandle hselected]
  · rfl

/-- A position, as a fraction of the canvas, is on it. -/
def OnCanvas (position : ℚ × ℚ) : Prop :=
  (0 ≤ position.1 ∧ position.1 ≤ 1) ∧ 0 ≤ position.2 ∧ position.2 ≤ 1

instance (position : ℚ × ℚ) : Decidable (OnCanvas position) := inferInstanceAs (Decidable (_ ∧ _))

theorem clamp_eq_iff {value : ℚ} : max 0 (min value 1) = value ↔ 0 ≤ value ∧ value ≤ 1 := by
  constructor
  · intro h
    rw [← h]
    exact ⟨le_max_left _ _, max_le zero_le_one (min_le_right _ _)⟩
  · rintro ⟨hpos, hle⟩
    rw [min_eq_left hle, max_eq_right hpos]

/-- On the canvas the clamped position is the position. -/
theorem normalizedPosition_eq_iff {frame : Bounds} {position : ℚ × ℚ} :
    normalizedPosition frame position = normalizedPositionUnclamped frame position ↔
      OnCanvas (normalizedPositionUnclamped frame position) := by
  rw [normalizedPosition, Prod.ext_iff]
  exact and_congr clamp_eq_iff clamp_eq_iff

theorem nudgedCenter_eq_iff {center delta canvas : ℚ × ℚ} :
    nudgedCenter center delta canvas = (center.1 + delta.1 / canvas.1, center.2 + delta.2 / canvas.2) ↔
      OnCanvas (center.1 + delta.1 / canvas.1, center.2 + delta.2 / canvas.2) := by
  rw [nudgedCenter, Prod.ext_iff]
  exact and_congr clamp_eq_iff clamp_eq_iff

/-- Nothing presses, lets go of the pointer or types a value. -/
def StageStep.Follows : StageStep → Prop
  | .press .. | .release | .inspect (.edit ..) => False
  | .inspect (.request) | .inspect (.take) | .inspect (.compose _) | .inspect (.showFrame) | .select _
  | .drag .. | .nudge _ => True

theorem StageStep.Follows.held {label : StageStep} (h : label.Follows) : label.Held := by
  cases label with
  | press viewport position covered => exact h
  | release => exact h
  | inspect step => trivial
  | select selected => trivial
  | drag viewport position => trivial
  | nudge key => trivial

/-- The size that is shown is the one that the layout gives. -/
def Stage.Settled (item : Inspected) (stage : Stage) : Prop :=
  ∃ shown current, stage.shown = some shown ∧ item.elementTransform stage.layout = some current ∧
    shown.size = current.size

theorem Stage.Settled.size {shown : ItemTransform} (h : stage.Settled item)
    (hshown : stage.shown = some shown) (hcanvas : item.canvas.1 < 2 ^ 32 ∧ item.canvas.2 < 2 ^ 32) :
    shown.size = aspectFitSize stage.layout.size item.source item.canvasSize := by
  obtain ⟨settled, current, hsettled, hcurrent, hsame⟩ := h
  obtain rfl := Option.some.inj (hshown.symm.trans hsettled)
  rw [elementTransform_eq hcanvas, Option.some.injEq] at hcurrent
  rw [hsame, ← hcurrent]

/-- How far the pointer is from where it was pressed, in fractions of the canvas. -/
def displacement (frame frame' : Bounds) (position pointer : ℚ × ℚ) : ℚ × ℚ :=
  ((normalizedPositionUnclamped frame' pointer).1 - (normalizedPositionUnclamped frame position).1,
    (normalizedPositionUnclamped frame' pointer).2 - (normalizedPositionUnclamped frame position).2)

/-- Where an element that was drawn at a transform goes without snapping. -/
def followed (drawn : ItemTransform) (displacement : ℚ × ℚ) : ℚ × ℚ :=
  (drawn.center.1 + displacement.1, drawn.center.2 + displacement.2)

/-- What a move makes of an element that is shown. -/
theorem dragInset_move {stage : Stage} {viewport : Viewport} {position offset : ℚ × ℚ}
    {dimensions : ℕ × ℕ} {frame : Bounds} {shown : ItemTransform}
    (hdimensions : stage.contentDimensions = some dimensions)
    (hframe : previewFrameBounds viewport dimensions = some frame) (hshown : stage.shown = some shown)
    (hoperation : stage.dragOperation = some (.move offset)) :
    (stage.dragInset threshold viewport position).layout =
      { stage.layout with
        center := (snappedMoveCenter ((normalizedPositionUnclamped frame position).1 - offset.1,
          (normalizedPositionUnclamped frame position).2 - offset.2) shown.size (threshold frame)).1 } ∧
    (stage.dragInset threshold viewport position).snapGuides =
      (snappedMoveCenter ((normalizedPositionUnclamped frame position).1 - offset.1,
        (normalizedPositionUnclamped frame position).2 - offset.2) shown.size (threshold frame)).2 := by
  have hbound : stage.contentDimensions.bind (previewFrameBounds viewport) = some frame := by
    rw [hdimensions]
    exact hframe
  have hmove : stage.dragInset threshold viewport position =
      stage.repositionItem threshold offset viewport position := by
    rw [Stage.dragInset, hoperation]
  rw [hmove, Stage.repositionItem, hbound, hshown]
  exact ⟨rfl, rfl⟩

/-- While an element is moved its size stays. -/
theorem StageStep.Follows.size {label : StageStep} {offset : ℚ × ℚ} (h : label.Follows)
    (hoperation : stage.dragOperation = some (.move offset))
    (hstep : (stageSystem item threshold).step stage label stage') :
    stage'.layout.size = stage.layout.size := by
  cases label with
  | press viewport position covered => exact h.elim
  | release => exact h.elim
  | inspect step =>
    obtain ⟨hinspector, -⟩ := step_inspect hstep
    exact congrArg ItemLayout.size (layout_step (by rintro adjustment value rfl; exact h) hinspector)
  | select selected =>
    obtain rfl := Option.some.inj hstep
    rfl
  | drag viewport position =>
    obtain rfl := Option.some.inj hstep
    rw [Stage.dragInset, hoperation]
    dsimp only
    rw [Stage.repositionItem]
    split
    · rfl
    · rfl
  | nudge key =>
    obtain ⟨-, hstep⟩ := Option.ite_none_right_eq_some.mp hstep
    obtain rfl := Option.some.inj hstep
    rw [Stage.moveSelected]
    dsimp only
    split
    · rfl
    · rfl

theorem StageStep.Follows.size_run {path : List StageStep} {offset : ℚ × ℚ}
    (hpath : ∀ label ∈ path, label.Follows) (hoperation : stage.dragOperation = some (.move offset))
    (hrun : (stageSystem item threshold).Run stage path stage') :
    stage'.layout.size = stage.layout.size := by
  induction hrun with
  | nil => rfl
  | cons hstep _ ih =>
    have hfollows := hpath _ (.head _)
    rw [ih (fun label hmem => hpath label (.tail _ hmem))
      ((Held.step hfollows.held hstep).trans hoperation), hfollows.size hoperation hstep]

/-- What a move makes of an element, from where it was drawn when it was pressed: on each axis it
follows the pointer or lies on the guide that is shown, the nearest there is. -/
structure Moved (drawn : ItemTransform) (displacement threshold : ℚ × ℚ) (stage' : Stage)
    (after : ItemTransform) : Prop where
  horizontal : MovedAxis (followed drawn displacement).1 after.size.1 threshold.1 after.center.1
    stage'.snapGuides.x
  vertical : MovedAxis (followed drawn displacement).2 after.size.2 threshold.2 after.center.2
    stage'.snapGuides.y

/-- At the end of any path of the pointer a move is what the last position makes of its beginning. -/
theorem Stage.Takes.moved {start begun : Stage} {viewport viewport' : Viewport}
    {position pointer : ℚ × ℚ}
    {path : List StageStep} {frame frame' : Bounds} {shown : ItemTransform} (hinv : start.Inv item)
    (h : start.Takes viewport position frame drawn)
    (hpress : (stageSystem item threshold).step start (.press viewport position false) begun)
    (hpath : ∀ label ∈ path, label.Follows) (hrun : (stageSystem item threshold).Run begun path stage)
    (hshown : stage.shown = some shown)
    (hdrag : (stageSystem item threshold).step stage (.drag viewport' pointer) stage')
    (hframe : previewFrameBounds viewport' item.canvas = some frame') :
    stage'.layout =
      { stage.layout with
        center := (snappedMoveCenter
          ((normalizedPositionUnclamped frame' pointer).1 -
              ((normalizedPosition frame position).1 - drawn.center.1),
            (normalizedPositionUnclamped frame' pointer).2 -
              ((normalizedPosition frame position).2 - drawn.center.2))
          shown.size (threshold frame')).1 } ∧
    stage'.snapGuides = (snappedMoveCenter
      ((normalizedPositionUnclamped frame' pointer).1 -
          ((normalizedPosition frame position).1 - drawn.center.1),
        (normalizedPositionUnclamped frame' pointer).2 -
          ((normalizedPosition frame position).2 - drawn.center.2))
      shown.size (threshold frame')).2 ∧
    stage.layout.size = start.layout.size := by
  obtain ⟨dimensions, hdimensions, -⟩ := h.dimensions
  obtain rfl := hinv.dimensions dimensions hdimensions
  obtain rfl := Option.some.inj hpress
  obtain rfl := Option.some.inj hdrag
  have hkept := contentDimensions_run
    ((beginDrag_cases start viewport position false).2.1.trans hdimensions) hrun
  have hoperation := (Held.run (fun label hmem => (hpath label hmem).held) hrun).trans h.beginDrag
  have hsize := StageStep.Follows.size_run hpath h.beginDrag hrun
  rw [show (start.beginDrag viewport position false).layout = start.layout from
    congrArg Inspector.layout (beginDrag_cases start viewport position false).1] at hsize
  exact ⟨(dragInset_move hkept hframe hshown hoperation).1,
    (dragInset_move hkept hframe hshown hoperation).2, hsize⟩

theorem followed_eq_iff {frame frame' : Bounds} {position pointer : ℚ × ℚ} :
    ((normalizedPositionUnclamped frame' pointer).1 - ((normalizedPosition frame
      position).1 - drawn.center.1),
      (normalizedPositionUnclamped frame' pointer).2 -
        ((normalizedPosition frame position).2 - drawn.center.2)) =
      followed drawn (displacement frame frame' position pointer) ↔
    OnCanvas (normalizedPositionUnclamped frame position) := by
  rw [← normalizedPosition_eq_iff, Prod.ext_iff, Prod.ext_iff, followed, displacement]
  dsimp only
  constructor
  · rintro ⟨hx, hy⟩
    exact ⟨by linarith, by linarith⟩
  · rintro ⟨hx, hy⟩
    exact ⟨by linarith, by linarith⟩

/-- Without a guide the center is the one that the pointer gives. -/
theorem snappedMoveCenter_free {center size threshold : ℚ × ℚ}
    (h : (snappedMoveCenter center size threshold).2 = Stage.noGuides) :
    (snappedMoveCenter center size threshold).1 = center := by
  have hx := (movedAxis center.1 size.1 threshold.1).follows (congrArg SnapGuides.x h)
  have hy := (movedAxis center.2 size.2 threshold.2).follows (congrArg SnapGuides.y h)
  exact Prod.ext hx hy

theorem Arrow.delta_ne_zero (key : Arrow) : key.delta.1 ≠ 0 ∨ key.delta.2 ≠ 0 := by
  cases key <;> simp [Arrow.delta]

/-- The key that undoes a key. -/
def Arrow.opposite : Arrow → Arrow
  | moveLeft => moveRight
  | moveRight => moveLeft
  | moveUp => moveDown
  | moveDown => moveUp

theorem Arrow.delta_opposite (key : Arrow) : key.opposite.delta = (-key.delta.1, -key.delta.2) := by
  cases key <;> simp [Arrow.delta, Arrow.opposite]

/-- The center one pixel of the canvas away. -/
def pixelAway (item : Inspected) (center : ℚ × ℚ) (key : Arrow) : ℚ × ℚ :=
  (center.1 + key.delta.1 / item.canvasSize.1, center.2 + key.delta.2 / item.canvasSize.2)

theorem pixelAway_ne (item : Inspected) (center : ℚ × ℚ) (key : Arrow) :
    center ≠ pixelAway item center key := by
  intro h
  obtain ⟨hwidth, hheight⟩ := item.canvasSize_pos
  rw [pixelAway, Prod.ext_iff] at h
  dsimp only at h
  rcases key.delta_ne_zero with hdelta | hdelta
  · exact div_ne_zero hdelta hwidth.ne' (left_eq_add.mp h.1)
  · exact div_ne_zero hdelta hheight.ne' (left_eq_add.mp h.2)

theorem pixelAway_opposite (item : Inspected) (center : ℚ × ℚ) (key : Arrow) :
    pixelAway item (pixelAway item center key) key.opposite = center := by
  rw [pixelAway, pixelAway, key.delta_opposite]
  refine Prod.ext ?_ ?_
  · dsimp only
    ring
  · dsimp only
    ring

theorem nudge_iff {key : Arrow} (hdimensions : stage.contentDimensions = some item.canvas)
    (hstep : (stageSystem item threshold).step stage (.nudge key) stage') :
    stage'.layout.center = pixelAway item stage.layout.center key ↔
      (item.canvas.1 < 2 ^ 32 ∧ item.canvas.2 < 2 ^ 32) ∧
        OnCanvas (pixelAway item stage.layout.center key) := by
  obtain ⟨-, hstep⟩ := Option.ite_none_right_eq_some.mp hstep
  obtain rfl := Option.some.inj hstep
  rw [Stage.moveSelected, hdimensions, Option.getD_some]
  dsimp only
  split
  · rename_i hcanvas
    rw [and_iff_right hcanvas]
    exact nudgedCenter_eq_iff
  · rename_i hcanvas
    exact iff_of_false (pixelAway_ne item _ key) fun h => hcanvas h.1

/-- A key and its opposite: what was on the canvas is where it was. -/
theorem nudge_opposite_iff {key : Arrow} {stage'' : Stage}
    (hdimensions : stage.contentDimensions = some item.canvas)
    (hstep : (stageSystem item threshold).step stage (.nudge key) stage')
    (hmoved : stage'.layout.center = pixelAway item stage.layout.center key)
    (hback : (stageSystem item threshold).step stage' (.nudge key.opposite) stage'') :
    stage''.layout.center = stage.layout.center ↔ OnCanvas stage.layout.center := by
  have hcanvas := ((nudge_iff hdimensions hstep).mp hmoved).1
  have hundone := nudge_iff (contentDimensions_step hdimensions hstep) hback
  rw [hmoved, pixelAway_opposite, and_iff_right hcanvas] at hundone
  exact hundone

/-- A move that begins over the canvas follows the pointer, and snaps by the size that is shown where
that is the current one; it would not follow it from anywhere else. A nudge is of one pixel, and its
opposite takes it back, exactly while the center stays on the canvas. -/
theorem move_and_nudge (item : Inspected) (threshold : Bounds → ℚ × ℚ) :
    (∀ start begun stage stage' drawn shown viewport viewport' position pointer path frame,
      (stageSystem item threshold).Reachable start → start.Takes viewport position frame drawn →
      (stageSystem item threshold).step start (.press viewport position false) begun →
      (∀ label ∈ path, label.Follows) → (stageSystem item threshold).Run begun path stage →
      stage.shown = some shown →
      (stageSystem item threshold).step stage (.drag viewport' pointer) stage' →
      ∃ frame', previewFrameBounds viewport' item.canvas = some frame' ∧
        (stage'.snapGuides = Stage.noGuides →
          (stage'.layout.center = followed drawn (displacement frame frame' position pointer) ↔
            OnCanvas (normalizedPositionUnclamped frame position))) ∧
        (OnCanvas (normalizedPositionUnclamped frame position) → stage.Settled item →
          (∃ after, item.elementTransform stage'.layout = some after ∧
            Moved drawn (displacement frame frame' position pointer) (threshold frame') stage' after) ∧
          ∀ other moved moved', (∀ label ∈ other, label.Follows) →
            (stageSystem item threshold).Run begun other moved → moved.Settled item →
            (stageSystem item threshold).step moved (.drag viewport' pointer) moved' →
            moved'.layout.center = stage'.layout.center ∧ moved'.snapGuides = stage'.snapGuides)) ∧
    ∀ stage stage' key, (stageSystem item threshold).Reachable stage → stage.contentDimensions ≠ none →
      (stageSystem item threshold).step stage (.nudge key) stage' →
      (stage'.layout.center = pixelAway item stage.layout.center key ↔
        (item.canvas.1 < 2 ^ 32 ∧ item.canvas.2 < 2 ^ 32) ∧
          OnCanvas (pixelAway item stage.layout.center key)) ∧
      ∀ stage'', stage'.layout.center = pixelAway item stage.layout.center key →
        (stageSystem item threshold).step stage' (.nudge key.opposite) stage'' →
        (stage''.layout.center = stage.layout.center ↔ OnCanvas stage.layout.center) := by
  refine ⟨?_, ?_⟩
  · intro start begun stage stage' drawn shown viewport viewport' position pointer path frame hstart
      htakes hpress hpath hrun hshown hdrag
    have hinv := stage_inv hstart
    have hend := stage_inv ((hstart.step hpress).run hrun)
    obtain ⟨dimensions, hdimensions, hframe, -⟩ := htakes.dimensions
    obtain rfl := hinv.dimensions dimensions hdimensions
    obtain ⟨frame', hframe'⟩ := previewFrameBounds_eq_some hframe viewport'
    obtain ⟨hlayout, hguides, hsize⟩ := htakes.moved hinv hpress hpath hrun hshown hdrag hframe'
    refine ⟨frame', hframe', ?_, ?_⟩
    · intro hnone
      rw [hguides] at hnone
      rw [hlayout, ← @followed_eq_iff drawn]
      dsimp only
      rw [snappedMoveCenter_free hnone]
    · intro hover hsettled
      -- over the canvas the pointer is not clamped
      have hcanvas := (hend.inspector.shown shown hshown).canvas
      have hshownSize := hsettled.size hshown hcanvas
      rw [followed_eq_iff.mpr hover] at hlayout hguides
      refine ⟨⟨_, elementTransform_eq hcanvas stage'.layout, ?_⟩, ?_⟩
      · have hafter : aspectFitSize stage'.layout.size item.source item.canvasSize = shown.size := by
          rw [hlayout, hshownSize]
        constructor
        · dsimp only
          rw [hafter, hlayout, hguides]
          exact movedAxis _ _ _
        · dsimp only
          rw [hafter, hlayout, hguides]
          exact movedAxis _ _ _
      · -- the center is computed from what was drawn, and from a size that no run between changes
        intro other moved moved' hother hmoved hsettled' hmove
        obtain ⟨shown', -, hshown', -⟩ := id hsettled'
        obtain ⟨hlayout', hguides', hsize'⟩ :=
          htakes.moved hinv hpress hother hmoved hshown' hmove hframe'
        rw [followed_eq_iff.mpr hover] at hlayout' hguides'
        have hequal : shown'.size = shown.size := by
          rw [hsettled'.size hshown' hcanvas, hshownSize, hsize, hsize']
        rw [hlayout, hlayout', hguides, hguides', hequal]
        exact ⟨rfl, rfl⟩
  · intro stage stage' key h hframed hstep
    obtain ⟨dimensions, hdimensions⟩ := Option.ne_none_iff_exists'.mp hframed
    obtain rfl := (stage_inv h).dimensions dimensions hdimensions
    exact ⟨nudge_iff hdimensions hstep, fun stage'' => nudge_opposite_iff hdimensions hstep⟩

/-! ## An element over the border -/

/-- An element whose right half is beyond the canvas. -/
def halfOutside : ItemTransform where
  center := (1, 0.4)
  size := (0.4, 0.4)
  cornerRadius := 0

def halfOutsideLayout : ItemLayout where
  center := (1, 0.4)
  size := (0.4, 0.4)
  cornerRadiusRatio := 0

theorem halfOutside_shown : fullHd.elementTransform halfOutsideLayout =
    some halfOutside := by decide +kernel

theorem halfOutside_reachable :
    (stageSystem fullHd normalizedSnapThreshold).Reachable
    (.fresh fullHd halfOutsideLayout halfOutside) :=
  fresh_reachable (by norm_num [ItemLayout.Positive, halfOutsideLayout]) halfOutside_shown

/-- The frame of full HD in the wide preview. -/
def wideFrame : Bounds where
  origin := (760, 0)
  size := (960, 540)

/-- The half that is on the canvas can be pressed, and the other one. -/
theorem halfOutside_takes {position : ℚ × ℚ} (hposition : position = (1624, 216) ∨
    position = (1816, 216)) :
    (Stage.fresh fullHd halfOutsideLayout halfOutside).Takes wideViewport position wideFrame
      halfOutside := by
  rcases hposition with rfl | rfl
  · exact {
      shown := rfl
      dimensions := ⟨fullHd.canvas, rfl, wideViewport_frame, by decide +kernel⟩
      noHandle := by decide +kernel
      pressed := by decide +kernel }
  · exact {
      shown := rfl
      dimensions := ⟨fullHd.canvas, rfl, wideViewport_frame, by decide +kernel⟩
      noHandle := by decide +kernel
      pressed := by decide +kernel }

/-- From the canvas, a tenth of its width to the left and ten pixels of the screen down. -/
theorem move_and_nudge_left : (((Stage.fresh fullHd halfOutsideLayout halfOutside).beginDrag wideViewport
    (1624, 216) false).dragInset normalizedSnapThreshold wideViewport (1528, 226)).layout.center =
      followed halfOutside (displacement wideFrame wideFrame (1624, 216) (1528, 226)) := by
  have hshown : ((Stage.fresh fullHd halfOutsideLayout halfOutside).beginDrag wideViewport (1624, 216)
      false).shown = some halfOutside :=
    congrArg Inspector.shown (beginDrag_cases _ wideViewport (1624, 216) false).1
  obtain ⟨frame, hframe, hiff, -⟩ := (move_and_nudge fullHd normalizedSnapThreshold).1 _ _ _ _
    halfOutside
    halfOutside wideViewport wideViewport (1624, 216) (1528, 226) [] wideFrame halfOutside_reachable
    (halfOutside_takes (.inl rfl)) rfl (by simp) (.nil _) hshown rfl
  obtain rfl := Option.some.inj (hframe.symm.trans wideViewport_frame)
  exact (hiff (by decide +kernel)).mpr (by decide +kernel)

/-- Pressed on the half beyond the canvas, the element moves before the pointer does. -/
theorem pressed_outside_jumps : ¬ ∀ (item : Inspected) (threshold : Bounds → ℚ × ℚ)
    (start begun stage stage' : Stage) (drawn : ItemTransform) (viewport : Viewport)
    (position pointer : ℚ × ℚ) (path : List StageStep) (frame : Bounds),
    (stageSystem item threshold).Reachable start → start.Takes viewport position frame drawn →
    (stageSystem item threshold).step start (.press viewport position false) begun →
    (∀ label ∈ path, label.Follows) → (stageSystem item threshold).Run begun path stage →
    (stageSystem item threshold).step stage (.drag viewport pointer) stage' →
    stage'.snapGuides = Stage.noGuides →
    stage'.layout.center = followed drawn (displacement frame frame position pointer) := by
  intro hclaim
  have hjump := hclaim fullHd normalizedSnapThreshold _ _ _ _ halfOutside wideViewport (1816, 216)
    (1816, 216)
    [] wideFrame halfOutside_reachable (halfOutside_takes (.inr rfl)) rfl (by simp) (.nil _) rfl
    (by decide +kernel)
  exact absurd hjump (by decide +kernel)

end Blip.Studio.Exact
