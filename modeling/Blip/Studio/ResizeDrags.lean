import Blip.Studio.Stage

/-!
# Resizing an element on the canvas

However the pointer gets there, a resize keeps the sides of the source and the point across from the
handle, and stays above the smallest size. It ends on the border whose guide it shows, except where that
border is nearer to the point that is kept than the smallest size.
-/

namespace Blip.Studio.Exact

variable {item : Inspected} {threshold : Bounds → ℚ × ℚ} {stage stage' : Stage} {label : StageStep}
variable {handle : ResizeHandle} {drawn : ItemTransform}

/-! ## The scale that the pointer asks for -/

/-- The point of an element across from a handle. -/
def heldPoint (handle : ResizeHandle) (transform : ItemTransform) : ℚ × ℚ :=
  (transform.center.1 - (axes handle).1 * transform.size.1 * 0.5,
    transform.center.2 - (axes handle).2 * transform.size.2 * 0.5)

/-- The point of an element that a handle moves. -/
def movedPoint (handle : ResizeHandle) (transform : ItemTransform) : ℚ × ℚ :=
  (transform.center.1 + (axes handle).1 * transform.size.1 * 0.5,
    transform.center.2 + (axes handle).2 * transform.size.2 * 0.5)

/-- How far the pointer is along the way from the held point to the handle, where it is at one when the
drag begins. -/
def alongHandle (handle : ResizeHandle) (drawn : ItemTransform) (pointer : ℚ × ℚ) : ℚ :=
  let way := ((axes handle).1 * drawn.size.1, (axes handle).2 * drawn.size.2)
  let held := heldPoint handle drawn
  ((pointer.1 - held.1) * way.1 + (pointer.2 - held.2) * way.2) / (way.1 * way.1 + way.2 * way.2)

theorem axes_fst (handle : ResizeHandle) : (axes handle).1 = 0 ∨ (axes handle).1 = 1 ∨
    (axes handle).1 = -1 := by
  cases handle <;> simp [axes]

theorem axes_snd (handle : ResizeHandle) : (axes handle).2 = 0 ∨ (axes handle).2 = 1 ∨
    (axes handle).2 = -1 := by
  cases handle <;> simp [axes]

theorem axes_ne_zero (handle : ResizeHandle) : (axes handle).1 ≠ 0 ∨ (axes handle).2 ≠ 0 := by
  cases handle <;> simp [axes]

/-- A handle is away from the point across from it. -/
theorem way_pos (handle : ResizeHandle) {size : ℚ × ℚ} (hsize : 0 < size.1 ∧ 0 < size.2) :
    0 < (axes handle).1 * size.1 * ((axes handle).1 * size.1) +
      (axes handle).2 * size.2 * ((axes handle).2 * size.2) := by
  rcases axes_ne_zero handle with h | h
  · have hx := mul_self_pos.mpr (mul_ne_zero h hsize.1.ne')
    have hy := mul_self_nonneg ((axes handle).2 * size.2)
    linarith
  · have hx := mul_self_nonneg ((axes handle).1 * size.1)
    have hy := mul_self_pos.mpr (mul_ne_zero h hsize.2.ne')
    linarith

theorem resizedItem_eq (handle : ResizeHandle) (drawn : ItemTransform) (pointer : ℚ × ℚ) (minimum : ℚ) :
    resizedItem handle drawn (heldPoint handle drawn) pointer minimum =
      (((heldPoint handle drawn).1 +
          (axes handle).1 * drawn.size.1 * max (alongHandle handle drawn pointer) minimum * 0.5,
        (heldPoint handle drawn).2 +
          (axes handle).2 * drawn.size.2 * max (alongHandle handle drawn pointer) minimum * 0.5),
      max (alongHandle handle drawn pointer) minimum) := by
  rw [resizedItem]
  refine Prod.ext (Prod.ext ?_ ?_) rfl
  · dsimp only
    split
    · rename_i hzero
      simp [heldPoint, hzero]
    · rfl
  · dsimp only
    split
    · rename_i hzero
      simp [heldPoint, hzero]
    · rfl

/-- The pointer is taken to the way of the handle at the scale that it is given. -/
theorem alongHandle_way (hsize : 0 < drawn.size.1 ∧ 0 < drawn.size.2) (ratio : ℚ) :
    alongHandle handle drawn
      ((heldPoint handle drawn).1 + (axes handle).1 * drawn.size.1 * ratio,
        (heldPoint handle drawn).2 + (axes handle).2 * drawn.size.2 * ratio) = ratio := by
  rw [alongHandle]
  dsimp only
  rw [div_eq_iff (way_pos handle hsize).ne']
  ring

/-! ## The border that is snapped to -/

/-- The border of the canvas toward which a handle moves its edge. -/
def borderToward (direction : ℚ) : ℚ := if direction < 0 then 0 else 1

/-- The moved edge of an axis is near enough to its border to snap to it. -/
def Near (ratio anchor direction size threshold : ℚ) : Prop :=
  direction ≠ 0 ∧ |anchor + direction * size * ratio - borderToward direction| ≤ threshold

instance (ratio anchor direction size threshold : ℚ) :
    Decidable (Near ratio anchor direction size threshold) := inferInstanceAs (Decidable (_ ∧ _))

/-- The scale that takes the moved edge of an axis to its border. -/
def reach (anchor direction size : ℚ) : ℚ := (borderToward direction - anchor) / (direction * size)

theorem borderSnap_try_near {ratio minimum anchor direction size threshold : ℚ} {guides : ℚ → SnapGuides}
    {best : BorderSnap} (hnear : Near ratio anchor direction size threshold) :
    best.try ratio minimum anchor direction size threshold guides =
      if best.adjustment.all fun smallest =>
          decide (|max (reach anchor direction size) minimum - ratio| < smallest) then
        { adjustment := some |max (reach anchor direction size) minimum - ratio|
          ratio := max (reach anchor direction size) minimum
          guides := guides (borderToward direction) }
      else best := by
  rw [BorderSnap.try, if_neg hnear.1]
  exact if_neg hnear.2.not_gt

theorem borderSnap_try_far {ratio minimum anchor direction size threshold : ℚ} {guides : ℚ → SnapGuides}
    {best : BorderSnap} (hfar : ¬ Near ratio anchor direction size threshold) :
    best.try ratio minimum anchor direction size threshold guides = best := by
  rw [BorderSnap.try]
  split
  · rfl
  · rename_i hdirection
    exact if_pos (not_le.mp fun hle => hfar ⟨hdirection, hle⟩)

/-- A resize of an element, with all that its result is computed from. -/
structure Pull where
  handle : ResizeHandle
  drawn : ItemTransform
  pointer : ℚ × ℚ
  minimum : ℚ
  threshold : ℚ × ℚ

namespace Pull

variable (pull : Pull)

/-- The scale without the borders. -/
def asked : ℚ := max (alongHandle pull.handle pull.drawn pull.pointer) pull.minimum

def NearX : Prop :=
  Near pull.asked (heldPoint pull.handle pull.drawn).1
    (axes pull.handle).1 pull.drawn.size.1 pull.threshold.1

def NearY : Prop :=
  Near pull.asked (heldPoint pull.handle pull.drawn).2
    (axes pull.handle).2 pull.drawn.size.2 pull.threshold.2

def reachX : ℚ := reach (heldPoint pull.handle pull.drawn).1 (axes pull.handle).1 pull.drawn.size.1

def reachY : ℚ := reach (heldPoint pull.handle pull.drawn).2 (axes pull.handle).2 pull.drawn.size.2

/-- No border is snapped to that is nearer than the smallest size: where one would be, that of the other
axis is nearer to the pointer. -/
def Clear : Prop :=
  (pull.NearX → pull.minimum ≤ pull.reachX ∨
    pull.NearY ∧ pull.minimum ≤ pull.reachY ∧ |pull.reachY - pull.asked| < pull.asked - pull.minimum) ∧
  (pull.NearY → pull.minimum ≤ pull.reachY ∨
    pull.NearX ∧ pull.minimum ≤ pull.reachX ∧ |pull.reachX - pull.asked| ≤ pull.asked - pull.minimum)

instance : Decidable pull.NearX := inferInstanceAs (Decidable (Near ..))

instance : Decidable pull.NearY := inferInstanceAs (Decidable (Near ..))

instance : Decidable pull.Clear := inferInstanceAs (Decidable (_ ∧ _))

def result : (ℚ × ℚ) × ℚ × SnapGuides :=
  resizedItemWithBorderSnap pull.handle pull.drawn (heldPoint pull.handle pull.drawn) pull.pointer
    pull.minimum pull.threshold

theorem minimum_le_asked : pull.minimum ≤ pull.asked := le_max_right _ _

theorem asked_distance : |pull.minimum - pull.asked| = pull.asked - pull.minimum := by
  rw [abs_sub_comm, abs_of_nonneg (sub_nonneg.mpr pull.minimum_le_asked)]

/-- Which border wins, and the scale that it gives. -/
inductive Snaps : ℚ → SnapGuides → Prop
  | free (hx : ¬ pull.NearX) (hy : ¬ pull.NearY) : Snaps pull.asked ⟨none, none⟩
  | horizontal (hx : pull.NearX) (hy : pull.NearY → |max pull.reachX pull.minimum - pull.asked| ≤
      |max pull.reachY pull.minimum - pull.asked|) :
      Snaps (max pull.reachX pull.minimum) ⟨some (borderToward (axes pull.handle).1), none⟩
  | vertical (hy : pull.NearY) (hx : pull.NearX → |max pull.reachY pull.minimum - pull.asked| <
      |max pull.reachX pull.minimum - pull.asked|) :
      Snaps (max pull.reachY pull.minimum) ⟨none, some (borderToward (axes pull.handle).2)⟩

theorem Snaps.minimum_le {ratio : ℚ} {guides : SnapGuides} (h : pull.Snaps ratio guides) :
    pull.minimum ≤ ratio := by
  cases h with
  | free => exact pull.minimum_le_asked
  | horizontal => exact le_max_right _ _
  | vertical => exact le_max_right _ _

/-- The element keeps the held point and takes the scale of the border that wins. -/
theorem result_eq (hsize : 0 < pull.drawn.size.1 ∧ 0 < pull.drawn.size.2) :
    ∃ ratio guides, pull.Snaps ratio guides ∧ pull.result =
    (((heldPoint pull.handle pull.drawn).1 + (axes pull.handle).1 * pull.drawn.size.1 * ratio * 0.5,
      (heldPoint pull.handle pull.drawn).2 + (axes pull.handle).2 * pull.drawn.size.2 * ratio * 0.5),
      ratio, guides) := by
  have hplaced : ∀ best : BorderSnap, pull.minimum ≤ best.ratio →
      resizedItem pull.handle pull.drawn (heldPoint pull.handle pull.drawn)
        ((heldPoint pull.handle pull.drawn).1 + (axes pull.handle).1 * pull.drawn.size.1 * best.ratio,
          (heldPoint pull.handle pull.drawn).2 + (axes pull.handle).2 * pull.drawn.size.2 * best.ratio)
        pull.minimum =
      (((heldPoint pull.handle pull.drawn).1 +
          (axes pull.handle).1 * pull.drawn.size.1 * best.ratio * 0.5,
        (heldPoint pull.handle pull.drawn).2 +
          (axes pull.handle).2 * pull.drawn.size.2 * best.ratio * 0.5), best.ratio) := by
    intro best hbest
    rw [resizedItem_eq, alongHandle_way hsize, max_eq_left hbest]
  have hsnaps : ∃ best : BorderSnap, pull.Snaps best.ratio best.guides ∧
      best = ((BorderSnap.mk none pull.asked ⟨none, none⟩).try pull.asked pull.minimum
        (heldPoint pull.handle pull.drawn).1 (axes pull.handle).1 pull.drawn.size.1 pull.threshold.1
          fun border => ⟨some border, none⟩).try pull.asked pull.minimum
        (heldPoint pull.handle pull.drawn).2 (axes pull.handle).2 pull.drawn.size.2 pull.threshold.2
          fun border => ⟨none, some border⟩ := by
    refine ⟨_, ?_, rfl⟩
    -- the vertical border is tried last, and wins only where it is nearer
    by_cases hx : pull.NearX
    · rw [borderSnap_try_near hx, Option.all_none, if_pos rfl]
      by_cases hy : pull.NearY
      · rw [borderSnap_try_near hy, Option.all_some]
        split
        · rename_i hlt
          exact .vertical hy fun _ => of_decide_eq_true hlt
        · rename_i hle
          exact .horizontal hx fun _ => not_lt.mp fun hlt => hle (decide_eq_true hlt)
      · rw [borderSnap_try_far hy]
        exact .horizontal hx fun h => absurd h hy
    · rw [borderSnap_try_far hx]
      by_cases hy : pull.NearY
      · rw [borderSnap_try_near hy]
        exact .vertical hy fun h => absurd h hx
      · rw [borderSnap_try_far hy]
        exact .free hx hy
  obtain ⟨best, hbest, hloop⟩ := hsnaps
  refine ⟨best.ratio, best.guides, hbest, ?_⟩
  rw [result, resizedItemWithBorderSnap, resizedItem_eq]
  dsimp only
  rw [← asked, ← hloop, hplaced best hbest.minimum_le]

/-- Where a guide is shown the edge is on its border exactly when no border that wins is too near. -/
theorem clear_iff {ratio : ℚ} {guides : SnapGuides} (h : pull.Snaps ratio guides) :
    pull.Clear ↔ (guides.x ≠ none → ratio = pull.reachX) ∧ (guides.y ≠ none → ratio = pull.reachY) := by
  have hdistance := pull.asked_distance
  cases h with
  | free hx hy => simp [Clear, hx, hy]
  | horizontal hx hy =>
    simp only [ne_eq, reduceCtorEq, not_false_eq_true, forall_const, not_true_eq_false,
      false_implies, and_true, max_eq_left_iff]
    constructor
    · -- had the smallest ratio won, the other border would have been nearer
      rintro ⟨hclear, -⟩
      by_contra hless
      obtain ⟨hnear, hfit, hcloser⟩ := (hclear hx).resolve_left hless
      have hle := hy hnear
      rw [max_eq_right (not_le.mp hless).le, max_eq_left hfit, hdistance] at hle
      exact hcloser.not_ge hle
    · intro hfit
      refine ⟨fun _ => .inl hfit, fun hnear => ?_⟩
      rcases le_or_gt pull.minimum pull.reachY with hfitY | hless
      · exact .inl hfitY
      · have hle := hy hnear
        rw [max_eq_left hfit, max_eq_right hless.le, hdistance] at hle
        exact .inr ⟨hx, hfit, hle⟩
  | vertical hy hx =>
    simp only [ne_eq, reduceCtorEq, not_false_eq_true, forall_const, not_true_eq_false,
      false_implies, true_and, max_eq_left_iff]
    constructor
    · rintro ⟨-, hclear⟩
      by_contra hless
      obtain ⟨hnear, hfit, hcloser⟩ := (hclear hy).resolve_left hless
      have hlt := hx hnear
      rw [max_eq_right (not_le.mp hless).le, max_eq_left hfit, hdistance] at hlt
      exact hcloser.not_gt hlt
    · intro hfit
      refine ⟨fun hnear => ?_, fun _ => .inl hfit⟩
      rcases le_or_gt pull.minimum pull.reachX with hfitX | hless
      · exact .inl hfitX
      · have hlt := hx hnear
        rw [max_eq_left hfit, max_eq_right hless.le, hdistance] at hlt
        exact .inr ⟨hy, hfit, hlt⟩

end Pull

/-! ## Every state -/

/-- What a drag is computed from belongs to the element. -/
structure Stage.Inv (item : Inspected) (stage : Stage) : Prop where
  inspector : stage.toInspector.Inv item
  dimensions : ∀ dimensions, stage.contentDimensions = some dimensions → dimensions = item.canvas
  resizing : ∀ handle initial size anchor, stage.dragOperation = some
    (.resize handle initial size anchor) →
    Renders item initial ∧ (0 < size.1 ∧ 0 < size.2) ∧ anchor = heldPoint handle initial

theorem Renders.size_pos (h : Renders item drawn) : 0 < drawn.size.1 ∧ 0 < drawn.size.2 :=
  ⟨h.pos, h.snd_pos⟩

theorem Inspector.Inv.withLayout {inspector : Inspector} (h : inspector.Inv item) {layout : ItemLayout}
    (hlayout : layout.Positive) : { inspector with layout }.Inv item :=
  { h with layout := hlayout }

theorem minimumResizeRatio_pos {size : ℚ × ℚ} (hsize : 0 < size.1 ∧ 0 < size.2) :
    0 < minimumResizeRatio size :=
  div_pos (by norm_num) (lt_max_of_lt_left hsize.1)

/-- The fields that a press leaves as they are, and the operation that it begins. -/
theorem beginDrag_cases (stage : Stage) (viewport : Viewport) (position : ℚ × ℚ) (covered : Bool) :
    (stage.beginDrag viewport position covered).toInspector = stage.toInspector ∧
    (stage.beginDrag viewport position covered).contentDimensions = stage.contentDimensions ∧
    ∀ handle initial size anchor,
      (stage.beginDrag viewport position covered).dragOperation =
        some (.resize handle initial size anchor) →
      stage.dragOperation = some (.resize handle initial size anchor) ∨
        stage.shown = some initial ∧ size = stage.layout.size ∧ anchor = heldPoint handle initial := by
  have hpressed : ∀ frame handle initial size anchor,
      ({ stage with snapGuides := Stage.noGuides }.pressElement frame position covered).dragOperation ≠
        some (.resize handle initial size anchor) := by
    intro frame handle initial size anchor h
    obtain ⟨transform, -, ⟨⟩⟩ := Option.map_eq_some_iff.mp h
  rw [Stage.beginDrag]
  dsimp only
  split
  · exact ⟨rfl, rfl, fun _ _ _ _ h => .inl h⟩
  split
  · exact ⟨rfl, rfl, fun _ _ _ _ h => .inl h⟩
  split
  · split
    · exact ⟨rfl, rfl, fun _ _ _ _ h => .inl h⟩
    rename_i transform hshown
    split
    · exact ⟨rfl, rfl, by rintro _ _ _ _ ⟨⟩⟩
    split
    · refine ⟨rfl, rfl, ?_⟩
      rintro _ _ _ _ ⟨⟩
      exact .inr ⟨hshown, rfl, rfl⟩
    · exact ⟨rfl, rfl, fun _ _ _ _ h => absurd h (hpressed _ _ _ _ _)⟩
  · exact ⟨rfl, rfl, fun _ _ _ _ h => absurd h (hpressed _ _ _ _ _)⟩

/-- What a resize makes of the element. -/
theorem dragInset_resize {stage : Stage} {size : ℚ × ℚ} {viewport : Viewport} {position : ℚ × ℚ}
    {dimensions : ℕ × ℕ} {frame : Bounds} (hdimensions : stage.contentDimensions = some dimensions)
    (hframe : previewFrameBounds viewport dimensions = some frame)
    (hoperation : stage.dragOperation = some (.resize handle drawn size (heldPoint handle drawn))) :
    stage.dragInset threshold viewport position =
      { stage with
        snapGuides := (Pull.mk handle drawn (normalizedPositionUnclamped frame position)
          (minimumResizeRatio size) (threshold frame)).result.2.2
        layout := { stage.layout with
          center := (Pull.mk handle drawn (normalizedPositionUnclamped frame position)
            (minimumResizeRatio size) (threshold frame)).result.1
          size := scaledSize size (Pull.mk handle drawn (normalizedPositionUnclamped frame position)
            (minimumResizeRatio size) (threshold frame)).result.2.1 } } := by
  have hbound : stage.contentDimensions.bind (previewFrameBounds viewport) = some frame := by
    rw [hdimensions]
    exact hframe
  have hresize : stage.dragInset threshold viewport position =
      stage.resizeItem threshold handle drawn size (heldPoint handle drawn) viewport position := by
    rw [Stage.dragInset, hoperation]
  rw [hresize, Stage.resizeItem, hbound]
  rfl

theorem Pull.result_pos {pull : Pull} (hsize : 0 < pull.drawn.size.1 ∧ 0 < pull.drawn.size.2)
    (hminimum : 0 < pull.minimum) : 0 < pull.result.2.1 := by
  obtain ⟨ratio, guides, hsnaps, hresult⟩ := pull.result_eq hsize
  rw [hresult]
  exact hminimum.trans_le (hsnaps.minimum_le)

theorem dragInset_contentDimensions (viewport : Viewport) (position : ℚ × ℚ) :
    (stage.dragInset threshold viewport position).contentDimensions = stage.contentDimensions := by
  rw [Stage.dragInset]
  split
  · rw [Stage.repositionItem]
    split
    · rfl
    · rfl
  · rw [Stage.resizeItem]
    split
    · rfl
    · rfl
  · rfl
  · rfl

theorem Stage.Inv.dragInset (h : stage.Inv item) (viewport : Viewport) (position : ℚ × ℚ) :
    (stage.dragInset threshold viewport position).Inv item := by
  have hoperation : (stage.dragInset threshold viewport position).dragOperation = stage.dragOperation :=
    dragInset_dragOperation viewport position
  have hcontent : (stage.dragInset threshold viewport position).contentDimensions =
    stage.contentDimensions :=
    dragInset_contentDimensions viewport position
  have hresizing := h.resizing
  rw [← hoperation] at hresizing
  have hdimensions := h.dimensions
  rw [← hcontent] at hdimensions
  refine ⟨?_, hdimensions, hresizing⟩
  cases hdrag : stage.dragOperation with
  | none =>
    rw [Stage.dragInset, hdrag]
    exact h.inspector
  | some operation =>
    cases operation with
    | move offset =>
      rw [Stage.dragInset, hdrag]
      dsimp only
      rw [Stage.repositionItem]
      split
      · exact h.inspector.withLayout h.inspector.layout
      · exact h.inspector
    | cornerRadius bounds =>
      rw [Stage.dragInset, hdrag]
      exact h.inspector.withLayout h.inspector.layout
    | resize handle initial size anchor =>
      obtain ⟨hrenders, hsize, rfl⟩ := h.resizing handle initial size anchor hdrag
      cases hframe : stage.contentDimensions.bind (previewFrameBounds viewport) with
      | none =>
        rw [Stage.dragInset, hdrag]
        dsimp only
        rw [Stage.resizeItem, hframe]
        exact h.inspector
      | some frame =>
        obtain ⟨dimensions, hshown, hframe⟩ := Option.bind_eq_some_iff.mp hframe
        rw [dragInset_resize hshown hframe hdrag]
        exact h.inspector.withLayout (scaledSize_pos hsize
          (Pull.result_pos hrenders.size_pos (minimumResizeRatio_pos hsize)))

theorem Stage.Inv.step (h : stage.Inv item)
    (hstep : (stageSystem item threshold).step stage label stage') : stage'.Inv item := by
  cases label with
  | inspect step =>
    obtain ⟨hinspector, hstage⟩ := step_inspect hstep
    rw [hstage]
    refine ⟨h.inspector.step hinspector, ?_, h.resizing⟩
    intro dimensions hdimensions
    cases step with
    | showFrame => exact (Option.some.inj hdimensions).symm
    | edit adjustment value => exact h.dimensions dimensions hdimensions
    | request => exact h.dimensions dimensions hdimensions
    | take => exact h.dimensions dimensions hdimensions
    | compose available => exact h.dimensions dimensions hdimensions
  | select selected =>
    obtain rfl := Option.some.inj hstep
    exact ⟨h.inspector, h.dimensions, h.resizing⟩
  | press viewport position covered =>
    -- a resize that was not released before goes on with what it began with
    obtain rfl := Option.some.inj hstep
    obtain ⟨hinspector, hdimensions, hoperation⟩ := beginDrag_cases stage viewport position covered
    refine ⟨hinspector ▸ h.inspector, hdimensions ▸ h.dimensions, ?_⟩
    intro handle initial size anchor hdrag
    rcases hoperation handle initial size anchor hdrag with hdrag | ⟨hshown, rfl, rfl⟩
    · exact h.resizing handle initial size anchor hdrag
    · exact ⟨h.inspector.shown initial hshown, h.inspector.layout, rfl⟩
  | drag viewport position =>
    obtain rfl := Option.some.inj hstep
    exact h.dragInset viewport position
  | release =>
    obtain rfl := Option.some.inj hstep
    exact ⟨h.inspector, h.dimensions, by rintro _ _ _ _ ⟨⟩⟩
  | nudge key =>
    obtain ⟨-, hstep⟩ := Option.ite_none_right_eq_some.mp hstep
    obtain rfl := Option.some.inj hstep
    rw [Stage.moveSelected]
    dsimp only
    split
    · exact ⟨h.inspector.withLayout h.inspector.layout, h.dimensions, h.resizing⟩
    · exact h

theorem stage_inv (h : (stageSystem item threshold).Reachable stage) : stage.Inv item := by
  refine h.invariant ?_ fun _ _ _ hinv hstep => hinv.step hstep
  rintro stage ⟨hinspector, hdimensions, hoperation, -⟩
  exact ⟨inspector_inv ⟨_, [], hinspector, .nil _⟩, by simp [hdimensions], by simp [hoperation]⟩

theorem shownDimensions_kept {step : InspectorStep} (h : stage.contentDimensions = some item.canvas) :
    stage.shownDimensions item step = some item.canvas := by
  cases step with
  | showFrame => rfl
  | edit adjustment value => exact h
  | request => exact h
  | take => exact h
  | compose available => exact h

/-- A frame that has been shown has given its dimensions, for good. -/
theorem contentDimensions_step (h : stage.contentDimensions = some item.canvas)
    (hstep : (stageSystem item threshold).step stage label stage') :
    stage'.contentDimensions = some item.canvas := by
  cases label with
  | inspect step =>
    obtain ⟨-, hstage⟩ := step_inspect hstep
    rw [hstage]
    exact shownDimensions_kept h
  | select selected =>
    obtain rfl := Option.some.inj hstep
    exact h
  | press viewport position covered =>
    obtain rfl := Option.some.inj hstep
    exact (beginDrag_cases stage viewport position covered).2.1.trans h
  | drag viewport position =>
    obtain rfl := Option.some.inj hstep
    exact (dragInset_contentDimensions viewport position).trans h
  | release =>
    obtain rfl := Option.some.inj hstep
    exact h
  | nudge key =>
    obtain ⟨-, hstep⟩ := Option.ite_none_right_eq_some.mp hstep
    obtain rfl := Option.some.inj hstep
    rw [Stage.moveSelected]
    dsimp only
    split
    · exact h
    · exact h

/-! ## Resizes -/

/-- A press takes a resize handle of the selected element. -/
structure Stage.Grabs (stage : Stage) (viewport : Viewport) (position : ℚ × ℚ) (handle : ResizeHandle)
    (drawn : ItemTransform) : Prop where
  selected : stage.selected = true
  shown : stage.shown = some drawn
  taken : ∃ dimensions frame, stage.contentDimensions = some dimensions ∧
    previewFrameBounds viewport dimensions = some frame ∧
    (cornerRadiusHandleBounds (transformBounds frame drawn)
      (itemCornerRadius frame dimensions drawn)).contains position = false ∧
    resizeHandleAt position (transformBounds frame drawn) = some handle

theorem Stage.Grabs.beginDrag {viewport : Viewport} {position : ℚ × ℚ}
    (h : stage.Grabs viewport position handle drawn) (covered : Bool) :
    (stage.beginDrag viewport position covered).dragOperation =
      some (.resize handle drawn stage.layout.size (heldPoint handle drawn)) := by
  obtain ⟨dimensions, frame, hdimensions, hframe, hcorner, hhandle⟩ := h.taken
  rw [Stage.beginDrag]
  dsimp only
  rw [hdimensions]
  dsimp only
  rw [hframe]
  dsimp only
  rw [if_pos h.selected, h.shown]
  dsimp only
  rw [hcorner, if_neg Bool.false_ne_true, hhandle]
  rfl

theorem previewFrameBounds_eq_some {viewport : Viewport} {dimensions : ℕ × ℕ} {frame : Bounds}
    (h : previewFrameBounds viewport dimensions = some frame) (viewport' : Viewport) :
    ∃ frame', previewFrameBounds viewport' dimensions = some frame' := by
  obtain ⟨hdimensions, -⟩ := Option.ite_none_right_eq_some.mp h
  exact ⟨_, if_pos hdimensions⟩

/-- What a resize makes of an element that was drawn at a transform when its handle was taken: the sides
are those of the source, the point across from the handle is where it was, the layout is not below the
smallest size, and where a guide is shown the moved edge is on that border of the canvas. -/
structure Resized (item : Inspected) (handle : ResizeHandle) (drawn : ItemTransform) (stage' : Stage)
    (after : ItemTransform) : Prop where
  aspect : after.size.1 * item.canvasSize.1 * item.source.2 =
    after.size.2 * item.canvasSize.2 * item.source.1
  anchored : heldPoint handle after = heldPoint handle drawn
  minimum : 0.05 ≤ max stage'.layout.size.1 stage'.layout.size.2
  onBorderX : ∀ border, stage'.snapGuides.x = some border →
    ((axes handle).1 = -1 ∧ border = 0 ∨ (axes handle).1 = 1 ∧ border = 1) ∧
    (movedPoint handle after).1 = border
  onBorderY : ∀ border, stage'.snapGuides.y = some border →
    ((axes handle).2 = -1 ∧ border = 0 ∨ (axes handle).2 = 1 ∧ border = 1) ∧
    (movedPoint handle after).2 = border

/-- A border that is snapped to is one that the handle moves toward. -/
theorem borderToward_eq {ratio anchor direction size threshold border : ℚ}
    (hnear : Near ratio anchor direction size threshold)
    (hdirection : direction = 0 ∨ direction = 1 ∨ direction = -1)
    (hborder : some (borderToward direction) = some border) :
    direction = -1 ∧ border = 0 ∨ direction = 1 ∧ border = 1 := by
  obtain rfl := Option.some.inj hborder
  rcases hdirection with h | h | h
  · exact absurd h hnear.1
  · exact .inr ⟨h, by norm_num [h, borderToward]⟩
  · exact .inl ⟨h, by norm_num [h, borderToward]⟩

theorem reach_iff {anchor direction size ratio : ℚ} (hdirection : direction ≠ 0) (hsize : 0 < size) :
    anchor + direction * size * ratio = borderToward direction ↔
      ratio = reach anchor direction size := by
  rw [reach, eq_div_iff (mul_ne_zero hdirection hsize.ne')]
  constructor
  · intro h
    linarith
  · intro h
    linarith

theorem anchored_iff (hdrawn : Renders item drawn) {current : ItemTransform}
    (hcurrent : Renders item current) {ratio : ℚ} (hratio : 0 < ratio) {after : ItemTransform}
    (hsize : after.size = scaledSize current.size ratio)
    (hcenter : after.center =
      ((heldPoint handle drawn).1 + (axes handle).1 * drawn.size.1 * ratio * 0.5,
        (heldPoint handle drawn).2 + (axes handle).2 * drawn.size.2 * ratio * 0.5)) :
    heldPoint handle after = heldPoint handle drawn ↔ drawn.size = current.size := by
  have hheld : heldPoint handle after =
      ((heldPoint handle drawn).1 + (axes handle).1 * (drawn.size.1 - current.size.1) * (ratio * 0.5),
        (heldPoint handle drawn).2 + (axes handle).2 * (drawn.size.2 - current.size.2)
          * (ratio * 0.5)) := by
    rw [heldPoint, hcenter, hsize, scaledSize]
    refine Prod.ext ?_ ?_
    · dsimp only
      ring
    · dsimp only
      ring
  rw [hheld, Prod.ext_iff]
  dsimp only
  rw [add_eq_left, add_eq_left]
  have hscale : ratio * 0.5 ≠ 0 := (mul_pos hratio (by norm_num)).ne'
  constructor
  · rintro ⟨hx, hy⟩
    rcases axes_ne_zero handle with h | h
    · have hsame := (mul_eq_zero.mp ((mul_eq_zero.mp hx).resolve_right hscale)).resolve_left h
      exact (hdrawn.size_eq_iff_fst hcurrent).mpr (sub_eq_zero.mp hsame)
    · have hsame := (mul_eq_zero.mp ((mul_eq_zero.mp hy).resolve_right hscale)).resolve_left h
      exact (hdrawn.size_eq_iff_snd hcurrent).mpr (sub_eq_zero.mp hsame)
  · intro hsame
    rw [hsame]
    simp

/-- While a drag is held the frames keep their dimensions. -/
theorem contentDimensions_run {path : List StageStep} (h : stage.contentDimensions = some item.canvas)
    (hrun : (stageSystem item threshold).Run stage path stage') :
    stage'.contentDimensions = some item.canvas :=
  hrun.invariant (fun _ _ _ h hstep => contentDimensions_step h hstep) h

/-- At the end of any path of the pointer a resize is what the last position makes of its beginning. -/
theorem Stage.Grabs.resized {start begun : Stage} {viewport viewport' : Viewport}
    {position pointer : ℚ × ℚ}
    {covered : Bool} {path : List StageStep} {frame : Bounds} (hinv : start.Inv item)
    (h : start.Grabs viewport position handle drawn)
    (hpress : (stageSystem item threshold).step start (.press viewport position covered) begun)
    (hheld : ∀ label ∈ path, label.Held) (hrun : (stageSystem item threshold).Run begun path stage)
    (hdrag : (stageSystem item threshold).step stage (.drag viewport' pointer) stage')
    (hframe : previewFrameBounds viewport' item.canvas = some frame) :
    stage' =
      { stage with
        snapGuides := (Pull.mk handle drawn (normalizedPositionUnclamped frame pointer)
          (minimumResizeRatio start.layout.size) (threshold frame)).result.2.2
        layout := { stage.layout with
          center := (Pull.mk handle drawn (normalizedPositionUnclamped frame pointer)
            (minimumResizeRatio start.layout.size) (threshold frame)).result.1
          size := scaledSize start.layout.size (Pull.mk handle drawn
            (normalizedPositionUnclamped frame pointer) (minimumResizeRatio start.layout.size)
              (threshold frame)).result.2.1 } } := by
  obtain ⟨dimensions, -, hdimensions, -⟩ := h.taken
  obtain rfl := hinv.dimensions dimensions hdimensions
  obtain rfl := Option.some.inj hpress
  obtain rfl := Option.some.inj hdrag
  have hshown := contentDimensions_run
    ((beginDrag_cases start viewport position covered).2.1.trans hdimensions) hrun
  exact dragInset_resize hshown hframe ((Held.run hheld hrun).trans (h.beginDrag covered))

/-- A guide is that of a border the handle moves an edge toward. -/
theorem onBorder_iff {guide : Option ℚ} {asked ratio anchor direction size threshold edge : ℚ}
    (hguide : guide = none ∨
      guide = some (borderToward direction) ∧ Near asked anchor direction size threshold)
    (hdirection : direction = 0 ∨ direction = 1 ∨ direction = -1) (hsize : 0 < size)
    (hedge : edge = anchor + direction * size * ratio) :
    (∀ border, guide = some border →
      (direction = -1 ∧ border = 0 ∨ direction = 1 ∧ border = 1) ∧ edge = border) ↔
        (guide ≠ none → ratio = reach anchor direction size) := by
  rcases hguide with rfl | ⟨rfl, hnear⟩
  · simp
  rw [hedge, ← reach_iff hnear.1 hsize]
  constructor
  · intro h _
    exact (h _ rfl).2
  · intro h border hborder
    refine ⟨borderToward_eq hnear hdirection hborder, ?_⟩
    rw [h (Option.some_ne_none _)]
    exact Option.some.inj hborder

theorem Pull.Snaps.guide {pull : Pull} {ratio : ℚ} {guides : SnapGuides} (h : pull.Snaps ratio guides) :
    (guides.x = none ∨ guides.x = some (borderToward (axes pull.handle).1) ∧ pull.NearX) ∧
      (guides.y = none ∨ guides.y = some (borderToward (axes pull.handle).2) ∧ pull.NearY) := by
  cases h with
  | free => exact ⟨.inl rfl, .inl rfl⟩
  | horizontal hx => exact ⟨.inr ⟨rfl, hx⟩, .inl rfl⟩
  | vertical hy => exact ⟨.inl rfl, .inr ⟨rfl, hy⟩⟩

/-- No resize takes the larger side of the layout below the smallest size. -/
theorem minimum_scaledSize {size : ℚ × ℚ} {ratio : ℚ} (hsize : 0 < size.1 ∧ 0 < size.2)
    (hratio : minimumResizeRatio size ≤ ratio) :
    0.05 ≤ max (scaledSize size ratio).1 (scaledSize size ratio).2 := by
  have hlarger : 0 < max size.1 size.2 := lt_max_of_lt_left hsize.1
  have hpos := (minimumResizeRatio_pos hsize).le.trans hratio
  rw [minimumResizeRatio, div_le_iff₀ hlarger, mul_comm, max_mul_of_nonneg _ _ hpos] at hratio
  exact hratio

theorem resized_iff {pull : Pull} {size : ℚ × ℚ} {current after : ItemTransform}
    (hdrawn : Renders item pull.drawn) (hcurrent : Renders item current) (hafter : Renders item after)
    (hminimum : pull.minimum = minimumResizeRatio size) (hsize : 0 < size.1 ∧ 0 < size.2)
    (hlayout : stage'.layout.size = scaledSize size pull.result.2.1)
    (hguides : stage'.snapGuides = pull.result.2.2) (hcenter : after.center = pull.result.1)
    (hscaled : after.size = scaledSize current.size pull.result.2.1) :
    Resized item pull.handle pull.drawn stage' after ↔ pull.drawn.size = current.size ∧ pull.Clear := by
  obtain ⟨ratio, guides, hsnaps, hresult⟩ := pull.result_eq hdrawn.size_pos
  rw [hresult] at hlayout hguides hcenter hscaled
  dsimp only at hlayout hguides hcenter hscaled
  have hsmallest : minimumResizeRatio size ≤ ratio := hminimum ▸ hsnaps.minimum_le
  have hanchored := anchored_iff hdrawn hcurrent ((minimumResizeRatio_pos hsize).trans_le hsmallest)
    hscaled hcenter
  rw [← hanchored, pull.clear_iff hsnaps]
  -- the guides are read where the sides are those that were drawn
  have hborders : heldPoint pull.handle after = heldPoint pull.handle pull.drawn →
      ((∀ border, stage'.snapGuides.x = some border → ((axes pull.handle).1 = -1 ∧ border = 0 ∨
          (axes pull.handle).1 = 1 ∧ border = 1) ∧ (movedPoint pull.handle after).1 = border) ↔
        (guides.x ≠ none → ratio = pull.reachX)) ∧
      ((∀ border, stage'.snapGuides.y = some border → ((axes pull.handle).2 = -1 ∧ border = 0 ∨
          (axes pull.handle).2 = 1 ∧ border = 1) ∧ (movedPoint pull.handle after).2 = border) ↔
        (guides.y ≠ none → ratio = pull.reachY)) := by
    intro hsame
    rw [← hanchored.mp hsame] at hscaled
    rw [hguides]
    refine ⟨onBorder_iff hsnaps.guide.1 (axes_fst _) hdrawn.pos ?_,
      onBorder_iff hsnaps.guide.2 (axes_snd _) hdrawn.snd_pos ?_⟩
    · rw [movedPoint, hcenter, hscaled, scaledSize]
      ring
    · rw [movedPoint, hcenter, hscaled, scaledSize]
      ring
  constructor
  · intro h
    exact ⟨h.anchored, (hborders h.anchored).1.mp h.onBorderX, (hborders h.anchored).2.mp h.onBorderY⟩
  · rintro ⟨hsame, hx, hy⟩
    exact {
      aspect := hafter.aspect_source
      anchored := hsame
      minimum := hlayout ▸ minimum_scaledSize hsize hsmallest
      onBorderX := (hborders hsame).1.mpr hx
      onBorderY := (hborders hsame).2.mpr hy }

/-- A resize, along any path of the pointer and whatever else happens meanwhile, is as it should be
exactly when the frame that is shown at its beginning has the current size and no border is snapped to
that is nearer than the smallest size. -/
theorem resize_iff (item : Inspected) (threshold : Bounds → ℚ × ℚ) (start begun stage stage' : Stage)
    (handle : ResizeHandle) (drawn : ItemTransform) (viewport viewport' : Viewport)
    (position pointer : ℚ × ℚ) (covered : Bool) (path : List StageStep)
    (h : (stageSystem item threshold).Reachable start)
    (hgrabs : start.Grabs viewport position handle drawn)
    (hpress : (stageSystem item threshold).step start (.press viewport position covered) begun)
    (hheld : ∀ label ∈ path, label.Held) (hrun : (stageSystem item threshold).Run begun path stage)
    (hdrag : (stageSystem item threshold).step stage (.drag viewport' pointer) stage') :
    ∃ frame current after, previewFrameBounds viewport' item.canvas = some frame ∧
      item.elementTransform start.layout = some current ∧
      item.elementTransform stage'.layout = some after ∧
      (Resized item handle drawn stage' after ∧
        (∀ other moved moved', (∀ label ∈ other, label.Held) →
          (stageSystem item threshold).Run begun other moved →
          (stageSystem item threshold).step moved (.drag viewport' pointer) moved' →
          moved'.layout.center = stage'.layout.center ∧ moved'.layout.size = stage'.layout.size ∧
            moved'.snapGuides = stage'.snapGuides) ↔
        drawn.size = current.size ∧ (Pull.mk handle drawn (normalizedPositionUnclamped frame pointer)
          (minimumResizeRatio start.layout.size) (threshold frame)).Clear) := by
  have hinv := stage_inv h
  have hdrawn := hinv.inspector.shown drawn hgrabs.shown
  obtain ⟨dimensions, _, hdimensions, htaken, -⟩ := hgrabs.taken
  obtain rfl := hinv.dimensions dimensions hdimensions
  obtain ⟨frame, hframe⟩ := previewFrameBounds_eq_some htaken viewport'
  have hcurrent := elementTransform_eq hdrawn.canvas start.layout
  have hresized := hgrabs.resized hinv hpress hheld hrun hdrag hframe
  have hafter := elementTransform_eq hdrawn.canvas stage'.layout
  have hlayout := (stage_inv (((h.step hpress).run hrun).step hdrag)).inspector.layout
  refine ⟨frame, _, _, hframe, hcurrent, hafter, ?_⟩
  have hminimum : (Pull.mk handle drawn (normalizedPositionUnclamped frame pointer)
      (minimumResizeRatio start.layout.size) (threshold frame)).minimum =
        minimumResizeRatio start.layout.size := rfl
  have hiff := resized_iff hdrawn (elementTransform_renders hinv.inspector.layout hcurrent)
    (elementTransform_renders hlayout hafter) hminimum hinv.inspector.layout
    (show stage'.layout.size = _ by rw [hresized]) (by rw [hresized]) (by rw [hresized])
    (by
      rw [hresized]
      exact Inspected.aspectFitSize_scaledSize (Pull.result_pos hdrawn.size_pos
        (minimumResizeRatio_pos hinv.inspector.layout)) _ _ _)
  rw [← hiff]
  refine ⟨And.left, fun h => ⟨h, ?_⟩⟩
  intro other moved moved' hother hmoved hmove
  have hsame := hgrabs.resized hinv hpress hother hmoved hmove hframe
  rw [hresized, hsame]
  exact ⟨rfl, rfl, rfl⟩

/-! ## A border that is too near -/

/-- A selected element that has been shown as its layout is. -/
def Stage.fresh (item : Inspected) (layout : ItemLayout) (transform : ItemTransform) : Stage where
  layout := layout
  pending := none
  composing := none
  latest := none
  shown := some transform
  contentDimensions := some item.canvas
  selected := true
  dragOperation := none
  snapGuides := Stage.noGuides

theorem fresh_reachable {layout : ItemLayout} {transform : ItemTransform} (hlayout : layout.Positive)
    (h : item.elementTransform layout = some transform) :
    (stageSystem item threshold).Reachable (.fresh item layout transform) := by
  have hcompose : (stageSystem item threshold).step
      { Stage.fresh item layout transform with
        composing := some layout
        shown := none
        contentDimensions := none } (.inspect (.compose true))
      { Stage.fresh item layout transform with
        latest := some (some transform)
        shown := none
        contentDimensions := none } := by
    simp [stageSystem, Stage.step, Stage.offers, Inspector.step, Stage.fresh, Stage.shownDimensions, h]
  exact ⟨{ Stage.fresh item layout transform with
      shown := none
      contentDimensions := none },
    [.inspect .request, .inspect .take, .inspect (.compose true), .inspect .showFrame],
    ⟨⟨hlayout, rfl, rfl, rfl, rfl⟩, rfl, rfl, rfl⟩,
    .cons rfl (.cons rfl (.cons hcompose (.cons rfl (.nil _))))⟩

/-- The preview of a canvas of full HD at half its size, with as much room beside it. -/
def wideViewport : Viewport where
  size := (2432, 540)
  room := by norm_num

theorem wideViewport_frame : previewFrameBounds wideViewport fullHd.canvas = some {
    origin := (760, 0)
    size := (960, 540) } := by
  decide +kernel

/-- An element whose left edge is less than the smallest size from the right border. -/
def overRight : ItemTransform where
  center := (1.155, 0.5)
  size := (0.4, 0.4)
  cornerRadius := 0

def overRightLayout : ItemLayout where
  center := (1.155, 0.5)
  size := (0.4, 0.4)
  cornerRadiusRatio := 0

theorem overRight_shown : fullHd.elementTransform overRightLayout = some overRight := by decide +kernel

theorem overRight_reachable :
    (stageSystem fullHd normalizedSnapThreshold).Reachable (.fresh fullHd overRightLayout overRight) :=
  fresh_reachable (by norm_num [ItemLayout.Positive, overRightLayout]) overRight_shown

theorem overRight_grabs :
    (Stage.fresh fullHd overRightLayout overRight).Grabs wideViewport
    (2060.8, 270) .right overRight where
  selected := rfl
  shown := rfl
  taken := ⟨fullHd.canvas, _, rfl, wideViewport_frame, by decide +kernel, by decide +kernel⟩

/-- The pointer a little to the left of the handle, away from the border. -/
theorem resize_iff_right : ∃ stage after, fullHd.elementTransform stage.layout = some after ∧
    Resized fullHd .right overRight stage after := by
  obtain ⟨frame, current, after, hframe, hcurrent, hafter, hiff⟩ :=
    resize_iff fullHd normalizedSnapThreshold
    _ _ _ _ .right overRight wideViewport wideViewport (2060.8, 270) (2000, 270) false []
    overRight_reachable overRight_grabs rfl (by simp) (.nil _) rfl
  obtain rfl := Option.some.inj (hframe.symm.trans wideViewport_frame)
  have hsame : overRight.size = current.size := by
    rw [← Option.some.inj (overRight_shown.symm.trans hcurrent)]
  exact ⟨_, after, hafter, (hiff.mpr ⟨hsame, by decide +kernel⟩).1⟩

/-- The pointer back over the left edge: the guide of the right border is shown, and the right edge is
past it. -/
theorem guide_off_border : ¬ ∀ (item : Inspected) (threshold : Bounds → ℚ × ℚ)
    (start begun stage stage' : Stage) (handle : ResizeHandle) (drawn : ItemTransform)
    (viewport viewport' : Viewport) (position pointer : ℚ × ℚ) (covered : Bool) (path : List StageStep),
    (stageSystem item threshold).Reachable start → start.Grabs viewport position handle drawn →
    (stageSystem item threshold).step start (.press viewport position covered) begun →
    (∀ label ∈ path, label.Held) → (stageSystem item threshold).Run begun path stage →
    (stageSystem item threshold).step stage (.drag viewport' pointer) stage' →
    ∃ after, item.elementTransform stage'.layout = some after ∧
      Resized item handle drawn stage' after := by
  intro hclaim
  obtain ⟨after, hafter, hresized⟩ := hclaim fullHd normalizedSnapThreshold _ _ _ _ .right overRight
    wideViewport wideViewport (2060.8, 270) (1700, 270) false [] overRight_reachable overRight_grabs rfl
    (by simp) (.nil _) rfl
  have hguide := (hresized.onBorderX 1 (by decide +kernel)).2
  have hmoved : (fullHd.elementTransform (Stage.dragInset normalizedSnapThreshold
      ((Stage.fresh fullHd overRightLayout overRight).beginDrag wideViewport (2060.8, 270) false)
        wideViewport (1700, 270)).layout).map (fun after => (movedPoint .right after).1) =
      some 1.005 := by
    decide +kernel
  rw [hafter, Option.map_some, hguide] at hmoved
  norm_num at hmoved

end Blip.Studio.Exact
