import Blip.Studio.Inspector

/-!
# What an edit in the inspector does

An edit takes the element to the typed value where the frame that is shown has the size that the layout
gives now. After an edit of the size that no frame has followed yet, the next one is off by the change
between the two.
-/

namespace Blip.Studio.Exact

variable {item : Inspected} {inspector inspector' : Inspector}

/-! ## The size of what is rendered -/

def ItemLayout.Positive (layout : ItemLayout) : Prop := 0 < layout.size.1 ∧ 0 < layout.size.2

namespace Inspected

/-- The height of the element on the canvas for a width of one. -/
def slope (item : Inspected) : ℚ :=
  item.canvasSize.1 / item.canvasSize.2 / (item.source.1 / item.source.2)

theorem canvasSize_pos (item : Inspected) : 0 < item.canvasSize.1 ∧ 0 < item.canvasSize.2 :=
  ⟨Nat.cast_pos.mpr item.canvas_pos.1, Nat.cast_pos.mpr item.canvas_pos.2⟩

theorem slope_pos (item : Inspected) : 0 < item.slope := by
  obtain ⟨hwidth, hheight⟩ := item.canvasSize_pos
  obtain ⟨hsource, hsource'⟩ := item.source_pos
  exact div_pos (div_pos hwidth hheight) (div_pos hsource hsource')

/-- Whichever side binds, the height is the width times the slope. -/
theorem aspectFitSize_snd (item : Inspected) (size : ℚ × ℚ) :
    (aspectFitSize size item.source item.canvasSize).2 =
      (aspectFitSize size item.source item.canvasSize).1 * item.slope := by
  obtain ⟨hwidth, hheight⟩ := item.canvasSize_pos
  obtain ⟨hsource, hsource'⟩ := item.source_pos
  rw [aspectFitSize, slope]
  split
  · dsimp only
    ring
  · dsimp only
    field_simp

theorem aspectFitSize_pos {size : ℚ × ℚ} (hsize : 0 < size.1 ∧ 0 < size.2) :
    0 < (aspectFitSize size item.source item.canvasSize).1 := by
  obtain ⟨hwidth, hheight⟩ := item.canvasSize_pos
  obtain ⟨hsource, hsource'⟩ := item.source_pos
  rw [aspectFitSize]
  split
  · exact hsize.1
  · exact div_pos (mul_pos hsize.2 (div_pos hsource hsource')) (div_pos hwidth hheight)

/-- Which side binds does not depend on the scale. -/
theorem aspectFitSize_scaledSize {scale : ℚ} (hscale : 0 < scale) (size source canvas : ℚ × ℚ) :
    aspectFitSize (scaledSize size scale) source canvas =
      scaledSize (aspectFitSize size source canvas) scale := by
  have hbox : size.1 * scale * (canvas.1 / canvas.2) / (size.2 * scale) =
      size.1 * (canvas.1 / canvas.2) / size.2 := by
    rw [mul_right_comm, mul_div_mul_right _ _ hscale.ne']
  rw [aspectFitSize, aspectFitSize, scaledSize]
  dsimp only
  rw [hbox]
  split
  · exact Prod.ext rfl (by simp only [scaledSize]; ring)
  · exact Prod.ext (by simp only [scaledSize]; ring) rfl

/-- The shorter side of the canvas that a width of one reaches. -/
theorem shortSide_eq (item : Inspected) {size : ℚ × ℚ} (hpos : 0 ≤ size.1)
    (hsize : size.2 = size.1 * item.slope) :
    item.shortSide size = size.1 * min item.canvasSize.1 (item.slope * item.canvasSize.2) := by
  rw [shortSide, hsize, mul_assoc, mul_min_of_nonneg _ _ hpos]

end Inspected

/-- The transform of the element in some frame. -/
structure Renders (item : Inspected) (transform : ItemTransform) : Prop where
  canvas : item.canvas.1 < 2 ^ 32 ∧ item.canvas.2 < 2 ^ 32
  pos : 0 < transform.size.1
  aspect : transform.size.2 = transform.size.1 * item.slope

theorem elementTransform_renders {layout : ItemLayout} {transform : ItemTransform}
    (hlayout : layout.Positive) (h : item.elementTransform layout = some transform) :
    Renders item transform := by
  rw [Inspected.elementTransform] at h
  split at h
  · rename_i hcanvas
    obtain rfl := Option.some.inj h
    exact ⟨hcanvas, Inspected.aspectFitSize_pos hlayout, item.aspectFitSize_snd layout.size⟩
  · cases h

/-- What a layout is rendered at on a canvas that can be composed. -/
theorem elementTransform_eq (hcanvas : item.canvas.1 < 2 ^ 32 ∧ item.canvas.2 < 2 ^ 32)
    (layout : ItemLayout) : item.elementTransform layout = some {
      center := layout.center
      size := aspectFitSize layout.size item.source item.canvasSize
      cornerRadius := item.shortSide (aspectFitSize layout.size item.source item.canvasSize) *
        layout.cornerRadiusRatio } := by
  rw [Inspected.elementTransform, if_pos hcanvas]

namespace Renders

variable {left right : ItemTransform}

theorem snd_pos (h : Renders item left) : 0 < left.size.2 := by
  rw [h.aspect]
  exact mul_pos h.pos item.slope_pos

/-- One side gives the other. -/
theorem size_eq_iff_fst (hleft : Renders item left) (hright : Renders item right) :
    left.size = right.size ↔ left.size.1 = right.size.1 := by
  refine ⟨congrArg Prod.fst, fun h => Prod.ext h ?_⟩
  rw [hleft.aspect, hright.aspect, h]

theorem size_eq_iff_snd (hleft : Renders item left) (hright : Renders item right) :
    left.size = right.size ↔ left.size.2 = right.size.2 := by
  rw [hleft.size_eq_iff_fst hright, hleft.aspect, hright.aspect,
    mul_left_inj' item.slope_pos.ne']

theorem shortSide_pos (h : Renders item left) : 0 < item.shortSide left.size :=
  lt_min (mul_pos h.pos item.canvasSize_pos.1) (mul_pos h.snd_pos item.canvasSize_pos.2)

theorem size_eq_iff_shortSide (hleft : Renders item left) (hright : Renders item right) :
    left.size = right.size ↔ item.shortSide left.size = item.shortSide right.size := by
  have hunit : 0 < min item.canvasSize.1 (item.slope * item.canvasSize.2) :=
    lt_min item.canvasSize_pos.1 (mul_pos item.slope_pos item.canvasSize_pos.2)
  rw [hleft.size_eq_iff_fst hright, item.shortSide_eq hleft.pos.le hleft.aspect,
    item.shortSide_eq hright.pos.le hright.aspect, mul_left_inj' hunit.ne']

end Renders

/-! ## Every state -/

/-- Every copy of the layout has a size, and every frame was composed from one. -/
structure Inspector.Inv (item : Inspected) (inspector : Inspector) : Prop where
  layout : inspector.layout.Positive
  pending : ∀ layout ∈ inspector.pending, layout.Positive
  composing : ∀ layout ∈ inspector.composing, layout.Positive
  latest : ∀ transform, inspector.latest = some (some transform) → Renders item transform
  shown : ∀ transform ∈ inspector.shown, Renders item transform

theorem scaledSize_pos {size : ℚ × ℚ} {scale : ℚ} (hsize : 0 < size.1 ∧ 0 < size.2) (hscale : 0 < scale) :
    0 < (scaledSize size scale).1 ∧ 0 < (scaledSize size scale).2 :=
  ⟨mul_pos hsize.1 hscale, mul_pos hsize.2 hscale⟩

/-- The factor of an edit of a side. -/
theorem scale_pos {side canvas : ℚ} (hside : 0 < side) (hcanvas : 0 < canvas) (value : ℚ) :
    0 < max value 1 / (side * canvas) :=
  div_pos (lt_max_of_lt_right one_pos) (mul_pos hside hcanvas)

theorem editedLayout_positive {layout : ItemLayout} {transform : ItemTransform}
    (hlayout : layout.Positive) (h : Renders item transform) (adjustment : TransformAdjustment)
    (value : ℚ) : (item.editedLayout adjustment value transform layout).Positive := by
  cases adjustment with
  | width => exact scaledSize_pos hlayout (scale_pos h.pos item.canvasSize_pos.1 value)
  | height => exact scaledSize_pos hlayout (scale_pos h.snd_pos item.canvasSize_pos.2 value)
  | x => exact hlayout
  | y => exact hlayout
  | cornerRadius => exact hlayout
  | colorRed => exact hlayout
  | colorGreen => exact hlayout
  | colorBlue => exact hlayout

theorem Inspector.Inv.step {label : InspectorStep} (h : inspector.Inv item)
    (hstep : inspector.step item label = some inspector') : inspector'.Inv item := by
  cases label with
  | edit adjustment value =>
    obtain ⟨transform, hshown, rfl⟩ := Option.map_eq_some_iff.mp hstep
    exact { h with
      layout := editedLayout_positive h.layout (h.shown transform hshown) adjustment value }
  | request =>
    obtain rfl := Option.some.inj hstep
    exact { h with
      pending := by
        rintro _ ⟨⟩
        exact h.layout }
  | take =>
    obtain ⟨layout, hpending, rfl⟩ := Option.map_eq_some_iff.mp hstep
    exact { h with
      pending := by rintro _ ⟨⟩
      composing := by
        rintro _ ⟨⟩
        exact h.pending layout hpending }
  | compose available =>
    obtain ⟨layout, hcomposing, rfl⟩ := Option.map_eq_some_iff.mp hstep
    refine { h with
      composing := by rintro _ ⟨⟩
      latest := ?_ }
    intro transform hlatest
    dsimp only at hlatest
    split at hlatest
    · cases hrendered : item.elementTransform layout with
      | none =>
        rw [hrendered] at hlatest
        exact h.latest transform hlatest
      | some rendered =>
        rw [hrendered] at hlatest
        cases hlatest
        exact elementTransform_renders (h.composing layout hcomposing) hrendered
    · cases hlatest
  | showFrame =>
    obtain ⟨shown, hlatest, rfl⟩ := Option.map_eq_some_iff.mp hstep
    exact { h with
      latest := by rintro _ ⟨⟩
      shown := by
        rintro transform ⟨⟩
        exact h.latest transform hlatest }

theorem inspector_inv (h : (inspectorSystem item).Reachable inspector) : inspector.Inv item := by
  refine h.invariant ?_ fun _ _ _ hinv hstep => hinv.step hstep
  rintro inspector ⟨hlayout, hpending, hcomposing, hlatest, hshown⟩
  exact {
    layout := hlayout
    pending := by simp [hpending]
    composing := by simp [hcomposing]
    latest := by simp [hlatest]
    shown := by simp [hshown] }

/-! ## The edits -/

/-- The edited property is at the typed value, within the limits of its field. -/
def Typed (item : Inspected) (adjustment : TransformAdjustment) (value : ℚ) (after : ItemTransform) :
    Prop :=
  match adjustment with
  | .x => (after.center.1 - after.size.1 * 0.5) * item.canvasSize.1 = value
  | .y => (after.center.2 - after.size.2 * 0.5) * item.canvasSize.2 = value
  | .width => after.size.1 * item.canvasSize.1 = max value 1
  | .height => after.size.2 * item.canvasSize.2 = max value 1
  | .cornerRadius => after.cornerRadius = max 0 (min value (item.shortSide after.size * 0.5))
  | .colorRed | .colorGreen | .colorBlue => True

/-- What an edit makes of the element as the layout renders it: the property is as typed, the sides are those
of the source, and a move keeps them. -/
structure EditedAsTyped (item : Inspected) (adjustment : TransformAdjustment) (value : ℚ)
    (before after : ItemTransform) : Prop where
  typed : Typed item adjustment value after
  aspect : after.size.1 * item.canvasSize.1 * item.source.2 =
    after.size.2 * item.canvasSize.2 * item.source.1
  kept : adjustment = .x ∨ adjustment = .y → after.size = before.size

/-- The frame that is shown has the size of the layout; for a radius it is enough that the value is at a limit
of both. -/
def ShownFits (item : Inspected) (adjustment : TransformAdjustment) (value : ℚ)
    (shown current : ItemTransform) : Prop :=
  shown.size = current.size ∨
    match adjustment with
    | .cornerRadius => value ≤ 0 ∨
      item.shortSide shown.size * 0.5 ≤ value ∧ item.shortSide current.size * 0.5 ≤ value
    | .colorRed | .colorGreen | .colorBlue => True
    | .x | .y | .width | .height => False

theorem Renders.aspect_source {transform : ItemTransform} (h : Renders item transform) :
    transform.size.1 * item.canvasSize.1 * item.source.2 =
      transform.size.2 * item.canvasSize.2 * item.source.1 := by
  obtain ⟨hwidth, hheight⟩ := item.canvasSize_pos
  obtain ⟨hsource, hsource'⟩ := item.source_pos
  rw [h.aspect, Inspected.slope]
  field_simp

/-- A move is measured from the middle of the size that is shown. -/
theorem edge_eq_iff {canvas value shown current : ℚ} (hcanvas : 0 < canvas) :
    (value / canvas + shown * 0.5 - current * 0.5) * canvas = value ↔ shown = current := by
  have hedge : (value / canvas + shown * 0.5 - current * 0.5) * canvas =
      value + (shown - current) * (0.5 * canvas) := by
    field_simp
    ring
  rw [hedge, add_eq_left, mul_eq_zero, sub_eq_zero]
  exact or_iff_left (mul_pos (by norm_num) hcanvas).ne'

/-- A side is scaled by what the typed value is of the one that is shown. -/
theorem side_eq_iff {canvas value shown current : ℚ} (hcanvas : 0 < canvas) (hshown : 0 < shown) :
    current * (max value 1 / (shown * canvas)) * canvas = max value 1 ↔ shown = current := by
  have hvalue : 0 < max value 1 := lt_max_of_lt_right one_pos
  have hside : current * (max value 1 / (shown * canvas)) * canvas = max value 1 * (current / shown) := by
    field_simp
  rw [hside, mul_eq_left₀ hvalue.ne', div_eq_one_iff_eq hshown.ne', eq_comm]

/-- The ratio of one limit gives the radius of the other where they are the same or both bind. -/
theorem radius_eq_iff {shown current value : ℚ} (hshown : 0 < shown) (hcurrent : 0 < current) :
    current * 2 * (max 0 (min value shown) / (shown * 2)) = max 0 (min value current) ↔
      shown = current ∨ value ≤ 0 ∨ shown ≤ value ∧ current ≤ value := by
  have hcross : current * 2 * (max 0 (min value shown) / (shown * 2)) = max 0 (min value current) ↔
      current * max 0 (min value shown) = max 0 (min value current) * shown := by
    rw [← mul_div_assoc, div_eq_iff (by positivity)]
    constructor
    · intro h
      linarith
    · intro h
      linarith
  rw [hcross]
  rcases le_or_gt value 0 with hvalue | hvalue
  · rw [max_eq_left ((min_le_left _ _).trans hvalue), max_eq_left ((min_le_left _ _).trans hvalue)]
    simp [hvalue]
  · rw [max_eq_right (lt_min hvalue hshown).le, max_eq_right (lt_min hvalue hcurrent).le]
    rcases lt_or_ge value shown with hlow | hhigh
    · rw [min_eq_left hlow.le]
      rcases lt_or_ge value current with hlow' | hhigh'
      · rw [min_eq_left hlow'.le, mul_comm current, mul_right_inj' hvalue.ne']
        constructor
        · exact fun h => .inl h.symm
        · rintro (h | h | ⟨h, -⟩)
          · exact h.symm
          · exact absurd h hvalue.not_ge
          · exact absurd h hlow.not_ge
      · rw [min_eq_right hhigh', mul_right_inj' hcurrent.ne']
        constructor
        · exact fun h => absurd h hlow.ne
        · rintro (rfl | h | ⟨h, -⟩)
          · exact absurd hhigh' hlow.not_ge
          · exact absurd h hvalue.not_ge
          · exact absurd h hlow.not_ge
    · rw [min_eq_right hhigh, mul_left_inj' hshown.ne']
      rcases lt_or_ge value current with hlow' | hhigh'
      · rw [min_eq_left hlow'.le]
        constructor
        · exact fun h => absurd h hlow'.ne'
        · rintro (rfl | h | ⟨-, h⟩)
          · exact absurd hhigh hlow'.not_ge
          · exact absurd h hvalue.not_ge
          · exact absurd h hlow'.not_ge
      · rw [min_eq_right hhigh']
        simp [hhigh, hhigh']

/-- The property that an edit of an element in a frame gives it. -/
theorem typed_iff {layout : ItemLayout} {adjustment : TransformAdjustment} {value : ℚ}
    {shown before after : ItemTransform} (hshown : Renders item shown) (hbefore : Renders item before)
    (hrendered : item.elementTransform layout = some before)
    (hedited : item.elementTransform (item.editedLayout adjustment value shown layout) = some after) :
    Typed item adjustment value after ↔ ShownFits item adjustment value shown before := by
  obtain ⟨hwidth, hheight⟩ := item.canvasSize_pos
  rw [elementTransform_eq hshown.canvas, Option.some.injEq] at hrendered hedited
  rw [← hedited]
  have hsize : before.size = aspectFitSize layout.size item.source item.canvasSize := by rw [← hrendered]
  cases adjustment with
  | x =>
    simp only [Typed, ShownFits, Inspected.editedLayout, or_false]
    rw [← hsize, hshown.size_eq_iff_fst hbefore]
    exact edge_eq_iff hwidth
  | y =>
    simp only [Typed, ShownFits, Inspected.editedLayout, or_false]
    rw [← hsize, hshown.size_eq_iff_snd hbefore]
    exact edge_eq_iff hheight
  | width =>
    simp only [Typed, ShownFits, Inspected.editedLayout, or_false]
    rw [Inspected.aspectFitSize_scaledSize (scale_pos hshown.pos hwidth value), ← hsize,
      hshown.size_eq_iff_fst hbefore]
    exact side_eq_iff hwidth hshown.pos
  | height =>
    simp only [Typed, ShownFits, Inspected.editedLayout, or_false]
    rw [Inspected.aspectFitSize_scaledSize (scale_pos hshown.snd_pos hheight value), ← hsize,
      hshown.size_eq_iff_snd hbefore]
    exact side_eq_iff hheight hshown.snd_pos
  | cornerRadius =>
    simp only [Typed, ShownFits, Inspected.editedLayout]
    have hmaximum : 0 < item.shortSide shown.size * 0.5 := mul_pos hshown.shortSide_pos (by norm_num)
    have hmaximum' : 0 < item.shortSide before.size * 0.5 := mul_pos hbefore.shortSide_pos (by norm_num)
    have hsame : item.shortSide shown.size = item.shortSide before.size ↔
        item.shortSide shown.size * 0.5 = item.shortSide before.size * 0.5 :=
      (mul_left_inj' (by norm_num)).symm
    rw [← hsize, if_pos hmaximum, hshown.size_eq_iff_shortSide hbefore, hsame,
      ← radius_eq_iff hmaximum hmaximum']
    have hshort : item.shortSide before.size * 0.5 * 2 = item.shortSide before.size := by ring
    rw [hshort]
  | colorRed => simp [Typed, ShownFits]
  | colorGreen => simp [Typed, ShownFits]
  | colorBlue => simp [Typed, ShownFits]

/-- An edit, in any order with the frames, takes the element to what was typed exactly when the frame that is
shown fits. -/
theorem inspector_edit_iff (item : Inspected) (inspector inspector' : Inspector)
    (adjustment : TransformAdjustment) (value : ℚ) (h : (inspectorSystem item).Reachable inspector)
    (hstep : (inspectorSystem item).step inspector (.edit adjustment value) inspector') :
    ∃ shown before after, inspector.shown = some shown ∧
      item.elementTransform inspector.layout = some before ∧
      item.elementTransform inspector'.layout = some after ∧
      (EditedAsTyped item adjustment value before after ↔
        ShownFits item adjustment value shown before) := by
  have hinv := inspector_inv h
  obtain ⟨shown, hshown, rfl⟩ := Option.map_eq_some_iff.mp hstep
  have hrenders := hinv.shown shown hshown
  have hbefore := elementTransform_eq hrenders.canvas inspector.layout
  have hafter := elementTransform_eq hrenders.canvas
    (item.editedLayout adjustment value shown inspector.layout)
  have hrendersBefore := elementTransform_renders hinv.layout hbefore
  have hrendersAfter := elementTransform_renders
    (editedLayout_positive hinv.layout hrenders adjustment value) hafter
  refine ⟨shown, _, _, hshown, hbefore, hafter, ?_⟩
  rw [← typed_iff hrenders hrendersBefore hbefore hafter]
  constructor
  · exact EditedAsTyped.typed
  · intro htyped
    refine ⟨htyped, hrendersAfter.aspect_source, ?_⟩
    rintro (rfl | rfl)
    · rfl
    · rfl

/-! ## Edits faster than the frames -/

/-- A source and a canvas of full HD. -/
def fullHd : Inspected where
  source := (1920, 1080)
  canvas := (1920, 1080)
  source_pos := by norm_num
  canvas_pos := by norm_num

def fullTransform : ItemTransform where
  center := (0.5, 0.5)
  size := (1, 1)
  cornerRadius := 0

/-- The element over the whole canvas, shown so. -/
def fullCanvas : Inspector where
  layout := {
    center := (0.5, 0.5)
    size := (1, 1)
    cornerRadiusRatio := 0 }
  pending := none
  composing := none
  latest := none
  shown := some fullTransform

theorem fullCanvas_reachable : (inspectorSystem fullHd).Reachable fullCanvas := by
  refine ⟨{ fullCanvas with shown := none }, [.request, .take, .compose true, .showFrame],
    ⟨by norm_num [fullCanvas], rfl, rfl, rfl, rfl⟩, ?_⟩
  have hframe : fullHd.elementTransform fullCanvas.layout = fullCanvas.shown := by decide +kernel
  refine .cons rfl (.cons rfl (.cons rfl (.cons ?_ (.nil _))))
  exact congrArg some (congrArg (fun shown => { fullCanvas with shown }) hframe)

theorem inspector_edit_iff_first : ∃ before after,
    fullHd.elementTransform fullCanvas.layout = some before ∧
      EditedAsTyped fullHd .width 960 before after := by
  obtain ⟨shown, before, after, hshown, hbefore, -, hiff⟩ := inspector_edit_iff fullHd fullCanvas _
    .width 960 fullCanvas_reachable rfl
  refine ⟨before, after, hbefore, hiff.mpr (.inl ?_)⟩
  have hframe : fullHd.elementTransform fullCanvas.layout = fullCanvas.shown := by decide +kernel
  rw [hframe, hshown] at hbefore
  rw [Option.some.inj hbefore]

/-- A width of 960 and then of 480, before the next frame: the second leaves a width of 240. -/
theorem second_width_compounds : ¬ ∀ (item : Inspected) (inspector inspector' : Inspector)
    (adjustment : TransformAdjustment) (value : ℚ), (inspectorSystem item).Reachable inspector →
    (inspectorSystem item).step inspector (.edit adjustment value) inspector' →
    ∃ before after, item.elementTransform inspector.layout = some before ∧
      item.elementTransform inspector'.layout = some after ∧
      EditedAsTyped item adjustment value before after := by
  intro hclaim
  have hedit : (inspectorSystem fullHd).step fullCanvas (.edit .width 960) _ := rfl
  obtain ⟨before, after, -, hafter, hedited⟩ := hclaim fullHd _ _ .width 480
    (fullCanvas_reachable.step hedit) rfl
  have hwidth : after.size.1 * fullHd.canvasSize.1 = 240 := by
    have hrendered : (fullHd.elementTransform (fullHd.editedLayout .width 480 fullTransform
        (fullHd.editedLayout .width 960 fullTransform fullCanvas.layout))).map
          (fun after => after.size.1 * fullHd.canvasSize.1) = some 240 := by
      decide +kernel
    rw [hafter] at hrendered
    exact Option.some.inj hrendered
  have htyped : after.size.1 * fullHd.canvasSize.1 = max 480 1 := hedited.typed
  rw [hwidth] at htyped
  norm_num at htyped

end Blip.Studio.Exact
