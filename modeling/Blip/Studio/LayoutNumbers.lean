import Blip.Studio.Scene
import Blip.Studio.Viewer

/-!
# Numbers of a layout

Which inspector edits, drags and nudges keep the numbers of a layout finite and its sides positive.
-/

namespace Blip.Studio

/-- The center is finite, the sides are positive and finite, and the corner radius is finite and not
negative. -/
structure ItemLayout.Valid (layout : ItemLayout) : Prop where
  centerX : layout.center.1.isFinite = true
  centerY : layout.center.2.isFinite = true
  width : positiveFinite layout.size.1 = true
  height : positiveFinite layout.size.2 = true
  cornerRadius : layout.cornerRadiusRatio.isFinite = true ∧ 0 ≤ layout.cornerRadiusRatio.toRat

theorem positiveFinite_iff {value : F32} :
    positiveFinite value = true ↔ value.isFinite = true ∧ 0 < value.toRat := by
  rw [positiveFinite, Bool.and_eq_true]
  refine and_congr_right fun hfinite => ?_
  rw [F32.lt_eq (by decide +kernel) hfinite, decide_eq_true_eq,
    show (F32.ofRat 0).toRat = 0 by decide +kernel]

theorem numbersValid_iff {element : ProjectElement} :
    element.numbersValid = true ↔ element.sceneElement.layout.Valid := by
  have hratio : (element.cornerRadiusRatio.isFinite &&
      (F32.ofRat 0).le element.cornerRadiusRatio) = true ↔
      element.cornerRadiusRatio.isFinite = true ∧ 0 ≤ element.cornerRadiusRatio.toRat := by
    rw [Bool.and_eq_true]
    refine and_congr_right fun hfinite => ?_
    have hnan : element.cornerRadiusRatio.isNan = false := by
      cases hvalue : element.cornerRadiusRatio with
      | nan => rw [hvalue] at hfinite; cases hfinite
      | infinite | finite => rfl
    rw [F32.le, hnan, F32.lt_eq hfinite (by decide +kernel),
      show (F32.ofRat 0).toRat = 0 by decide +kernel]
    simp [show (F32.ofRat 0).isNan = false by decide +kernel]
  rw [ProjectElement.numbersValid, Bool.and_assoc _ _ ((F32.ofRat 0).le _), Bool.and_eq_true,
    hratio]
  simp only [Bool.and_eq_true]
  exact ⟨fun ⟨⟨⟨⟨hx, hy⟩, hwidth⟩, hheight⟩, hradius⟩ => ⟨hx, hy, hwidth, hheight, hradius⟩,
    fun h => ⟨⟨⟨⟨h.centerX, h.centerY⟩, h.width⟩, h.height⟩, h.cornerRadius⟩⟩

theorem fullCanvasLayout_valid : fullCanvasLayout.Valid where
  centerX := by decide +kernel
  centerY := by decide +kernel
  width := by decide +kernel
  height := by decide +kernel
  cornerRadius := by decide +kernel

theorem insetLayout_valid : insetLayout.Valid where
  centerX := by decide +kernel
  centerY := by decide +kernel
  width := by decide +kernel
  height := by decide +kernel
  cornerRadius := by decide +kernel

/-! ## Nudges and moves -/

theorem half_isFinite : half.isFinite = true := by decide +kernel

theorem half_toRat : half.toRat = 1 / 2 := by decide +kernel

/-- A number between zero and one. -/
theorem clamp_unit {value : F32} (h : value.isNan = false) :
    (value.clamp (.ofRat 0) (.ofRat 1)).isFinite = true ∧
      0 ≤ (value.clamp (.ofRat 0) (.ofRat 1)).toRat ∧
      (value.clamp (.ofRat 0) (.ofRat 1)).toRat ≤ 1 := by
  have hclamp := @F32.clamp_spec value (.ofRat 0) (.ofRat 1) h (by decide +kernel)
    (by decide +kernel) (by decide +kernel)
  rwa [show (F32.ofRat 0).toRat = 0 by decide +kernel,
    show (F32.ofRat 1).toRat = 1 by decide +kernel] at hclamp

/-- Half of a number that is finite, and how far it is from the exact half. -/
theorem mul_half_spec {value : F32} (h : value.isFinite = true) :
    (value * half).isFinite = true ∧ |(value * half).toRat| ≤ f32Max / 2 + 2 ^ 103 := by
  have hbound := F32.abs_toRat_le value
  have hexact : |value.toRat * half.toRat| ≤ f32Max / 2 := by
    rw [half_toRat, abs_mul, abs_of_pos (by norm_num : (0 : ℚ) < 1 / 2)]
    linarith
  have hfinite : (value * half).isFinite = true :=
    F32.mul_isFinite h half_isFinite (lt_of_le_of_lt hexact (by rw [f32Max, f32Overflow]; norm_num))
  refine ⟨hfinite, ?_⟩
  have herror := abs_le.1 (F32.mul_error h half_isFinite hfinite)
  have hexact := abs_le.1 hexact
  exact abs_le.2 ⟨by linarith, by linarith⟩

/-- Moving an edge near a border onto it keeps the center finite. -/
theorem snap_isFinite {center border edge : F32} (hcenter : center.isFinite = true)
    (hadjustment : (border - edge).isFinite = true)
    (hnear : |center.toRat + (border.toRat - edge.toRat)| ≤ 1 + (f32Max / 2 + 2 ^ 104)) :
    (center + (border - edge)).isFinite = true := by
  refine F32.add_isFinite hcenter hadjustment (lt_of_le_of_lt ?_ (?_ : 1 + (f32Max / 2 + 2 ^ 104) +
    2 ^ 103 < f32Overflow))
  · have herror := abs_le.1 (F32.sub_error hadjustment)
    have hnear := abs_le.1 hnear
    exact abs_le.2 ⟨by linarith, by linarith⟩
  · rw [f32Max, f32Overflow]
    norm_num

/-- A distance below another one is a number. -/
theorem isFinite_of_abs_lt {adjustment best : F32} (h : adjustment.abs.lt best = true) :
    adjustment.isFinite = true := by
  cases adjustment with
  | finite => rfl
  | nan => cases best <;> cases h
  | infinite => cases best <;> cases h

/-- An edge that is near a border is half of the side from the center. -/
theorem edge_near {center halfSize border edge : F32}
    (hborder : 0 ≤ border.toRat ∧ border.toRat ≤ 1)
    (hhalf : |halfSize.toRat| ≤ f32Max / 2 + 2 ^ 103)
    (hedge : |edge.toRat - center.toRat| ≤ |halfSize.toRat| + 2 ^ 103) :
    |center.toRat + (border.toRat - edge.toRat)| ≤ 1 + (f32Max / 2 + 2 ^ 104) := by
  have hedge := abs_le.1 (hedge.trans (by linarith : _ ≤ f32Max / 2 + 2 ^ 103 + 2 ^ 103))
  norm_num at hedge ⊢
  exact abs_le.2 ⟨by linarith, by linarith⟩

/-- Snapping keeps a finite center finite. -/
theorem snappedMoveAxis_isFinite {center : F32} (size threshold : F32)
    (hcenter : center.isFinite = true) :
    (snappedMoveAxis center size threshold).isFinite = true := by
  have hborder : ∀ border ∈ [F32.ofRat 0, half, F32.ofRat 1],
      0 ≤ border.toRat ∧ border.toRat ≤ 1 := by decide +kernel
  have hplace : ∀ place ∈ [(center - size * half, F32.ofRat 0), (center, half),
      (center + size * half, F32.ofRat 1)], (place.2 - place.1).isFinite = true →
      (center + (place.2 - place.1)).isFinite = true := by
    rintro ⟨edge, border⟩ hmem hadjustment
    have hedge := (F32.isFinite_of_sub hadjustment).2
    refine snap_isFinite hcenter hadjustment ?_
    simp only [List.mem_cons, Prod.mk.injEq, List.not_mem_nil, or_false] at hmem
    rcases hmem with ⟨rfl, rfl⟩ | ⟨rfl, rfl⟩ | ⟨rfl, rfl⟩
    · have hhalf := mul_half_spec (F32.isFinite_of_mul (F32.isFinite_of_sub hedge).2).1
      refine edge_near (hborder _ (by simp)) hhalf.2 ?_
      have herror := abs_le.1 (F32.sub_error hedge)
      have hself := neg_abs_le (size * half).toRat
      have hself' := le_abs_self (size * half).toRat
      exact abs_le.2 ⟨by linarith, by linarith⟩
    · rw [half_toRat]
      have hmax : (0 : ℚ) ≤ f32Max := by rw [f32Max]; norm_num
      rw [abs_le]
      constructor <;> linarith
    · have hhalf := mul_half_spec (F32.isFinite_of_mul (F32.isFinite_of_add hedge).2).1
      refine edge_near (hborder _ (by simp)) hhalf.2 ?_
      have herror := abs_le.1 (F32.add_error hedge)
      have hself := neg_abs_le (size * half).toRat
      have hself' := le_abs_self (size * half).toRat
      exact abs_le.2 ⟨by linarith, by linarith⟩
  rw [snappedMoveAxis]
  refine List.foldlRecOn _ _ (motive := fun best : F32 × F32 => best.2.isFinite = true) hcenter
    fun best hbest place hmem => ?_
  dsimp only
  split
  · rename_i hsnap
    exact hplace place hmem (isFinite_of_abs_lt (Bool.and_eq_true _ _ ▸ hsnap).2)
  · exact hbest

/-- Nudging leaves a center on the canvas. -/
theorem nudgedCenter_isFinite {center delta canvas : Vec2}
    (hx : (center.1 + delta.1 / canvas.1).isNan = false)
    (hy : (center.2 + delta.2 / canvas.2).isNan = false) :
    (nudgedCenter center delta canvas).1.isFinite = true ∧
      (nudgedCenter center delta canvas).2.isFinite = true :=
  ⟨(clamp_unit hx).1, (clamp_unit hy).1⟩

/-! ## Sides -/

/-- The products of the sides of a size and a factor are within the numbers. -/
def ScalesInRange (size : Vec2) (scale : F32) : Prop :=
  scale.isFinite = true ∧ ∀ side ∈ [size.1, size.2], side.isFinite = true ∧
    f32Underflow < side.toRat * scale.toRat ∧ side.toRat * scale.toRat < f32Overflow

instance (size : Vec2) (scale : F32) : Decidable (ScalesInRange size scale) :=
  inferInstanceAs (Decidable (_ ∧ _))

theorem scaledSize_positive {size : Vec2} {scale : F32} (h : ScalesInRange size scale) :
    positiveFinite (scaledSize size scale).1 = true ∧
      positiveFinite (scaledSize size scale).2 = true := by
  obtain ⟨hscale, hsides⟩ := h
  have hside : ∀ side ∈ [size.1, size.2], positiveFinite (side * scale) = true := by
    intro side hmem
    obtain ⟨hside, hlower, hupper⟩ := hsides side hmem
    have hpos : 0 < side.toRat * scale.toRat := lt_trans (by rw [f32Underflow]; norm_num) hlower
    exact positiveFinite_iff.2 ⟨F32.mul_isFinite hside hscale (by rwa [abs_of_pos hpos]),
      F32.mul_pos_of hside hscale hlower hupper⟩
  exact ⟨hside _ (by simp), hside _ (by simp)⟩

/-! ## Inspector edits -/

/-- The half of the smaller rendered side. -/
def maximumCornerRadius (canvas : Vec2) (transform : ItemTransform) : F32 :=
  (transform.size.1 * canvas.1).min (transform.size.2 * canvas.2) * half

/-- The value of an inspector field fits the element: positions and rendered sides are finite,
sides stay within the numbers, and the radius or its maximum is finite. -/
def EditFits (adjustment : TransformAdjustment) (value : F32) (canvas : Vec2)
    (transform : ItemTransform) (layout : ItemLayout) : Prop :=
  match adjustment with
  | .x => value.isFinite = true ∧ transform.size.1.isFinite = true
  | .y => value.isFinite = true ∧ transform.size.2.isFinite = true
  | .width =>
    ScalesInRange layout.size (value.max (.ofRat 1) / (transform.size.1 * canvas.1))
  | .height =>
    ScalesInRange layout.size (value.max (.ofRat 1) / (transform.size.2 * canvas.2))
  | .cornerRadius =>
    value.isNan = false ∧
      (value = .infinite false → (maximumCornerRadius canvas transform).isFinite = true)
  | .colorRed | .colorGreen | .colorBlue => True

instance (adjustment : TransformAdjustment) (value : F32) (canvas : Vec2)
    (transform : ItemTransform) (layout : ItemLayout) :
    Decidable (EditFits adjustment value canvas transform layout) :=
  match adjustment with
  | .x | .y | .width | .height | .cornerRadius => inferInstanceAs (Decidable (_ ∧ _))
  | .colorRed | .colorGreen | .colorBlue => isTrue trivial

/-- The center of an element at an edge on the canvas. -/
theorem edgeCenter_isFinite {value side canvas : F32} (hvalue : value.isFinite = true)
    (hside : side.isFinite = true) (hcanvas : canvas.isFinite = true) (hlarge : 4 ≤ canvas.toRat) :
    (value / canvas + side * half).isFinite = true := by
  have hmax : (0 : ℚ) ≤ f32Max := by rw [f32Max]; norm_num
  have hne : canvas.toRat ≠ 0 := by linarith
  have hexact : |value.toRat / canvas.toRat| ≤ f32Max / 4 := by
    rw [abs_div, abs_of_pos (by linarith : 0 < canvas.toRat)]
    exact div_le_div₀ hmax (F32.abs_toRat_le value) (by norm_num) hlarge
  have hfinite : (value / canvas).isFinite = true :=
    F32.div_isFinite hvalue hcanvas hne (lt_of_le_of_lt hexact (by rw [f32Max, f32Overflow]; norm_num))
  obtain ⟨hhalf, hhalfBound⟩ := mul_half_spec hside
  have herror := abs_le.1 (F32.div_error hvalue hcanvas hne hfinite)
  have hexact := abs_le.1 hexact
  have hhalfBound := abs_le.1 hhalfBound
  refine F32.add_isFinite hfinite hhalf (lt_of_le_of_lt (b := f32Max / 4 * 3 + 2 ^ 104) ?_ ?_)
  · norm_num at herror hhalfBound ⊢
    exact abs_le.2 ⟨by linarith, by linarith⟩
  · rw [f32Max, f32Overflow]
    norm_num

/-- The part of the maximum that a corner radius is. -/
theorem cornerRadius_spec {value side : F32} (hvalue : value.isNan = false)
    (hpositive : (F32.ofRat 0).lt (side * half) = true)
    (hfits : value = .infinite false → (side * half).isFinite = true) :
    (value.clamp (.ofRat 0) (side * half) / (side * half * .ofRat 2)).isFinite = true ∧
      0 ≤ (value.clamp (.ofRat 0) (side * half) / (side * half * .ofRat 2)).toRat := by
  have hzero : (F32.ofRat 0).isFinite = true ∧ (F32.ofRat 0).toRat = 0 := by decide +kernel
  have htwo : (F32.ofRat 2).isFinite = true ∧ (F32.ofRat 2).toRat = 2 := by decide +kernel
  by_cases hfinite : (side * half).isFinite = true
  · rw [F32.lt_eq hzero.1 hfinite, hzero.2, decide_eq_true_eq] at hpositive
    have hleast := F32.least_le_mul hpositive
    have hclamp := F32.clamp_spec hvalue hzero.1 hfinite (hzero.2.le.trans hpositive.le)
    generalize side * half = maximum at *
    generalize value.clamp (.ofRat 0) maximum = radius at *
    rw [hzero.2] at hclamp
    by_cases hdouble : (maximum * .ofRat 2).isFinite = true
    · have hge := F32.half_le_mul hfinite htwo.1 hdouble (by rw [htwo.2]; linarith)
      rw [htwo.2] at hge
      have hpos : 0 < (maximum * .ofRat 2).toRat := by linarith
      have hratio : 0 ≤ radius.toRat / (maximum * .ofRat 2).toRat := div_nonneg hclamp.2.1 hpos.le
      refine ⟨F32.div_isFinite hclamp.1 hdouble hpos.ne' ?_,
        F32.div_nonneg_of hclamp.1 hdouble hpos.ne' hratio⟩
      rw [abs_of_nonneg hratio]
      have hle : radius.toRat / (maximum * .ofRat 2).toRat ≤ 1 := by
        rw [div_le_one hpos]
        linarith
      exact lt_of_le_of_lt hle (by rw [f32Overflow]; norm_num)
    · obtain ⟨negative, hinfinite⟩ := (F32.mul_cases hfinite htwo.1).resolve_left hdouble
      rw [hinfinite]
      exact (F32.div_infinite hclamp.1 negative).imp_right fun h => h.ge
  · have hvalue' : value ≠ .infinite false := fun heq => hfinite (hfits heq)
    have hinfinite : side * half = .infinite false := by
      cases hmaximum : side * half with
      | nan => rw [hmaximum] at hpositive; cases hpositive
      | finite => rw [hmaximum] at hfinite; exact absurd rfl hfinite
      | infinite negative =>
        cases negative with
        | false => rfl
        | true => rw [hmaximum] at hpositive; cases hpositive
    rw [hinfinite, show F32.infinite false * .ofRat 2 = .infinite false by decide +kernel]
    exact (F32.div_infinite (F32.clamp_infinite_isFinite hvalue hvalue' hzero.1) false).imp_right
      fun h => h.ge

/-- Values that fit keep the numbers of a layout. -/
theorem editedLayout_valid {adjustment : TransformAdjustment} {value : F32}
    {transform : ItemTransform} {layout : ItemLayout} (h : layout.Valid)
    (hfits : EditFits adjustment value (ofCount 1920, ofCount 1080) transform layout) :
    (Viewer.editedLayout adjustment value (ofCount 1920, ofCount 1080) transform layout).Valid := by
  cases adjustment with
  | x =>
    exact { h with centerX := edgeCenter_isFinite hfits.1 hfits.2 (by decide +kernel) (by decide +kernel) }
  | y =>
    exact { h with centerY := edgeCenter_isFinite hfits.1 hfits.2 (by decide +kernel) (by decide +kernel) }
  | width | height =>
    obtain ⟨hwidth, hheight⟩ := scaledSize_positive hfits
    exact
      { h with
        width := hwidth
        height := hheight }
  | cornerRadius =>
    refine { h with cornerRadius := ?_ }
    dsimp only [Viewer.editedLayout]
    split
    · rename_i hpositive
      exact cornerRadius_spec hfits.1 hpositive hfits.2
    · decide +kernel
  | colorRed | colorGreen | colorBlue => exact h

/-! ## Drags on the canvas -/

/-- The place that the pointer gives an element fits: the center is finite, the sides that resizing
gives stay within the numbers, and the corner radius is a number. -/
def DragFits (shown : Option Bounds) (position : Point) : DragOperation → Prop
  | .move _ offset => ∀ frame ∈ shown,
    (normalizedPositionUnclamped position.x frame.origin.x frame.size.1 - offset.1).isFinite =
        true ∧
      (normalizedPositionUnclamped position.y frame.origin.y frame.size.2 - offset.2).isFinite =
        true
  | .resize _ handle initialTransform initialSize anchor => ∀ frame ∈ shown,
    let resized := resizedItemWithBorderSnap handle initialTransform anchor
      (normalizedPositionUnclamped position.x frame.origin.x frame.size.1,
        normalizedPositionUnclamped position.y frame.origin.y frame.size.2)
      (minimumResizeRatio initialSize) (normalizedSnapThreshold frame)
    (resized.1.1.isFinite = true ∧ resized.1.2.isFinite = true) ∧
      ScalesInRange initialSize resized.2
  | .cornerRadius _ bounds => (cornerRadiusRatioFromPosition bounds position).isNan = false

instance (shown : Option Bounds) (position : Point) (operation : DragOperation) :
    Decidable (DragFits shown position operation) :=
  match operation with
  | .move _ _ => inferInstanceAs (Decidable (∀ frame ∈ shown, _ ∧ _))
  | .resize _ _ _ _ _ => inferInstanceAs (Decidable (∀ frame ∈ shown, (_ ∧ _) ∧ _))
  | .cornerRadius _ _ => inferInstanceAs (Decidable (_ = _))

/-- A corner radius that is a number is up to the half of the smaller side. -/
theorem cornerRadiusRatioFromPosition_spec {bounds : Bounds} {position : Point}
    (h : (cornerRadiusRatioFromPosition bounds position).isNan = false) :
    (cornerRadiusRatioFromPosition bounds position).isFinite = true ∧
      0 ≤ (cornerRadiusRatioFromPosition bounds position).toRat := by
  rw [cornerRadiusRatioFromPosition] at h ⊢
  dsimp only at h ⊢
  split
  · decide +kernel
  · rename_i hinset
    rw [if_neg hinset] at h
    have hratio : ∀ ratio : F32,
        (ratio.clamp (.ofRat 0) (.ofRat 1) * half).isNan = false → ratio.isNan = false := by
      intro ratio hnan
      cases ratio with
      | nan => exact absurd hnan (by decide +kernel)
      | infinite | finite => rfl
    obtain ⟨hfinite, hnonneg, -⟩ := clamp_unit (hratio _ h)
    refine ⟨(mul_half_spec hfinite).1, F32.mul_nonneg_of hfinite half_isFinite ?_⟩
    rw [half_toRat]
    positivity

/-- Drags that fit keep the numbers of a layout. -/
theorem draggedLayout_valid {viewer : Viewer} {viewport : Vec2} {position : Point}
    {operation : DragOperation} {item : ElementId} {change : ItemLayout → ItemLayout}
    (hfits : DragFits (viewer.contentDimensions.bind (previewFrameBounds viewport)) position
      operation) (hchange : viewer.draggedLayout viewport position operation = some (item, change))
    {layout : ItemLayout} (h : layout.Valid) : (change layout).Valid := by
  cases operation with
  | move moved offset =>
    simp only [Viewer.draggedLayout, Option.bind_eq_bind, Option.bind_eq_some_iff] at hchange
    obtain ⟨dimensions, hdimensions, frame, hframe, transform, -, hchange⟩ := hchange
    cases hchange
    obtain ⟨hx, hy⟩ := hfits frame (by rw [hdimensions]; exact hframe)
    exact
      { h with
        centerX := snappedMoveAxis_isFinite _ _ hx
        centerY := snappedMoveAxis_isFinite _ _ hy }
  | resize resized handle initialTransform initialSize anchor =>
    simp only [Viewer.draggedLayout, Option.bind_eq_bind, Option.bind_eq_some_iff] at hchange
    obtain ⟨dimensions, hdimensions, frame, hframe, hchange⟩ := hchange
    cases hchange
    obtain ⟨hcenter, hsize⟩ := hfits frame (by rw [hdimensions]; exact hframe)
    obtain ⟨hwidth, hheight⟩ := scaledSize_positive hsize
    exact
      { h with
        centerX := hcenter.1
        centerY := hcenter.2
        width := hwidth
        height := hheight }
  | cornerRadius rounded bounds =>
    cases hchange
    exact { h with cornerRadius := cornerRadiusRatioFromPosition_spec hfits }

end Blip.Studio
