import Blip.Studio.ResizeDrags

/-!
# Dragging the corner radius

The handle stands along the inward diagonal of the top right corner, in proportion to the radius, and
the radius is read off the same diagonal. On an element of at most twice the fixed inset there is no way
to go: the handle is in the middle, and wherever it is dragged the radius is zero.
-/

namespace Blip.Studio.Exact

variable {item : Inspected} {threshold : Bounds → ℚ × ℚ}

/-! ## The handle -/

theorem resizeHandleBounds_center (center : ℚ × ℚ) : (resizeHandleBounds center).center = center := by
  refine Prod.ext ?_ ?_
  · simp only [Bounds.center, resizeHandleBounds]
    ring
  · simp only [Bounds.center, resizeHandleBounds]
    ring

theorem resizeHandleBounds_contains (center : ℚ × ℚ) :
    (resizeHandleBounds center).contains center = true := by
  simp only [Bounds.contains, resizeHandleBounds, Bool.and_eq_true]
  refine ⟨⟨⟨decide_eq_true ?_, decide_eq_true ?_⟩, decide_eq_true ?_⟩, decide_eq_true ?_⟩ <;> linarith

/-- The position that is taken for a radius: its inset along the diagonal. -/
theorem cornerRadiusRatioFromPosition_inset (bounds : Bounds) (inset : ℚ) :
    cornerRadiusRatioFromPosition bounds
        (bounds.origin.1 + bounds.size.1 - inset, bounds.origin.2 + inset) =
      if min bounds.size.1 bounds.size.2 * 0.5 ≤ 16 then 0
      else max 0 (min ((inset - 16) / (min bounds.size.1 bounds.size.2 * 0.5 - 16)) 1) * 0.5 := by
  rw [cornerRadiusRatioFromPosition]
  dsimp only
  have hinset : (bounds.origin.1 + bounds.size.1 - (bounds.origin.1 + bounds.size.1 - inset) +
      (bounds.origin.2 + inset - bounds.origin.2)) * 0.5 = inset := by
    ring
  rw [hinset]

/-- The radius is that of the handle where there is a way for the handle to go. -/
theorem cornerRadius_inverse_iff {bounds : Bounds} {ratio : ℚ}
    (hbounds : 0 < bounds.size.1 ∧ 0 < bounds.size.2) (hratio : 0 ≤ ratio ∧ ratio ≤ 1 / 2) :
    cornerRadiusRatioFromPosition bounds
        (cornerRadiusHandleBounds bounds (ratio * min bounds.size.1 bounds.size.2)).center = ratio ↔
      32 < min bounds.size.1 bounds.size.2 ∨ ratio = 0 := by
  have hshort : 0 < min bounds.size.1 bounds.size.2 := lt_min hbounds.1 hbounds.2
  rw [cornerRadiusHandleBounds, resizeHandleBounds_center, cornerRadiusRatioFromPosition_inset]
  rcases le_or_gt (min bounds.size.1 bounds.size.2 * 0.5) 16 with hsmall | hlarge
  · have hnot : ¬ 32 < min bounds.size.1 bounds.size.2 := by linarith
    rw [if_pos hsmall, or_iff_right hnot, eq_comm]
  · have hway : 0 < min bounds.size.1 bounds.size.2 * 0.5 - 16 := sub_pos.mpr hlarge
    have hfraction : ratio * min bounds.size.1 bounds.size.2 / (min bounds.size.1 bounds.size.2 * 0.5) =
        2 * ratio := by
      rw [div_eq_iff (by positivity)]
      ring
    have hclamp : max 0 (min (2 * ratio) 1) = 2 * ratio := by
      rw [min_eq_left (by linarith), max_eq_right (by linarith)]
    rw [if_neg hlarge.not_ge, if_neg hlarge.not_ge, hfraction, hclamp, add_sub_cancel_left,
      mul_div_cancel_right₀ _ hway.ne', hclamp]
    refine iff_of_true (by ring) (.inl ?_)
    linarith

/-- The radius is never more than half of the shorter side. -/
theorem cornerRadiusRatioFromPosition_mem (bounds : Bounds) (position : ℚ × ℚ) :
    0 ≤ cornerRadiusRatioFromPosition bounds position ∧
      cornerRadiusRatioFromPosition bounds position ≤ 1 / 2 := by
  rw [cornerRadiusRatioFromPosition]
  dsimp only
  split
  · norm_num
  · constructor
    · exact mul_nonneg (le_max_left _ _) (by norm_num)
    · have hclamp : max 0 (min ((((bounds.origin.1 + bounds.size.1 - position.1) +
          (position.2 - bounds.origin.2)) * 0.5 - 16) /
            (min bounds.size.1 bounds.size.2 * 0.5 - 16)) 1) ≤ 1 :=
        max_le zero_le_one (min_le_right _ _)
      linarith

/-- Farther in along the diagonal the radius is not smaller. -/
theorem cornerRadiusRatioFromPosition_mono (bounds : Bounds) (position : ℚ × ℚ) {way : ℚ}
    (hway : 0 ≤ way) :
    cornerRadiusRatioFromPosition bounds position ≤
      cornerRadiusRatioFromPosition bounds (position.1 - way, position.2 + way) := by
  rw [cornerRadiusRatioFromPosition, cornerRadiusRatioFromPosition]
  dsimp only
  split
  · exact le_rfl
  · rename_i hlarge
    have hinset : 0 < min bounds.size.1 bounds.size.2 * 0.5 - 16 := sub_pos.mpr (not_le.mp hlarge)
    gcongr
    · linarith
    · linarith

/-! ## The handle of an element -/

/-- A frame has the sides of the canvas. -/
theorem containBounds_size {bounds : Bounds} {imageSize : ℚ × ℚ}
    (hbounds : 0 < bounds.size.1 ∧ 0 < bounds.size.2) (himage : 0 < imageSize.1 ∧ 0 < imageSize.2) :
    ∃ scale, 0 < scale ∧
      (containBounds bounds imageSize).size = (imageSize.1 * scale, imageSize.2 * scale) := by
  rw [containBounds]
  dsimp only
  split
  · refine ⟨bounds.size.2 / imageSize.2, div_pos hbounds.2 himage.2, Prod.ext rfl ?_⟩
    exact (mul_div_cancel₀ _ himage.2.ne').symm
  · refine ⟨bounds.size.1 / imageSize.1, div_pos hbounds.1 himage.1, Prod.ext ?_ rfl⟩
    exact (mul_div_cancel₀ _ himage.1.ne').symm

theorem previewFrameBounds_size {viewport : Viewport} {frame : Bounds}
    (h : previewFrameBounds viewport item.canvas = some frame) :
    ∃ scale, 0 < scale ∧ frame.size = (item.canvasSize.1 * scale, item.canvasSize.2 * scale) := by
  obtain ⟨-, h⟩ := Option.ite_none_right_eq_some.mp h
  obtain rfl := Option.some.inj h
  obtain ⟨hwidth, hheight⟩ := viewport.room
  exact containBounds_size ⟨lt_max_of_lt_left (by linarith), hheight⟩ item.canvasSize_pos

/-- On the screen an element's radius is its ratio of the shorter side. -/
theorem itemCornerRadius_eq {viewport : Viewport} {frame : Bounds} {layout : ItemLayout}
    {transform : ItemTransform} (hframe : previewFrameBounds viewport item.canvas = some frame)
    (hlayout : layout.Positive) (hratio : layout.cornerRadiusRatio ≤ 1 / 2)
    (hpos : 0 ≤ layout.cornerRadiusRatio) (h : item.elementTransform layout = some transform) :
    (0 < (transformBounds frame transform).size.1 ∧ 0 < (transformBounds frame transform).size.2) ∧
      itemCornerRadius frame item.canvas transform = layout.cornerRadiusRatio *
        min (transformBounds frame transform).size.1 (transformBounds frame transform).size.2 := by
  obtain ⟨scale, hscale, hsize⟩ := previewFrameBounds_size hframe
  obtain ⟨hwidth, hheight⟩ := item.canvasSize_pos
  have hrenders := elementTransform_renders hlayout h
  have hcorner : transform.cornerRadius = item.shortSide transform.size * layout.cornerRadiusRatio := by
    rw [elementTransform_eq hrenders.canvas, Option.some.injEq] at h
    rw [← h]
  have hshort := hrenders.shortSide_pos
  -- a ratio of at most a half is inside the bounds the corner radius is clamped to
  have hclamped : transform.clampedCornerRadius item.canvasSize = transform.cornerRadius := by
    rw [ItemTransform.clampedCornerRadius, mul_comm item.canvasSize.1, mul_comm item.canvasSize.2,
      ← Inspected.shortSide, hcorner, min_eq_left (by nlinarith), max_eq_right (by positivity)]
  have hbounds : (transformBounds frame transform).size =
      (item.canvasSize.1 * scale * transform.size.1, item.canvasSize.2 * scale * transform.size.2) := by
    rw [transformBounds, hsize]
  rw [hbounds]
  refine ⟨⟨mul_pos (mul_pos hwidth hscale) hrenders.pos,
    mul_pos (mul_pos hheight hscale) hrenders.snd_pos⟩, ?_⟩
  have hmin : min (item.canvasSize.1 * scale * transform.size.1)
      (item.canvasSize.2 * scale * transform.size.2) = item.shortSide transform.size * scale := by
    rw [Inspected.shortSide, min_mul_of_nonneg _ _ hscale.le]
    congr 1
    · ring
    · ring
  calc itemCornerRadius frame item.canvas transform
      = transform.clampedCornerRadius item.canvasSize * (frame.size.1 / item.canvasSize.1) := rfl
    _ = item.shortSide transform.size * layout.cornerRadiusRatio * scale := by
        rw [hclamped, hcorner, hsize]
        dsimp only
        rw [mul_div_cancel_left₀ _ hwidth.ne']
    _ = _ := by
        dsimp only
        rw [hmin]
        ring

/-- A press at the center of the handle takes it. -/
theorem beginDrag_cornerRadius {stage : Stage} {viewport : Viewport} {frame : Bounds}
    {transform : ItemTransform} {dimensions : ℕ × ℕ} (covered : Bool) (hselected : stage.selected = true)
    (hshown : stage.shown = some transform) (hdimensions : stage.contentDimensions = some dimensions)
    (hframe : previewFrameBounds viewport dimensions = some frame) :
    stage.beginDrag viewport (cornerRadiusHandleBounds (transformBounds frame transform)
        (itemCornerRadius frame dimensions transform)).center covered =
      { stage with
        snapGuides := Stage.noGuides
        dragOperation := some (.cornerRadius (transformBounds frame transform)) } := by
  have hcenter : (cornerRadiusHandleBounds (transformBounds frame transform)
      (itemCornerRadius frame dimensions transform)).contains
        (cornerRadiusHandleBounds (transformBounds frame transform)
          (itemCornerRadius frame dimensions transform)).center = true := by
    rw [cornerRadiusHandleBounds, resizeHandleBounds_center]
    exact resizeHandleBounds_contains _
  simp only [Stage.beginDrag, hdimensions, hframe, hselected, hshown, hcenter, if_true]

end Blip.Studio.Exact
