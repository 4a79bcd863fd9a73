import Blip.Capture.OutputPadding
import Blip.Capture.ZoomEasing
import Mathlib.Tactic.Ring

/-!
# The camera path of the zooms

`zoom_transform_at` shows the zoom that started last of those whose range, with the transition out of it,
holds the time. While a zoom still moves in, it takes over from the zoom before it, as that one is on its
way out. Mapped into the crop and the padded content, the transform enlarges the whole output around a
point of the content, so that the output stays covered.
-/

namespace Blip.Capture

/-! ## The parts of a transform -/

theorem ZoomTransitionSpeed.durationSecs_pos (speed : ZoomTransitionSpeed) :
    0 < speed.durationSecs := by
  cases speed with
  | slow => norm_num [durationSecs]
  | medium => norm_num [durationSecs]
  | fast => norm_num [durationSecs]

namespace ZoomSegment

variable (segment : ZoomSegment)

/-- The amount within its limits. -/
def limit : ℚ := clampSecs 1 5 segment.amount

/-- The end of the transition out of a zoom. -/
def windowEndSecs : Secs := segment.endSecs + segment.transition.durationSecs

/-- How far a zoom has moved in. -/
def attack (timeSecs : Secs) : ℚ :=
  cubicBezierEase
    (if segment.startSecs ≤ 0 then 1
      else clampSecs 0 1 ((timeSecs - segment.startSecs) / segment.transition.durationSecs))
    (1 / 5) (4 / 5) (1 / 5) 1

/-- How far a zoom has yet to move out. -/
def release (timeSecs : Secs) : ℚ :=
  cubicBezierEase
    (clampSecs 0 1 ((segment.endSecs + segment.transition.durationSecs - timeSecs) /
      segment.transition.durationSecs))
    (2 / 5) 0 (3 / 5) 1

/-- The scale of a zoom that is a part of the way in. -/
def scaleAt (progress : ℚ) : ℚ := 1 + (segment.limit - 1) * progress

/-- The transform of a zoom by itself. -/
def alone (timeSecs : Secs) : OutputTransform where
  center := segment.target
  scale := segment.scaleAt (min (segment.attack timeSecs) (segment.release timeSecs))

/-- The transform of a zoom that takes over from another one. -/
def takeOver (previous : ZoomSegment) (timeSecs : Secs) : OutputTransform :=
  let attack := segment.attack timeSecs
  let previousScale := previous.scaleAt (previous.release segment.startSecs)
  { center := (previous.target.1 + (segment.target.1 - previous.target.1) * attack,
      previous.target.2 + (segment.target.2 - previous.target.2) * attack)
    scale := previousScale + (segment.scaleAt (segment.release timeSecs) - previousScale) * attack }

end ZoomSegment

/-- The zoom that a time shows. -/
def activeZoom (segments : List ZoomSegment) (timeSecs : Secs) : Option ZoomSegment :=
  latestZoom (segments.filter fun segment =>
    decide (segment.startSecs ≤ timeSecs) &&
      decide (timeSecs ≤ segment.endSecs + segment.transition.durationSecs))

/-- The zoom that another one takes over from. -/
def previousZoom (segments : List ZoomSegment) (segment : ZoomSegment) : Option ZoomSegment :=
  latestZoom (segments.filter fun previous =>
    decide (previous.startSecs < segment.startSecs) &&
      decide (previous.endSecs ≤ segment.startSecs) &&
      decide (segment.startSecs < previous.endSecs + previous.transition.durationSecs))

theorem zoomTransformAt_none {segments : List ZoomSegment} {timeSecs : Secs}
    (h : activeZoom segments timeSecs = none) : zoomTransformAt segments timeSecs = .identity := by
  rw [activeZoom] at h
  rw [zoomTransformAt, h]

theorem zoomTransformAt_some {segments : List ZoomSegment} {timeSecs : Secs} {segment : ZoomSegment}
    (h : activeZoom segments timeSecs = some segment) :
    zoomTransformAt segments timeSecs =
      if segment.attack timeSecs < 1 then
        ((previousZoom segments segment).map (segment.takeOver · timeSecs)).getD (segment.alone timeSecs)
      else segment.alone timeSecs := by
  rw [activeZoom] at h
  rw [zoomTransformAt, h]
  dsimp only
  rw [← previousZoom]
  cases previousZoom segments segment with
  | none => exact (ite_self _).symm
  | some previous => rfl

/-! ## The zoom that started last -/

theorem latestZoom_concat (segments : List ZoomSegment) (segment : ZoomSegment) :
    latestZoom (segments ++ [segment]) = some (((latestZoom segments).filter
      fun current => segment.startSecs < current.startSecs).getD segment) := by
  rw [latestZoom, List.foldl_append, ← latestZoom]
  cases latestZoom segments with
  | none => rfl
  | some current =>
    by_cases h : current.startSecs ≤ segment.startSecs
    · simp [h, Option.filter_some, h.not_gt]
    · simp [h, Option.filter_some, not_le.mp h]

theorem latestZoom_eq_none {segments : List ZoomSegment} : latestZoom segments = none ↔ segments = [] := by
  induction segments using List.reverseRecOn with
  | nil => simp [latestZoom]
  | append_singleton segments segment _ => simp [latestZoom_concat]

theorem latestZoom_spec {segments : List ZoomSegment} {latest : ZoomSegment}
    (h : latestZoom segments = some latest) :
    latest ∈ segments ∧ ∀ segment ∈ segments, segment.startSecs ≤ latest.startSecs := by
  induction segments using List.reverseRecOn generalizing latest with
  | nil => cases h
  | append_singleton segments segment ih =>
    rw [latestZoom_concat, Option.some.injEq] at h
    cases hcurrent : latestZoom segments with
    | none =>
      obtain rfl := latestZoom_eq_none.mp hcurrent
      obtain rfl : segment = latest := h
      exact ⟨by simp, by simp⟩
    | some current =>
      obtain ⟨hmem, hlatest⟩ := ih hcurrent
      rw [hcurrent] at h
      by_cases hlater : segment.startSecs < current.startSecs
      · obtain rfl : current = latest := by simpa [Option.filter_some, hlater] using h
        refine ⟨List.mem_append_left _ hmem, fun other hother => ?_⟩
        rcases List.mem_append.mp hother with hother | hother
        · exact hlatest other hother
        · rw [List.mem_singleton.mp hother]
          exact hlater.le
      · obtain rfl : segment = latest := by simpa [Option.filter_some, hlater] using h
        refine ⟨by simp, fun other hother => ?_⟩
        rcases List.mem_append.mp hother with hother | hother
        · exact (hlatest other hother).trans (not_lt.mp hlater)
        · rw [List.mem_singleton.mp hother]

theorem activeZoom_spec {segments : List ZoomSegment} {timeSecs : Secs} {segment : ZoomSegment}
    (h : activeZoom segments timeSecs = some segment) :
    segment ∈ segments ∧ segment.startSecs ≤ timeSecs ∧ timeSecs ≤ segment.windowEndSecs ∧
      ∀ other ∈ segments, other.startSecs ≤ timeSecs → timeSecs ≤ other.windowEndSecs →
        other.startSecs ≤ segment.startSecs := by
  obtain ⟨hmem, hlatest⟩ := latestZoom_spec h
  obtain ⟨hmem, hwindow⟩ := List.mem_filter.mp hmem
  rw [Bool.and_eq_true, decide_eq_true_eq, decide_eq_true_eq] at hwindow
  refine ⟨hmem, hwindow.1, hwindow.2, fun other hother hstart hend => hlatest other ?_⟩
  rw [List.mem_filter, Bool.and_eq_true, decide_eq_true_eq, decide_eq_true_eq]
  exact ⟨hother, hstart, hend⟩

theorem previousZoom_spec {segments : List ZoomSegment} {segment previous : ZoomSegment}
    (h : previousZoom segments segment = some previous) :
    previous ∈ segments ∧ previous.startSecs < segment.startSecs ∧
      previous.endSecs ≤ segment.startSecs ∧ segment.startSecs < previous.windowEndSecs ∧
      ∀ other ∈ segments, other.startSecs < segment.startSecs → other.endSecs ≤ segment.startSecs →
        segment.startSecs < other.windowEndSecs → other.startSecs ≤ previous.startSecs := by
  obtain ⟨hmem, hlatest⟩ := latestZoom_spec h
  obtain ⟨hmem, hwindow⟩ := List.mem_filter.mp hmem
  simp only [Bool.and_eq_true, decide_eq_true_eq] at hwindow
  refine ⟨hmem, hwindow.1.1, hwindow.1.2, hwindow.2, fun other hother hstart hend hlong => ?_⟩
  apply hlatest
  simp only [List.mem_filter, Bool.and_eq_true, decide_eq_true_eq]
  exact ⟨hother, ⟨hstart, hend⟩, hlong⟩

/-! ## Scale and center -/

namespace ZoomSegment

variable (segment : ZoomSegment)

theorem attack_mem (timeSecs : Secs) : 0 ≤ segment.attack timeSecs ∧ segment.attack timeSecs ≤ 1 :=
  cubicBezierEase_mem (by norm_num) (by norm_num) _

theorem release_mem (timeSecs : Secs) : 0 ≤ segment.release timeSecs ∧ segment.release timeSecs ≤ 1 :=
  cubicBezierEase_mem (by norm_num) (by norm_num) _

theorem limit_mem : 1 ≤ segment.limit ∧ segment.limit ≤ 5 := clampSecs_mem (by norm_num) _

theorem scaleAt_mem {progress : ℚ} (h : 0 ≤ progress ∧ progress ≤ 1) :
    1 ≤ segment.scaleAt progress ∧ segment.scaleAt progress ≤ segment.limit := by
  have hlimit : 0 ≤ segment.limit - 1 := sub_nonneg.mpr segment.limit_mem.1
  have hlow := mul_nonneg hlimit h.1
  have hhigh := mul_le_of_le_one_right hlimit h.2
  rw [scaleAt]
  constructor
  · linarith
  · linarith

end ZoomSegment

/-- What lies a part of the way between two numbers of a range is in the range. -/
private theorem blend_mem {low high left right part : ℚ} (hleft : low ≤ left ∧ left ≤ high)
    (hright : low ≤ right ∧ right ≤ high) (hpart : 0 ≤ part ∧ part ≤ 1) :
    low ≤ left + (right - left) * part ∧ left + (right - left) * part ≤ high := by
  have hrest : 0 ≤ 1 - part := sub_nonneg.mpr hpart.2
  have hlowLeft := mul_le_mul_of_nonneg_right hleft.1 hrest
  have hhighLeft := mul_le_mul_of_nonneg_right hleft.2 hrest
  have hlowRight := mul_le_mul_of_nonneg_right hright.1 hpart.1
  have hhighRight := mul_le_mul_of_nonneg_right hright.2 hpart.1
  constructor
  · linarith
  · linarith

/-- A scale from 1 to 5, and a center on the screen. -/
structure OutputTransform.Shown (transform : OutputTransform) : Prop where
  scale : 1 ≤ transform.scale ∧ transform.scale ≤ 5
  horizontal : 0 ≤ transform.center.1 ∧ transform.center.1 ≤ 1
  vertical : 0 ≤ transform.center.2 ∧ transform.center.2 ≤ 1

/-- A target on the screen. -/
def ZoomSegment.Targets (segment : ZoomSegment) : Prop :=
  (0 ≤ segment.target.1 ∧ segment.target.1 ≤ 1) ∧ 0 ≤ segment.target.2 ∧ segment.target.2 ≤ 1

theorem alone_shown {segment : ZoomSegment} (h : segment.Targets) (timeSecs : Secs) :
    (segment.alone timeSecs).Shown := by
  have hattack := segment.attack_mem timeSecs
  have hrelease := segment.release_mem timeSecs
  obtain ⟨hlow, hhigh⟩ := @ZoomSegment.scaleAt_mem segment
    (min (segment.attack timeSecs) (segment.release timeSecs))
    ⟨le_min hattack.1 hrelease.1, min_le_of_left_le hattack.2⟩
  exact ⟨⟨hlow, hhigh.trans segment.limit_mem.2⟩, h.1, h.2⟩

theorem takeOver_shown {segment previous : ZoomSegment} (h : segment.Targets) (h' : previous.Targets)
    (timeSecs : Secs) : (segment.takeOver previous timeSecs).Shown := by
  have hattack := segment.attack_mem timeSecs
  have hscale := segment.scaleAt_mem (segment.release_mem timeSecs)
  have hprevious := previous.scaleAt_mem (previous.release_mem segment.startSecs)
  exact ⟨blend_mem ⟨hprevious.1, hprevious.2.trans previous.limit_mem.2⟩
      ⟨hscale.1, hscale.2.trans segment.limit_mem.2⟩ hattack,
    blend_mem h'.1 h.1 hattack, blend_mem h'.2 h.2 hattack⟩

theorem zoomTransformAt_shown {segments : List ZoomSegment} (h : ∀ segment ∈ segments, segment.Targets)
    (timeSecs : Secs) : (zoomTransformAt segments timeSecs).Shown := by
  cases hactive : activeZoom segments timeSecs with
  | none =>
    rw [zoomTransformAt_none hactive]
    exact ⟨by norm_num [OutputTransform.identity], by norm_num [OutputTransform.identity],
      by norm_num [OutputTransform.identity]⟩
  | some segment =>
    have hsegment := h segment (activeZoom_spec hactive).1
    rw [zoomTransformAt_some hactive]
    split
    · cases hprevious : previousZoom segments segment with
      | none => exact alone_shown hsegment timeSecs
      | some previous =>
        exact takeOver_shown hsegment (h previous (previousZoom_spec hprevious).1) timeSecs
    · exact alone_shown hsegment timeSecs

/-! ## The zoomed output -/

/-- An item that lies on the output. -/
structure ItemTransform.Inside (item : ItemTransform) : Prop where
  width : 0 ≤ item.size.1
  height : 0 ≤ item.size.2
  horizontal : 0 ≤ item.center.1 - item.size.1 / 2 ∧ item.center.1 + item.size.1 / 2 ≤ 1
  vertical : 0 ≤ item.center.2 - item.size.2 / 2 ∧ item.center.2 + item.size.2 / 2 ≤ 1

/-- The padded content lies on the output. -/
theorem contentTransform_inside {cropped output : ℕ × ℕ} {padding : ℚ} (hcropped : 1 ≤ cropped.1)
    (hcropped' : 1 ≤ cropped.2) (houtput : 1 ≤ output.1) (houtput' : 1 ≤ output.2)
    (hpadding : 0 ≤ padding) (hpadding' : padding ≤ 50) :
    (contentTransform cropped output padding).Inside := by
  obtain ⟨hwidth, hheight, -, hfits⟩ :=
    contentSize_spec hcropped hcropped' houtput houtput' hpadding'
  have houtputPos : (0 : ℚ) < output.1 := by exact_mod_cast houtput
  have houtputPos' : (0 : ℚ) < output.2 := by exact_mod_cast houtput'
  have hinset : (0 : ℚ) ≤ (min output.1 output.2 : ℕ) * (padding / 100) := by positivity
  have hleft : (contentSize cropped output padding).1 ≤ 1 := by
    refine le_of_mul_le_mul_right ?_ houtputPos
    rcases hfits with ⟨hequal, -⟩ | ⟨-, hle⟩
    · linarith
    · linarith
  have htop : (contentSize cropped output padding).2 ≤ 1 := by
    refine le_of_mul_le_mul_right ?_ houtputPos'
    rcases hfits with ⟨-, hle⟩ | ⟨hequal, -⟩
    · linarith
    · linarith
  have hwidth := pos_of_mul_pos_left hwidth houtputPos.le
  have hheight := pos_of_mul_pos_left hheight houtputPos'.le
  refine ⟨hwidth.le, hheight.le, ⟨?_, ?_⟩, ⟨?_, ?_⟩⟩
  all_goals
    dsimp only [contentTransform]
    linarith

/-- A transform maps into the crop and the content without leaving them. -/
theorem outputTransform_mem {zoom : OutputTransform} (h : zoom.Shown) (crop : Option StoredCrop)
    {content : ItemTransform} (hcontent : content.Inside) :
    (outputTransform zoom crop content).scale = zoom.scale ∧
      |(outputTransform zoom crop content).center.1 - content.center.1| ≤ content.size.1 / 2 ∧
      |(outputTransform zoom crop content).center.2 - content.center.2| ≤ content.size.2 / 2 := by
  have hcrop : (mapOutputTransformToCrop zoom crop).scale = zoom.scale ∧
      (0 ≤ (mapOutputTransformToCrop zoom crop).center.1 ∧
        (mapOutputTransformToCrop zoom crop).center.1 ≤ 1) ∧
      0 ≤ (mapOutputTransformToCrop zoom crop).center.2 ∧
        (mapOutputTransformToCrop zoom crop).center.2 ≤ 1 := by
    rw [mapOutputTransformToCrop]
    cases normalizeScreenCrop crop with
    | none => exact ⟨rfl, h.horizontal, h.vertical⟩
    | some crop => exact ⟨rfl, clampSecs_mem zero_le_one _, clampSecs_mem zero_le_one _⟩
  obtain ⟨hscale, hhorizontal, hvertical⟩ := hcrop
  have hpart : ∀ {part size : ℚ}, 0 ≤ part ∧ part ≤ 1 → 0 ≤ size → |(part - 1 / 2) * size| ≤ size / 2 := by
    intro part size hpart hsize
    rw [abs_mul, abs_of_nonneg hsize]
    have hhalf : |part - 1 / 2| ≤ 1 / 2 := abs_le.mpr ⟨by linarith, by linarith⟩
    have := mul_le_mul_of_nonneg_right hhalf hsize
    linarith
  refine ⟨hscale, ?_, ?_⟩
  · rw [outputTransform, mapOutputTransformToItem, add_sub_cancel_left]
    exact hpart hhorizontal hcontent.width
  · rw [outputTransform, mapOutputTransformToItem, add_sub_cancel_left]
    exact hpart hvertical hcontent.height

/-- Where a coordinate of the output is after it was enlarged around a focus. -/
theorem place_transformedOutputItem (focus : ℚ × ℚ) (scale : ℚ) (point : ℚ × ℚ) :
    (transformedOutputItem { center := focus, scale }).place point =
      (focus.1 + scale * (point.1 - focus.1), focus.2 + scale * (point.2 - focus.2)) := by
  simp only [transformedOutputItem, ItemTransform.place, Prod.mk.injEq]
  constructor
  · ring
  · ring

/-- Enlarged around a point of it, the unit interval covers itself. -/
private theorem exists_enlarged {focus scale coordinate : ℚ} (hfocus : 0 ≤ focus ∧ focus ≤ 1)
    (hscale : 1 ≤ scale) (hcoordinate : 0 ≤ coordinate ∧ coordinate ≤ 1) :
    ∃ source, (0 ≤ source ∧ source ≤ 1) ∧ focus + scale * (source - focus) = coordinate := by
  have hpos : 0 < scale := by linarith
  have hinverse : 0 ≤ 1 / scale ∧ 1 / scale ≤ 1 :=
    ⟨(one_div_pos.mpr hpos).le, (div_le_one hpos).mpr hscale⟩
  refine ⟨focus + (coordinate - focus) * (1 / scale), blend_mem hfocus hcoordinate hinverse, ?_⟩
  field_simp
  ring

/-- Whatever the zooms, the time and the crop, the scale is from 1 to 5 and the center is a point of the
content, which stays where it is. What the output showed covers it still. -/
theorem zoom_covers_output {segments : List ZoomSegment} (htargets : ∀ segment ∈ segments, segment.Targets)
    (timeSecs : Secs) (crop : Option StoredCrop) {content : ItemTransform} (hcontent : content.Inside) :
    let transform := outputTransform (zoomTransformAt segments timeSecs) crop content
    (1 ≤ transform.scale ∧ transform.scale ≤ 5) ∧
      (|transform.center.1 - content.center.1| ≤ content.size.1 / 2 ∧
        |transform.center.2 - content.center.2| ≤ content.size.2 / 2) ∧
      placeOutput transform transform.center = transform.center ∧
      ∀ point : ℚ × ℚ, 0 ≤ point.1 ∧ point.1 ≤ 1 → 0 ≤ point.2 ∧ point.2 ≤ 1 →
        ∃ source : ℚ × ℚ, (0 ≤ source.1 ∧ source.1 ≤ 1) ∧ (0 ≤ source.2 ∧ source.2 ≤ 1) ∧
          placeOutput transform source = point := by
  intro transform
  have hshown := zoomTransformAt_shown htargets timeSecs
  obtain ⟨hscale, hhorizontal, hvertical⟩ := outputTransform_mem hshown crop hcontent
  have hscale : 1 ≤ transform.scale ∧ transform.scale ≤ 5 := hscale.symm ▸ hshown.scale
  -- the compositor's own limits change nothing
  have hleft := abs_le.mp hhorizontal
  have htop := abs_le.mp hvertical
  have hcenter : 0 ≤ transform.center.1 ∧ transform.center.1 ≤ 1 :=
    ⟨by linarith [hcontent.horizontal.1], by linarith [hcontent.horizontal.2]⟩
  have hcenter' : 0 ≤ transform.center.2 ∧ transform.center.2 ≤ 1 :=
    ⟨by linarith [hcontent.vertical.1], by linarith [hcontent.vertical.2]⟩
  have hplace : ∀ point, placeOutput transform point =
      (transform.center.1 + transform.scale * (point.1 - transform.center.1),
        transform.center.2 + transform.scale * (point.2 - transform.center.2)) := by
    intro point
    rw [placeOutput, outputItem, max_eq_left hscale.1, clampSecs_eq_self hcenter.1 hcenter.2,
      clampSecs_eq_self hcenter'.1 hcenter'.2]
    by_cases hone : transform.scale = 1
    · simp [hone]
    · simp only [if_neg hone]
      exact place_transformedOutputItem _ _ _
  refine ⟨hscale, ⟨hhorizontal, hvertical⟩, ?_, fun point hpoint hpoint' => ?_⟩
  · rw [hplace, sub_self, sub_self, mul_zero, add_zero, add_zero]
  · obtain ⟨x, hx, hx'⟩ := exists_enlarged hcenter hscale.1 hpoint
    obtain ⟨y, hy, hy'⟩ := exists_enlarged hcenter' hscale.1 hpoint'
    exact ⟨(x, y), hx, hy, by rw [hplace, hx', hy']⟩

/-- A zoom into a corner of a padded recording. -/
theorem zoom_covers_output_corner :
    let segment : ZoomSegment :=
      { id := 1
        startSecs := 0
        endSecs := 2
        target := (1, 1)
        amount := 3
        transition := .fast }
    let transform := outputTransform (zoomTransformAt [segment] 1) none
      { center := (1 / 2, 1 / 2)
        size := (9 / 10, 9 / 10) }
    placeOutput transform transform.center = transform.center := by
  intro segment transform
  refine (@zoom_covers_output [segment] ?_ 1 none _ ⟨by norm_num, by norm_num, by norm_num,
    by norm_num⟩).2.2.1
  intro other hother
  obtain rfl := List.mem_singleton.mp hother
  exact ⟨⟨by norm_num [segment], by norm_num [segment]⟩, by norm_num [segment], by norm_num [segment]⟩

end Blip.Capture
