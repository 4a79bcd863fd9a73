import Blip.Capture.ContentRects

/-!
# The padding of an output frame

`output_dimensions` chooses the ratio of the output so that the padding is the same on every side, and
`render_output_frame` insets the content by a fraction of the shorter edge. Rounding the dimensions to even
numbers is all that comes in between.
-/

namespace Blip.Capture

theorem f64Round_error {value : ℚ} (h : 0 ≤ value) : |(f64Round value : ℚ) - value| ≤ 1 / 2 := by
  rw [f64Round, if_pos h, abs_sub_comm]
  exact abs_sub_round value

/-! ## Even dimensions -/

theorem even_evenDimension (value : ℚ) : Even (evenDimension value) := by
  rw [evenDimension]
  rcases max_choice ((f64Round (value / 2)).toNat * 2) 2 with h | h
  · rw [h]
    exact even_two.mul_left _
  · rw [h]
    exact even_two

theorem two_le_evenDimension (value : ℚ) : 2 ≤ evenDimension value := le_max_right _ _

theorem evenDimension_mono {left right : ℚ} (h : left ≤ right) :
    evenDimension left ≤ evenDimension right := by
  have hround : f64Round (left / 2) ≤ f64Round (right / 2) := f64Round_mono (by linarith)
  rw [evenDimension, evenDimension]
  omega

theorem evenDimension_error {value : ℚ} (h : 1 ≤ value) : |(evenDimension value : ℚ) - value| ≤ 1 := by
  have hround : (1 : ℤ) ≤ f64Round (value / 2) := by
    refine le_trans (le_of_eq ?_) (f64Round_mono (show 1 / 2 ≤ value / 2 by linarith))
    decide +kernel
  have hdouble : (evenDimension value : ℚ) = 2 * f64Round (value / 2) := by
    have heven : (evenDimension value : ℤ) = 2 * f64Round (value / 2) := by
      rw [evenDimension]
      omega
    exact_mod_cast heven
  have herror := f64Round_error (show 0 ≤ value / 2 by linarith)
  rw [abs_le] at herror ⊢
  rw [hdouble]
  constructor
  · linarith
  · linarith

theorem evenDimension_self {value : ℕ} (heven : Even value) (h : 2 ≤ value) :
    evenDimension value = value := by
  obtain ⟨half, rfl⟩ := heven
  have hhalf : ((half + half : ℕ) : ℚ) / 2 = ((half : ℤ) : ℚ) := by
    push_cast
    ring
  rw [evenDimension, hhalf, f64Round_intCast]
  omega

/-! ## The size of the output -/

section

variable (shortEdge : ℕ) (source : ℕ × ℕ) (aspectRatio : OutputAspectRatio) (padding : ℚ)

/-- The longer edge is the ratio times the shorter one, rounded to an even number. -/
theorem outputDimensions_ratio (hratio : 0 < outputRatio source aspectRatio padding) :
    let ratio := outputRatio source aspectRatio padding
    let output := outputDimensions shortEdge source aspectRatio padding
    (1 ≤ ratio → output.2 = evenDimension shortEdge ∧ output.2 ≤ output.1 ∧
        |(output.1 : ℚ) - output.2 * ratio| ≤ 1) ∧
      (ratio < 1 → output.1 = evenDimension shortEdge ∧ output.1 ≤ output.2 ∧
        |(output.2 : ℚ) - output.1 / ratio| ≤ 1) := by
  have hshort : (2 : ℚ) ≤ evenDimension shortEdge := by
    exact_mod_cast two_le_evenDimension shortEdge
  have hself := evenDimension_self (even_evenDimension (shortEdge : ℚ))
    (two_le_evenDimension (shortEdge : ℚ))
  rw [outputDimensions]
  dsimp only
  generalize outputRatio source aspectRatio padding = ratio at hratio ⊢
  constructor
  · intro h
    rw [if_pos h]
    have hlonger : (evenDimension shortEdge : ℚ) ≤ evenDimension shortEdge * ratio :=
      le_mul_of_one_le_right (by linarith) h
    refine ⟨rfl, ?_, evenDimension_error (by linarith)⟩
    exact hself.symm.trans_le (evenDimension_mono hlonger)
  · intro h
    rw [if_neg h.not_ge]
    have hlonger : (evenDimension shortEdge : ℚ) ≤ evenDimension shortEdge / ratio := by
      rw [le_div_iff₀ hratio]
      exact mul_le_of_le_one_right (by linarith) h.le
    refine ⟨rfl, ?_, evenDimension_error (by linarith)⟩
    exact hself.symm.trans_le (evenDimension_mono hlonger)

theorem outputDimensions_even :
    let output := outputDimensions shortEdge source aspectRatio padding
    Even output.1 ∧ Even output.2 ∧ 2 ≤ output.1 ∧ 2 ≤ output.2 := by
  rw [outputDimensions]
  dsimp only
  split
  · exact ⟨even_evenDimension _, even_evenDimension _, two_le_evenDimension _, two_le_evenDimension _⟩
  · exact ⟨even_evenDimension _, even_evenDimension _, two_le_evenDimension _, two_le_evenDimension _⟩

end

/-! ## The padded content -/

/-- Content fitted into a box keeps its ratio, and fills the box one way. -/
theorem aspectFitSize_spec {maximumSize source canvas : ℚ × ℚ} (hmaximum : 0 < maximumSize.1)
    (hmaximum' : 0 < maximumSize.2) (hsource : 0 < source.1) (hsource' : 0 < source.2)
    (hcanvas : 0 < canvas.1) (hcanvas' : 0 < canvas.2) :
    let size := aspectFitSize maximumSize source canvas
    size.1 * canvas.1 * source.2 = size.2 * canvas.2 * source.1 ∧
      (size.1 = maximumSize.1 ∧ size.2 ≤ maximumSize.2 ∨
        size.2 = maximumSize.2 ∧ size.1 ≤ maximumSize.1) := by
  have hsourceAspect : 0 < source.1 / source.2 := div_pos hsource hsource'
  have hcanvasAspect : 0 < canvas.1 / canvas.2 := div_pos hcanvas hcanvas'
  rw [aspectFitSize, if_neg (by
    rintro (h | h | h)
    · exact hsource'.ne' h
    · exact hcanvas'.ne' h
    · exact hmaximum'.ne' h)]
  dsimp only
  split
  · rename_i hwide
    rw [if_neg hsourceAspect.ne']
    refine ⟨?_, .inl ⟨rfl, ?_⟩⟩
    · dsimp only
      field_simp
    · rw [div_lt_iff₀ hmaximum'] at hwide
      rw [div_le_iff₀ hsourceAspect, mul_comm maximumSize.2]
      exact hwide.le
  · rename_i hnarrow
    rw [if_neg hcanvasAspect.ne']
    refine ⟨?_, .inr ⟨rfl, ?_⟩⟩
    · dsimp only
      field_simp
    · rw [not_lt, le_div_iff₀ hmaximum', mul_comm (source.1 / source.2)] at hnarrow
      rw [div_le_iff₀ hcanvasAspect]
      exact hnarrow

/-- The content and its padding, in pixels of the output. -/
theorem contentSize_spec {cropped output : ℕ × ℕ} {padding : ℚ} (hcropped : 1 ≤ cropped.1)
    (hcropped' : 1 ≤ cropped.2) (houtput : 1 ≤ output.1) (houtput' : 1 ≤ output.2)
    (hpadding : padding ≤ 50) :
    let width := (contentSize cropped output padding).1 * output.1
    let height := (contentSize cropped output padding).2 * output.2
    let inset := (min output.1 output.2 : ℕ) * (padding / 100)
    0 < width ∧ 0 < height ∧ width / height = cropped.1 / cropped.2 ∧
      (width = output.1 - inset ∧ height ≤ output.2 - inset ∨
        height = output.2 - inset ∧ width ≤ output.1 - inset) := by
  intro width height inset
  have hcroppedPos : (0 : ℚ) < cropped.1 := by exact_mod_cast hcropped
  have hcroppedPos' : (0 : ℚ) < cropped.2 := by exact_mod_cast hcropped'
  have houtputPos : (0 : ℚ) < output.1 := by exact_mod_cast houtput
  have houtputPos' : (0 : ℚ) < output.2 := by exact_mod_cast houtput'
  have hshort : ((min output.1 output.2 : ℕ) : ℚ) ≤ output.1 := by
    exact_mod_cast min_le_left output.1 output.2
  have hshort' : ((min output.1 output.2 : ℕ) : ℚ) ≤ output.2 := by
    exact_mod_cast min_le_right output.1 output.2
  -- the inset takes at most half of the shorter edge
  have hinset : inset ≤ (min output.1 output.2 : ℕ) * (1 / 2) :=
    mul_le_mul_of_nonneg_left (by linarith) (Nat.cast_nonneg _)
  have hleft : 0 < (output.1 : ℚ) - inset := by linarith
  have htop : 0 < (output.2 : ℚ) - inset := by linarith
  have hsize : contentSize cropped output padding =
      aspectFitSize ((output.1 - inset) / output.1, (output.2 - inset) / output.2)
        (cropped.1, cropped.2) (output.1, output.2) := by
    have hdouble : (min output.1 output.2 : ℕ) * padding / 200 * 2 = inset := by
      dsimp only [inset]
      ring
    simp only [contentSize, hdouble, max_eq_left hleft.le, max_eq_left htop.le]
  obtain ⟨hratio, hfits⟩ := @aspectFitSize_spec
    ((output.1 - inset) / output.1, (output.2 - inset) / output.2) (cropped.1, cropped.2)
    (output.1, output.2) (div_pos hleft houtputPos) (div_pos htop houtputPos') hcroppedPos hcroppedPos'
    houtputPos houtputPos'
  rw [← hsize] at hratio hfits
  have hratio : width * cropped.2 = height * cropped.1 := hratio
  have hwidth : ∀ size : ℚ, size ≤ (output.1 - inset) / output.1 ↔
      size * output.1 ≤ output.1 - inset := fun size => le_div_iff₀ houtputPos
  have hheight : ∀ size : ℚ, size ≤ (output.2 - inset) / output.2 ↔
      size * output.2 ≤ output.2 - inset := fun size => le_div_iff₀ houtputPos'
  have hfits : width = output.1 - inset ∧ height ≤ output.2 - inset ∨
      height = output.2 - inset ∧ width ≤ output.1 - inset := by
    rcases hfits with ⟨hequal, hle⟩ | ⟨hequal, hle⟩
    · exact .inl ⟨(eq_div_iff houtputPos.ne').mp hequal, (hheight _).mp hle⟩
    · exact .inr ⟨(eq_div_iff houtputPos'.ne').mp hequal, (hwidth _).mp hle⟩
  have hpos : 0 < width ∧ 0 < height := by
    rcases hfits with ⟨hequal, -⟩ | ⟨hequal, -⟩
    · have hwidth : 0 < width := hequal ▸ hleft
      refine ⟨hwidth, pos_of_mul_pos_left ?_ hcroppedPos.le⟩
      rw [← hratio]
      exact mul_pos hwidth hcroppedPos'
    · have hheight : 0 < height := hequal ▸ htop
      refine ⟨pos_of_mul_pos_left ?_ hcroppedPos'.le, hheight⟩
      rw [hratio]
      exact mul_pos hheight hcroppedPos
  refine ⟨hpos.1, hpos.2, ?_, hfits⟩
  rw [div_eq_div_iff hpos.2.ne' hcroppedPos'.ne', hratio, mul_comm]

/-- Content of a ratio in an output whose longer edge is rounded has the same padding both ways, up to
that rounding. -/
theorem padding_difference {long short ratio fraction contentLong contentShort : ℚ}
    (hratio : 1 ≤ ratio) (hrounded : |long - short * (ratio * (1 - fraction) + fraction)| ≤ 1)
    (hcontent : contentLong = ratio * contentShort)
    (hfits : contentLong = long - short * fraction ∧ contentShort ≤ short - short * fraction ∨
      contentShort = short - short * fraction ∧ contentLong ≤ long - short * fraction) :
    |(long - contentLong) - (short - contentShort)| ≤ 1 := by
  rw [abs_le] at hrounded ⊢
  rcases hfits with ⟨hlong, hle⟩ | ⟨hshort, hle⟩
  · -- the longer way is filled: what is missing the other way is the rounding over the ratio
    have hmissing : ratio * (short - short * fraction - contentShort) ≤ 1 := by
      linarith [hcontent.symm.trans hlong]
    have hless := le_mul_of_one_le_left (sub_nonneg.mpr hle) hratio
    constructor
    · linarith
    · linarith
  · rw [hcontent, hshort] at hle ⊢
    constructor
    · linarith
    · linarith

/-! ## Every side alike -/

/-- The ratio of a fixed aspect ratio, and the one that `Auto` takes from the source. -/
theorem outputRatio_pos {source : ℕ × ℕ} {padding : ℚ} (aspectRatio : OutputAspectRatio)
    (hsource : 1 ≤ source.1) (hsource' : 1 ≤ source.2) (hpadding : 0 ≤ padding)
    (hpadding' : padding ≤ 50) : 0 < outputRatio source aspectRatio padding ∧
      (aspectRatio = .auto → (source.2 ≤ source.1 → 1 ≤ outputRatio source aspectRatio padding ∧
          outputRatio source aspectRatio padding =
            source.1 / source.2 * (1 - padding / 100) + padding / 100) ∧
        (source.1 < source.2 → outputRatio source aspectRatio padding < 1 ∧
          1 / outputRatio source aspectRatio padding =
            source.2 / source.1 * (1 - padding / 100) + padding / 100)) := by
  have hsourcePos : (0 : ℚ) < source.1 := by exact_mod_cast hsource
  have hsourcePos' : (0 : ℚ) < source.2 := by exact_mod_cast hsource'
  have hleft : (0 : ℚ) < 1 - padding / 100 := by linarith
  have hfraction : (0 : ℚ) ≤ padding / 100 := by linarith
  cases aspectRatio with
  | auto =>
    simp only [outputRatio, max_eq_left hsource, max_eq_left hsource',
      clampSecs_eq_self hpadding hpadding', true_implies]
    by_cases h : source.2 ≤ source.1
    · have hone : (1 : ℚ) ≤ source.1 / source.2 := by
        rw [one_le_div₀ hsourcePos']
        exact_mod_cast h
      have hratio : 1 ≤ (source.1 / source.2 : ℚ) * (1 - padding / 100) + padding / 100 := by
        have := le_mul_of_one_le_left hleft.le hone
        linarith
      rw [if_pos hone]
      exact ⟨by linarith, fun _ => ⟨hratio, rfl⟩, fun hlt => absurd h hlt.not_ge⟩
    · have hone : (1 : ℚ) < source.2 / source.1 := by
        rw [one_lt_div₀ hsourcePos]
        exact_mod_cast not_le.mp h
      have hflip : (1 - padding / 100) / (source.1 / source.2 : ℚ) =
          source.2 / source.1 * (1 - padding / 100) := by
        rw [div_div_eq_mul_div, mul_comm, mul_div_right_comm]
      have hratio : 1 < (source.2 / source.1 : ℚ) * (1 - padding / 100) + padding / 100 := by
        have := lt_mul_of_one_lt_left hleft hone
        linarith
      have hnarrow : ¬ (1 : ℚ) ≤ source.1 / source.2 := by
        rw [one_le_div₀ hsourcePos']
        exact_mod_cast h
      rw [if_neg hnarrow, hflip]
      refine ⟨one_div_pos.mpr (by linarith), fun hle => absurd hle h, fun _ => ⟨?_, one_div_one_div _⟩⟩
      rw [div_lt_one (by linarith)]
      exact hratio
  | wide => exact ⟨by norm_num [outputRatio], by rintro ⟨⟩⟩
  | vertical => exact ⟨by norm_num [outputRatio], by rintro ⟨⟩⟩
  | square => exact ⟨by norm_num [outputRatio], by rintro ⟨⟩⟩
  | classic => exact ⟨by norm_num [outputRatio], by rintro ⟨⟩⟩
  | tall => exact ⟨by norm_num [outputRatio], by rintro ⟨⟩⟩

end Blip.Capture
