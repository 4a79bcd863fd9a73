import Blip.Common.Duration
import Blip.Common.Float32
import Mathlib.Data.List.TakeWhile

/-!
# Numbers as they are typed

Which texts a numeric field takes, how the standard library reads a number from a text and how it prints
one without decimals. Whatever the field takes is a number or the beginning of one, and what is left of
it when characters are removed still is.
-/

namespace Blip.Ui

/-! ## Candidates -/

/-- The loop of `is_numeric_candidate`, with whether the decimal point has been seen. -/
def numericCharacters : Bool → List Char → Bool
  | _, [] => true
  | decimal, c :: rest =>
    -- a second point is no digit, and so is refused below
    if c == '.' && !decimal then numericCharacters true rest
    else c.isDigit && numericCharacters decimal rest

/-- `strip_prefix('-')`, or the whole text. -/
def unsigned : List Char → List Char
  | '-' :: rest => rest
  | text => text

/-- The forms that a number has before its first digit. -/
def incompleteForms : List (List Char) := [[], ['-'], ['.'], ['-', '.']]

/-- `is_numeric_candidate`. -/
def isNumericCandidate (value : List Char) : Bool :=
  value ∈ incompleteForms ||
    (numericCharacters false (unsigned value) && (unsigned value).any Char.isDigit)

/-! ## Reading and printing -/

/-- The sign of a number and what follows it. -/
def splitSign : List Char → Bool × List Char
  | '-' :: number => (true, number)
  | '+' :: number => (false, number)
  | number => (false, number)

/-- The exponent of a number, of which nothing is left after it. -/
def parseExponent : List Char → Option ℤ
  | [] => some 0
  | mark :: rest =>
    let (negative, digits) := splitSign rest
    if (mark == 'e' || mark == 'E') && !digits.isEmpty && digits.all Char.isDigit then
      some (if negative then -(Nat.ofDigitChars 10 digits 0 : ℤ) else Nat.ofDigitChars 10 digits 0)
    else none

/-- The number of some digits with a decimal point among them. -/
def parseMagnitude (text : List Char) : Option ℚ :=
  let whole := text.takeWhile Char.isDigit
  let rest := text.dropWhile Char.isDigit
  let (decimals, rest) :=
    match rest with
    | '.' :: rest => (rest.takeWhile Char.isDigit, rest.dropWhile Char.isDigit)
    | rest => ([], rest)
  if whole.isEmpty && decimals.isEmpty then none
  else (parseExponent rest).map fun exponent =>
    (Nat.ofDigitChars 10 (whole ++ decimals) 0 : ℚ) * (10 : ℚ) ^ (exponent - (decimals.length : ℤ))

/-- `str::parse::<f32>`. -/
def parseF32 (text : List Char) : Option F32 :=
  let (negative, number) := splitSign text
  let lower := number.map Char.toLower
  if lower = "inf".toList ∨ lower = "infinity".toList then some (.infinite negative)
  else if lower = "nan".toList then some .nan
  else (parseMagnitude number).map (F32.round negative)

/-- `format!("{value:.0}")`. -/
def displayRounded : F32 → List Char
  | .nan => "NaN".toList
  | .infinite negative => (if negative then ['-'] else []) ++ "inf".toList
  | .finite negative magnitude =>
    (if negative then ['-'] else []) ++ Nat.toDigits 10 (Duration.roundHalfEven magnitude.1)

/-! ## What a candidate is -/

variable {text text' : List Char}

theorem numericCharacters_of_digits {decimal : Bool} (h : ∀ c ∈ text, c.isDigit = true) :
    numericCharacters decimal text = true := by
  induction text with
  | nil => rfl
  | cons c text ih =>
    have hdigit := h c (.head _)
    have hpoint : (c == '.') = false := by
      refine beq_false_of_ne ?_
      rintro rfl
      cases hdigit
    rw [numericCharacters, hpoint, Bool.false_and, if_neg Bool.false_ne_true, hdigit,
      ih fun c hc => h c (.tail _ hc)]
    rfl

/-- With the point still to come nothing less is taken. -/
theorem numericCharacters_false (h : numericCharacters true text = true) :
    numericCharacters false text = true := by
  induction text with
  | nil => rfl
  | cons c text ih =>
    rw [numericCharacters] at h ⊢
    split
    · rename_i hpoint
      rw [Bool.and_eq_true, Bool.not_false, and_iff_left rfl] at hpoint
      rw [eq_of_beq hpoint] at h
      cases h
    · simp only [Bool.not_true, Bool.and_false, Bool.false_eq_true, if_false, Bool.and_eq_true] at h
      rw [h.1, ih h.2]
      rfl

/-- Removing characters keeps what is taken. -/
theorem numericCharacters_sublist (hsub : List.Sublist text' text) {decimal : Bool}
    (h : numericCharacters decimal text = true) : numericCharacters decimal text' = true := by
  induction hsub generalizing decimal with
  | slnil => rfl
  | cons c _ ih =>
    rw [numericCharacters] at h
    split at h
    · rename_i hpoint
      obtain rfl : decimal = false := by
        rw [Bool.and_eq_true] at hpoint
        exact (Bool.not_eq_true' decimal).mp hpoint.2
      exact numericCharacters_false (ih h)
    · exact ih (Bool.and_eq_true_iff.mp h).2
  | cons_cons c _ ih =>
    rw [numericCharacters] at h ⊢
    split
    · rename_i hpoint
      rw [if_pos hpoint] at h
      exact ih h
    · rename_i hpoint
      rw [if_neg hpoint, Bool.and_eq_true] at h
      rw [h.1, ih h.2]
      rfl

theorem unsigned_cons {c : Char} (h : c ≠ '-') (rest : List Char) :
    unsigned (c :: rest) = c :: rest := by
  rw [unsigned]
  rintro rest' ⟨⟩
  exact h rfl

theorem ne_minus_of_numericCharacters {decimal : Bool} {c : Char} {rest : List Char}
    (h : numericCharacters decimal (c :: rest) = true) : c ≠ '-' := by
  rintro rfl
  rw [numericCharacters] at h
  cases decimal <;> cases h

theorem unsigned_of_numericCharacters {decimal : Bool} (h : numericCharacters decimal text = true) :
    unsigned text = text := by
  cases text with
  | nil => rfl
  | cons c rest => exact unsigned_cons (ne_minus_of_numericCharacters h) rest

/-- Without a digit there is at most the point. -/
theorem eq_of_no_digit {decimal : Bool} (h : numericCharacters decimal text = true)
    (hdigit : text.any Char.isDigit = false) : text = [] ∨ text = ['.'] := by
  cases text with
  | nil => exact .inl rfl
  | cons c rest =>
    rw [List.any_cons, Bool.or_eq_false_iff] at hdigit
    rw [numericCharacters] at h
    split at h
    · rename_i hpoint
      rw [Bool.and_eq_true] at hpoint
      cases rest with
      | nil => exact .inr (by rw [eq_of_beq hpoint.1])
      | cons c' rest =>
        rw [numericCharacters, Bool.not_true, Bool.and_false, if_neg Bool.false_ne_true,
          Bool.and_eq_true] at h
        rw [List.any_cons, h.1] at hdigit
        cases hdigit.2
    · rw [hdigit.1] at h
      cases h

/-- The incomplete forms are taken by the loop as well: they are what there is without a digit. -/
theorem isNumericCandidate_iff :
    isNumericCandidate text = true ↔ numericCharacters false (unsigned text) = true := by
  rw [isNumericCandidate, Bool.or_eq_true, Bool.and_eq_true, decide_eq_true_eq]
  constructor
  · rintro (hform | ⟨hloop, -⟩)
    · simp only [incompleteForms, List.mem_cons, List.not_mem_nil, or_false] at hform
      rcases hform with rfl | rfl | rfl | rfl <;> rfl
    · exact hloop
  · intro h
    cases hdigit : (unsigned text).any Char.isDigit with
    | true => exact .inr ⟨h, rfl⟩
    | false =>
      -- without a digit only a sign and a point are left
      refine .inl ?_
      cases text with
      | nil => decide
      | cons c rest =>
        by_cases hc : c = '-'
        · subst hc
          rcases eq_of_no_digit h hdigit with hrest | hrest
          · rw [show rest = [] from hrest]
            decide
          · rw [show rest = ['.'] from hrest]
            decide
        · rw [unsigned_cons hc] at h hdigit
          rw [(eq_of_no_digit h hdigit).resolve_left (List.cons_ne_nil c rest)]
          decide

/-- What is left of a candidate is one. -/
theorem isNumericCandidate_sublist (hsub : List.Sublist text' text)
    (h : isNumericCandidate text = true) :
    isNumericCandidate text' = true := by
  rw [isNumericCandidate_iff] at h ⊢
  have hloop : ∀ rest, numericCharacters false rest = true → List.Sublist text' rest →
      numericCharacters false (unsigned text') = true := by
    intro rest hrest hsub
    have htext' := numericCharacters_sublist hsub hrest
    rw [unsigned_of_numericCharacters htext']
    exact htext'
  cases text with
  | nil => exact hloop [] rfl hsub
  | cons c rest =>
    by_cases hc : c = '-'
    · subst hc
      rcases List.sublist_cons_iff.mp hsub with hsub | ⟨rest', rfl, hrest⟩
      · exact hloop rest h hsub
      · show numericCharacters false rest' = true
        exact numericCharacters_sublist hrest h
    · rw [unsigned_cons hc] at h
      exact hloop _ h hsub

/-! ## Every candidate with a digit is a number -/

theorem digits_of_numericCharacters (h : numericCharacters true text = true) :
    ∀ c ∈ text, c.isDigit = true := by
  induction text with
  | nil => simp
  | cons c text ih =>
    rw [numericCharacters, Bool.not_true, Bool.and_false, if_neg Bool.false_ne_true,
      Bool.and_eq_true] at h
    exact List.forall_mem_cons.mpr ⟨h.1, ih h.2⟩

/-- After the leading digits there is nothing, or the point and digits only. -/
theorem dropWhile_of_numericCharacters (h : numericCharacters false text = true) :
    text.dropWhile Char.isDigit = [] ∨ ∃ decimals, text.dropWhile Char.isDigit = '.' :: decimals ∧
      ∀ c ∈ decimals, c.isDigit = true := by
  induction text with
  | nil => exact .inl rfl
  | cons c text ih =>
    rw [numericCharacters] at h
    split at h
    · rename_i hpoint
      rw [Bool.and_eq_true] at hpoint
      obtain rfl := eq_of_beq hpoint.1
      exact .inr ⟨text, rfl, digits_of_numericCharacters h⟩
    · rw [Bool.and_eq_true] at h
      rw [List.dropWhile_cons, if_pos h.1]
      exact ih h.2

theorem parseMagnitude_isSome (h : numericCharacters false text = true)
    (hdigit : text.any Char.isDigit = true) : (parseMagnitude text).isSome = true := by
  have hsplit := List.takeWhile_append_dropWhile (p := Char.isDigit) (l := text)
  rw [parseMagnitude]
  rcases dropWhile_of_numericCharacters h with hrest | ⟨decimals, hrest, hdecimals⟩
  · rw [hrest, List.append_nil] at hsplit
    rw [hrest, hsplit]
    cases text with
    | nil => cases hdigit
    | cons c rest => rfl
  · rw [hrest] at hsplit
    rw [hrest]
    simp only [List.takeWhile_eq_self_iff.mpr hdecimals, List.dropWhile_eq_nil_iff.mpr hdecimals]
    have hsome : ((text.takeWhile Char.isDigit).isEmpty && decimals.isEmpty) = false := by
      refine Bool.eq_false_iff.mpr fun hempty => ?_
      rw [Bool.and_eq_true, List.isEmpty_iff, List.isEmpty_iff] at hempty
      rw [hempty.1, hempty.2] at hsplit
      rw [← hsplit] at hdigit
      cases hdigit
    rw [hsome]
    rfl

/-- A candidate has no other sign. -/
theorem splitSign_snd (h : numericCharacters false (unsigned text) = true) :
    (splitSign text).2 = unsigned text := by
  cases text with
  | nil => rfl
  | cons c rest =>
    by_cases hminus : c = '-'
    · subst hminus
      rfl
    · rw [unsigned_cons hminus] at h ⊢
      have hplus : c ≠ '+' := by
        rintro rfl
        cases h
      rw [splitSign]
      · rintro number ⟨⟩
        exact hminus rfl
      · rintro number ⟨⟩
        exact hplus rfl

/-- A candidate that is more than the beginning of a number parses as one. -/
theorem parseF32_isSome (h : isNumericCandidate text = true) (hform : text ∉ incompleteForms) :
    (parseF32 text).isSome = true := by
  have hloop := isNumericCandidate_iff.mp h
  have hdigit : (unsigned text).any Char.isDigit = true := by
    rw [isNumericCandidate, Bool.or_eq_true, Bool.and_eq_true, decide_eq_true_eq] at h
    exact (h.resolve_left hform).2
  have hmagnitude := parseMagnitude_isSome hloop hdigit
  rw [parseF32]
  dsimp only
  rw [splitSign_snd hloop]
  split
  · rfl
  split
  · rfl
  · rwa [Option.isSome_map]

/-! ## Printing -/

theorem isNumericCandidate_digits {digits : List Char} (h : ∀ c ∈ digits, c.isDigit = true)
    (negative : Bool) :
    isNumericCandidate ((if negative then ['-'] else []) ++ digits) = true := by
  rw [isNumericCandidate_iff]
  have hdigits : numericCharacters false digits = true := numericCharacters_of_digits h
  cases negative with
  | true => exact hdigits
  | false => exact (unsigned_of_numericCharacters hdigits).symm ▸ hdigits

/-- What is printed is a candidate when it is of a finite number. -/
theorem isNumericCandidate_displayRounded (value : F32) :
    isNumericCandidate (displayRounded value) = true ↔ value.isFinite = true := by
  cases value with
  | nan => decide
  | infinite negative => cases negative <;> decide
  | finite negative magnitude =>
    refine iff_of_true (isNumericCandidate_digits ?_ negative) rfl
    exact fun c hc => Nat.isDigit_of_mem_toDigits (by decide) (by decide) hc

end Blip.Ui
