import Mathlib.Data.String.Basic

/-!
# Byte offsets in UTF-8 text

A text as a language with UTF-8 strings slices it: at byte offsets, which have to be between two
characters.
-/

namespace Blip.Utf8

open String (utf8Len)

/-- The text before and after a byte offset, unless that is inside a character or past the end. -/
def cut : List Char → ℕ → Option (List Char × List Char)
  | text, 0 => some ([], text)
  | [], _ + 1 => none
  | c :: text, offset + 1 =>
    if c.utf8Size ≤ offset + 1 then
      (cut text (offset + 1 - c.utf8Size)).map fun parts => (c :: parts.1, parts.2)
    else none

/-- The offset is between two characters, or at an end of the text. -/
def IsBoundary (text : List Char) (offset : ℕ) : Prop := (cut text offset).isSome

instance (text : List Char) (offset : ℕ) : Decidable (IsBoundary text offset) :=
  inferInstanceAs (Decidable ((cut text offset).isSome = true))

variable {text left right : List Char} {offset offset' : ℕ}

theorem cut_append (left right : List Char) : cut (left ++ right) (utf8Len left) = some
    (left, right) := by
  induction left with
  | nil => cases right <;> rfl
  | cons c left ih =>
    have hsize := c.utf8Size_pos
    obtain ⟨offset, hoffset⟩ : ∃ offset, utf8Len (c :: left) = offset + 1 :=
      ⟨utf8Len (c :: left) - 1, by rw [String.utf8Len_cons]; omega⟩
    have hrest : offset + 1 - c.utf8Size = utf8Len left := by
      rw [← hoffset, String.utf8Len_cons]
      omega
    rw [List.cons_append, hoffset, cut, hrest, ih,
      if_pos (by rw [← hoffset, String.utf8Len_cons]; omega)]
    rfl

theorem eq_append_of_cut (h : cut text offset = some (left, right)) :
    text = left ++ right ∧ utf8Len left = offset := by
  induction text generalizing offset left with
  | nil =>
    cases offset with
    | zero =>
      cases h
      exact ⟨rfl, rfl⟩
    | succ offset => cases h
  | cons c text ih =>
    cases offset with
    | zero =>
      cases h
      exact ⟨rfl, rfl⟩
    | succ offset =>
      obtain ⟨hsize, h⟩ := Option.ite_none_right_eq_some.mp h
      obtain ⟨⟨before, after⟩, hcut, hparts⟩ := Option.map_eq_some_iff.mp h
      cases hparts
      obtain ⟨rfl, hbefore⟩ := ih hcut
      refine ⟨rfl, ?_⟩
      dsimp only
      rw [String.utf8Len_cons]
      omega

theorem cut_eq_some_iff : cut text offset = some (left, right) ↔
    text = left ++ right ∧ utf8Len left = offset := by
  refine ⟨eq_append_of_cut, ?_⟩
  rintro ⟨rfl, rfl⟩
  exact cut_append left right

theorem isBoundary_iff : IsBoundary text offset ↔
    ∃ left right, text = left ++ right ∧ utf8Len left = offset := by
  rw [IsBoundary, Option.isSome_iff_exists]
  constructor
  · rintro ⟨⟨left, right⟩, h⟩
    exact ⟨left, right, cut_eq_some_iff.mp h⟩
  · rintro ⟨left, right, h⟩
    exact ⟨(left, right), cut_eq_some_iff.mpr h⟩

theorem isBoundary_append (left right : List Char) : IsBoundary (left ++ right) (utf8Len left) :=
  isBoundary_iff.mpr ⟨left, right, rfl, rfl⟩

theorem isBoundary_zero (text : List Char) : IsBoundary text 0 := isBoundary_append [] text

theorem isBoundary_utf8Len (text : List Char) : IsBoundary text (utf8Len text) :=
  isBoundary_iff.mpr ⟨text, [], (List.append_nil text).symm, rfl⟩

theorem IsBoundary.le (h : IsBoundary text offset) : offset ≤ utf8Len text := by
  obtain ⟨left, right, rfl, rfl⟩ := isBoundary_iff.mp h
  rw [String.utf8Len_append]
  omega

theorem utf8Len_eq_zero : utf8Len text = 0 ↔ text = [] := by
  cases text with
  | nil => simp
  | cons c text =>
    have hsize := c.utf8Size_pos
    rw [String.utf8Len_cons]
    exact iff_of_false (by omega) (List.cons_ne_nil c text)

/-- One byte is one character. -/
theorem eq_singleton_of_utf8Len (h : utf8Len text = 1) : ∃ c, text = [c] := by
  cases text with
  | nil => cases h
  | cons c text =>
    have hsize := c.utf8Size_pos
    rw [String.utf8Len_cons] at h
    obtain rfl : text = [] := utf8Len_eq_zero.mp (by omega)
    exact ⟨c, rfl⟩

/-- Among characters of one byte every offset is between two. -/
theorem isBoundary_of_ascii (h : ∀ c ∈ text, c.utf8Size = 1) (hle : offset ≤ utf8Len text) :
    IsBoundary text offset := by
  induction text generalizing offset with
  | nil =>
    obtain rfl := Nat.le_zero.mp hle
    exact isBoundary_zero []
  | cons c text ih =>
    obtain ⟨hc, htext⟩ := List.forall_mem_cons.mp h
    cases offset with
    | zero => exact isBoundary_zero _
    | succ offset =>
      rw [String.utf8Len_cons, hc] at hle
      obtain ⟨left, right, rfl, rfl⟩ := isBoundary_iff.mp (ih htext (Nat.le_of_succ_le_succ hle))
      exact isBoundary_iff.mpr ⟨c :: left, right, rfl, by rw [String.utf8Len_cons, hc]⟩

/-- The text between two offsets. -/
theorem exists_between (h : IsBoundary text offset) (h' : IsBoundary text offset')
    (hle : offset ≤ offset') :
    ∃ before middle after, text = before ++ middle ++ after ∧ utf8Len before = offset ∧
      utf8Len (before ++ middle) = offset' := by
  obtain ⟨before, rest, rfl, rfl⟩ := isBoundary_iff.mp h
  obtain ⟨upTo, after, heq, rfl⟩ := isBoundary_iff.mp h'
  rcases List.append_eq_append_iff.mp heq with ⟨middle, rfl, rfl⟩ | ⟨middle, rfl, rfl⟩
  · exact ⟨before, middle, after, (List.append_assoc ..).symm, rfl, rfl⟩
  · rw [String.utf8Len_append] at hle
    obtain rfl : middle = [] := utf8Len_eq_zero.mp (by omega)
    exact ⟨upTo ++ [], [], rest, by simp, rfl, by simp⟩

/-- Two offsets that are one apart have one character between them. -/
theorem exists_character (h : IsBoundary text offset) (h' : IsBoundary text (offset + 1)) :
    ∃ before c after, text = before ++ [c] ++ after ∧ utf8Len before = offset ∧
      utf8Len (before ++ [c]) = offset + 1 := by
  obtain ⟨before, middle, after, rfl, hbefore, hmiddle⟩ := exists_between h h' (Nat.le_succ _)
  have hone : utf8Len middle = 1 := by
    rw [String.utf8Len_append] at hmiddle
    omega
  obtain ⟨c, rfl⟩ := eq_singleton_of_utf8Len hone
  exact ⟨before, c, after, rfl, hbefore, hmiddle⟩

end Blip.Utf8
