import Blip.Ui.NumericInput

/-!
# Editing the text fields

The cursor goes by bytes, so the operations on one character are right where that character is of one
byte, and the ranges of the platform where they fall between characters. While they do, the selection
stays between characters and a numeric field holds a number or the beginning of one.
-/

namespace Blip.Ui

open String (utf8Len)
open Utf8

variable {input next : NumericInput} {text : List Char}

/-! ## The selection -/

/-- The selection is in order and between characters, and a numeric field holds a candidate. -/
structure NumericInput.Valid (input : NumericInput) : Prop where
  ordered : input.selectedRange.start ≤ input.selectedRange.stop
  within : input.selectedRange.stop ≤ utf8Len input.content
  start : IsBoundary input.content input.selectedRange.start
  stop : IsBoundary input.content input.selectedRange.stop
  candidate : input.numeric = true → isNumericCandidate input.content = true

/-- With a cursor only one offset counts. -/
theorem valid_withCursor {offset : ℕ} (hcandidate : input.numeric = true →
    isNumericCandidate input.content = true) :
    (input.withCursor offset).Valid ↔ IsBoundary input.content offset := by
  constructor
  · exact NumericInput.Valid.start
  · intro h
    exact ⟨le_rfl, h.le, h, h, hcandidate⟩

theorem valid_selectAll (hcandidate : input.numeric = true → isNumericCandidate input.content = true) :
    input.selectAll.Valid :=
  ⟨Nat.zero_le _, le_rfl, isBoundary_zero _, isBoundary_utf8Len _, hcandidate⟩

/-- The text around a selection and in it. -/
structure NumericInput.Splits (input : NumericInput) (before selected after : List Char) : Prop where
  content : input.content = before ++ selected ++ after
  start : utf8Len before = input.selectedRange.start
  stop : utf8Len (before ++ selected) = input.selectedRange.stop

theorem exists_splits (hstart : IsBoundary input.content input.selectedRange.start)
    (hstop : IsBoundary input.content input.selectedRange.stop)
    (hordered : input.selectedRange.start ≤ input.selectedRange.stop) :
    ∃ before selected after, input.Splits before selected after := by
  obtain ⟨before, selected, after, hcontent, hbefore, hselected⟩ := exists_between hstart hstop hordered
  exact ⟨before, selected, after, hcontent, hbefore, hselected⟩

/-- What a replacement makes of a field whose selection is between characters. -/
theorem NumericInput.Splits.replaceSelection {before selected after : List Char}
    (h : input.Splits before selected after) (text : List Char) :
    input.replaceSelection text =
      if input.numeric && !isNumericCandidate (before ++ text ++ after) then some input
      else some ({ input with content := before ++ text ++ after }.withCursor
        (utf8Len before + utf8Len text)) := by
  have hstart : cut input.content input.selectedRange.start = some (before, selected ++ after) := by
    rw [cut_eq_some_iff, h.content]
    exact ⟨List.append_assoc .., h.start⟩
  have hstop : cut input.content input.selectedRange.stop = some (before ++ selected, after) :=
    cut_eq_some_iff.mpr ⟨h.content, h.stop⟩
  rw [NumericInput.replaceSelection, hstart, hstop, h.start]
  rfl

/-- A replacement that does not panic was between characters. -/
theorem isBoundary_of_replaceSelection (h : input.replaceSelection text = some next) :
    IsBoundary input.content input.selectedRange.start ∧
      IsBoundary input.content input.selectedRange.stop := by
  rw [NumericInput.replaceSelection] at h
  obtain ⟨_, hstart, h⟩ := Option.bind_eq_some_iff.mp h
  obtain ⟨_, hstop, -⟩ := Option.bind_eq_some_iff.mp h
  exact ⟨Option.isSome_of_eq_some hstart, Option.isSome_of_eq_some hstop⟩

/-- A replacement of a selection that is between characters is valid again. -/
theorem replaceSelection_valid (h : input.Valid) (text : List Char) :
    ∃ next, input.replaceSelection text = some next ∧ next.Valid := by
  obtain ⟨before, selected, after, hsplits⟩ := exists_splits h.start h.stop h.ordered
  rw [hsplits.replaceSelection]
  split
  · exact ⟨input, rfl, h⟩
  · rename_i hcandidate
    refine ⟨_, rfl, (valid_withCursor ?_).mpr ?_⟩
    · intro hnumeric
      rw [show input.numeric = true from hnumeric, Bool.true_and, Bool.not_eq_true', Bool.not_eq_false]
        at hcandidate
      exact hcandidate
    · rw [← String.utf8Len_append]
      exact isBoundary_append _ _

/-- Removing a selection is never rejected. -/
theorem NumericInput.Splits.remove {before selected after : List Char}
    (h : input.Splits before selected after)
    (hcandidate : input.numeric = true → isNumericCandidate input.content = true) :
    input.replaceSelection [] =
      some ({ input with content := before ++ after }.withCursor (utf8Len before)) := by
  have hkept : input.numeric = true → isNumericCandidate (before ++ after) = true := by
    intro hnumeric
    refine isNumericCandidate_sublist ?_ (hcandidate hnumeric)
    rw [h.content]
    exact (List.sublist_append_left before selected).append (List.Sublist.refl after)
  rw [h.replaceSelection, List.append_nil, if_neg]
  · rfl
  · rw [Bool.and_eq_true, Bool.not_eq_true']
    rintro ⟨hnumeric, hrejected⟩
    rw [hkept hnumeric] at hrejected
    cases hrejected

/-! ## Operations on one character -/

/-- A part of the content goes, and the cursor is where it was. -/
structure Removes (input next : NumericInput) (before removed after : List Char) : Prop where
  content : input.content = before ++ removed ++ after
  remaining : next.content = before ++ after
  cursor : next.selectedRange = ⟨utf8Len before, utf8Len before⟩

/-- The selection goes. -/
def RemovesSelection (input next : NumericInput) : Prop :=
  ∃ before removed after, Removes input next before removed after ∧
    utf8Len before = input.selectedRange.start ∧ utf8Len (before ++ removed) = input.selectedRange.stop

/-- What an operation on one character does: it moves over the character or removes it, the selection if
there is one, and nothing at the end of the content. -/
def OneCharacter (input next : NumericInput) : Edit → Prop
  | .left => next.content = input.content ∧
    (input.selectedRange.start = 0 ∧ next.selectedRange = ⟨0, 0⟩ ∨
      ∃ before c after, input.content = before ++ [c] ++ after ∧
        utf8Len (before ++ [c]) = input.selectedRange.start ∧
        next.selectedRange = ⟨utf8Len before, utf8Len before⟩)
  | .right => next.content = input.content ∧
    (input.selectedRange.stop = utf8Len input.content ∧
        next.selectedRange = ⟨utf8Len input.content, utf8Len input.content⟩ ∨
      ∃ before c after, input.content = before ++ [c] ++ after ∧
        utf8Len before = input.selectedRange.stop ∧
        next.selectedRange = ⟨utf8Len (before ++ [c]), utf8Len (before ++ [c])⟩)
  | .backspace =>
    if input.selectedRange.start < input.selectedRange.stop ∨ input.selectedRange.start = 0 then
      RemovesSelection input next
    else ∃ before c after, Removes input next before [c] after ∧
      utf8Len (before ++ [c]) = input.selectedRange.start
  | .delete =>
    if input.selectedRange.start < input.selectedRange.stop ∨
        input.selectedRange.stop = utf8Len input.content then
      RemovesSelection input next
    else ∃ before c after, Removes input next before [c] after ∧
      utf8Len before = input.selectedRange.stop
  | .selectAll | .increment | .decrement | .paste _ | .onMouseDown .. | .replaceTextInRange .. |
    .setValue ..
  | .setText _ | .blur | .paint .. => True

/-- The byte that an operation steps over is a character, a range or a click is between characters, and
what the application or an arrow key puts into a numeric field is a candidate. -/
def Edit.Safe (input : NumericInput) : Edit → Prop
  | .backspace => input.selectedRange.start < input.selectedRange.stop ∨
    IsBoundary input.content (input.selectedRange.start - 1)
  | .delete => input.selectedRange.start < input.selectedRange.stop ∨
    IsBoundary input.content (min (input.selectedRange.stop + 1) (utf8Len input.content))
  | .left => IsBoundary input.content (input.selectedRange.start - 1)
  | .right => IsBoundary input.content (min (input.selectedRange.stop + 1) (utf8Len input.content))
  | .increment => input.numeric = true → ∀ value, parseF32 input.content = some value →
    (value + .ofRat 1).isFinite = true
  | .decrement => input.numeric = true → ∀ value, parseF32 input.content = some value →
    (value + .ofRat (-1)).isFinite = true
  | .onMouseDown x y => input.numeric = false → IsBoundary input.content
    (input.indexForMousePosition x y)
  | .replaceTextInRange range _ => ∀ given, range = some given →
    IsBoundary input.content given.toRange.start ∧ IsBoundary input.content given.toRange.stop
  | .setValue value focused => input.numeric = true → focused = false → value.isFinite = true
  | .setText value => input.numeric = true → isNumericCandidate value = true
  | .selectAll | .paste _ | .blur | .paint .. => True

/-- An operation slices between characters, leaves a valid field and is of one character where it
should be. -/
def Edit.Good (input : NumericInput) (edit : Edit) : Prop :=
  ∃ next, input.perform edit = some next ∧ next.Valid ∧ OneCharacter input next edit

theorem good_left_iff (h : input.Valid) : Edit.Good input .left ↔ Edit.Safe input .left := by
  constructor
  · rintro ⟨_, ⟨⟩, hvalid, -⟩
    exact hvalid.start
  · intro hsafe
    refine ⟨_, rfl, (valid_withCursor h.candidate).mpr hsafe, rfl, ?_⟩
    rcases Nat.eq_zero_or_pos input.selectedRange.start with hzero | hpos
    · refine .inl ⟨hzero, ?_⟩
      rw [NumericInput.left, hzero]
      rfl
    · have hstart := h.start
      rw [← Nat.sub_add_cancel hpos] at hstart
      obtain ⟨before, c, after, hcontent, hbefore, hcharacter⟩ := exists_character hsafe hstart
      refine .inr ⟨before, c, after, hcontent, by rw [hcharacter, Nat.sub_add_cancel hpos], ?_⟩
      rw [NumericInput.left, ← hbefore]
      rfl

theorem good_right_iff (h : input.Valid) : Edit.Good input .right ↔ Edit.Safe input .right := by
  constructor
  · rintro ⟨_, ⟨⟩, hvalid, -⟩
    exact hvalid.start
  · intro hsafe
    refine ⟨_, rfl, (valid_withCursor h.candidate).mpr hsafe, rfl, ?_⟩
    rcases h.within.eq_or_lt with hend | hlt
    · refine .inl ⟨hend, ?_⟩
      rw [NumericInput.right, hend, Nat.min_eq_right (Nat.le_succ _)]
      rfl
    · have hnext : IsBoundary input.content (input.selectedRange.stop + 1) := by
        rwa [Edit.Safe, Nat.min_eq_left hlt] at hsafe
      obtain ⟨before, c, after, hcontent, hbefore, hcharacter⟩ := exists_character h.stop hnext
      refine .inr ⟨before, c, after, hcontent, hbefore, ?_⟩
      rw [NumericInput.right, Nat.min_eq_left hlt, hcharacter]
      rfl

theorem exists_removed (h : input.Valid) :
    ∃ next, input.replaceSelection [] = some next ∧ next.Valid ∧ RemovesSelection input next := by
  obtain ⟨next, hnext, hvalid⟩ := replaceSelection_valid h []
  obtain ⟨before, selected, after, hsplits⟩ := exists_splits h.start h.stop h.ordered
  refine ⟨next, hnext, hvalid, before, selected, after, ?_, hsplits.start, hsplits.stop⟩
  obtain rfl := Option.some.inj (hnext.symm.trans (hsplits.remove h.candidate))
  exact ⟨hsplits.content, rfl, rfl⟩

/-- A selection of one byte is of one character. -/
theorem RemovesSelection.one (h : RemovesSelection input next)
    (hone : input.selectedRange.stop = input.selectedRange.start + 1) :
    ∃ before c after, Removes input next before [c] after ∧ utf8Len before = input.selectedRange.start ∧
      utf8Len (before ++ [c]) = input.selectedRange.stop := by
  obtain ⟨before, removed, after, hremoves, hbefore, hremoved⟩ := h
  have hlength : utf8Len removed = 1 := by
    rw [String.utf8Len_append] at hremoved
    omega
  obtain ⟨c, rfl⟩ := eq_singleton_of_utf8Len hlength
  exact ⟨before, c, after, hremoves, hbefore, hremoved⟩

/-- An operation that removes the selection is right where the selection is what it is to remove. -/
theorem good_of_removesSelection (h : input.Valid) {edit : Edit}
    (hperform : input.perform edit = input.replaceSelection [])
    (hwhole : ∀ next, RemovesSelection input next → OneCharacter input next edit) :
    Edit.Good input edit := by
  obtain ⟨next, hnext, hvalid, hremoves⟩ := exists_removed h
  exact ⟨next, hperform.trans hnext, hvalid, hwhole next hremoves⟩

/-- An operation that selects a byte between characters and removes it is right. -/
theorem good_of_selectsByte {range : ByteRange} {edit : Edit}
    (h : NumericInput.Valid { input with selectedRange := range })
    (hone : range.stop = range.start + 1)
    (hperform : input.perform edit = { input with selectedRange := range }.replaceSelection [])
    (hbyte : ∀ next before c after, Removes input next before [c] after → utf8Len before = range.start →
      utf8Len (before ++ [c]) = range.stop → OneCharacter input next edit) :
    Edit.Good input edit := by
  obtain ⟨next, hnext, hvalid, hremoves⟩ := exists_removed h
  obtain ⟨before, c, after, hremoved, hbefore, hcharacter⟩ := hremoves.one hone
  -- the content is that of the field before the byte was selected
  have hremoved : Removes input next before [c] after := ⟨hremoved.1, hremoved.2, hremoved.3⟩
  exact ⟨next, hperform.trans hnext, hvalid, hbyte next before c after hremoved hbefore hcharacter⟩

theorem good_backspace_iff (h : input.Valid) :
    Edit.Good input .backspace ↔ Edit.Safe input .backspace := by
  rcases Nat.lt_or_ge input.selectedRange.start input.selectedRange.stop with hselected | hcursor
  · refine iff_of_true (good_of_removesSelection h ?_ fun next hremoves => ?_) (.inl hselected)
    · exact if_neg fun hempty => hempty.1.not_gt hselected
    · rwa [OneCharacter, if_pos (.inl hselected)]
  rcases Nat.eq_zero_or_pos input.selectedRange.start with hzero | hpos
  · refine iff_of_true (good_of_removesSelection h ?_ fun next hremoves => ?_) (.inr ?_)
    · exact if_neg fun hempty => hempty.2.ne' hzero
    · rwa [OneCharacter, if_pos (.inr hzero)]
    · rw [hzero]
      exact isBoundary_zero _
  have hperform : input.perform .backspace = { input with
      selectedRange := ⟨input.selectedRange.start - 1, input.selectedRange.stop⟩
        }.replaceSelection [] :=
    if_pos ⟨hcursor, hpos⟩
  have hcollapsed := le_antisymm hcursor h.ordered
  rw [Edit.Safe, or_iff_right hcursor.not_gt]
  constructor
  · rintro ⟨next, hnext, -, -⟩
    exact (isBoundary_of_replaceSelection (hperform.symm.trans hnext)).1
  · intro hsafe
    refine good_of_selectsByte ?_ ?_ hperform fun next before c after hremoves _ hcharacter => ?_
    · exact { h with
        ordered := (Nat.sub_le _ _).trans h.ordered
        start := hsafe }
    · exact hcollapsed.trans (Nat.sub_add_cancel hpos).symm
    · rw [OneCharacter, if_neg (not_or.mpr ⟨hcursor.not_gt, hpos.ne'⟩)]
      exact ⟨before, c, after, hremoves, hcharacter.trans hcollapsed⟩

theorem good_delete_iff (h : input.Valid) : Edit.Good input .delete ↔ Edit.Safe input .delete := by
  rcases Nat.lt_or_ge input.selectedRange.start input.selectedRange.stop with hselected | hcursor
  · refine iff_of_true (good_of_removesSelection h ?_ fun next hremoves => ?_) (.inl hselected)
    · exact if_neg fun hempty => hempty.1.not_gt hselected
    · rwa [OneCharacter, if_pos (.inl hselected)]
  rcases h.within.eq_or_lt with hend | hlt
  · refine iff_of_true (good_of_removesSelection h ?_ fun next hremoves => ?_) (.inr ?_)
    · exact if_neg fun hempty => hempty.2.ne hend
    · rwa [OneCharacter, if_pos (.inr hend)]
    · rw [hend, Nat.min_eq_right (Nat.le_succ _)]
      exact isBoundary_utf8Len _
  have hperform : input.perform .delete = { input with
      selectedRange := ⟨input.selectedRange.start, input.selectedRange.stop + 1⟩
        }.replaceSelection [] :=
    if_pos ⟨hcursor, hlt⟩
  have hcollapsed := le_antisymm hcursor h.ordered
  rw [Edit.Safe, or_iff_right hcursor.not_gt, Nat.min_eq_left hlt]
  constructor
  · rintro ⟨next, hnext, -, -⟩
    exact (isBoundary_of_replaceSelection (hperform.symm.trans hnext)).2
  · intro hsafe
    refine good_of_selectsByte ?_ ?_ hperform fun next before c after hremoves hbefore _ => ?_
    · exact { h with
        ordered := h.ordered.trans (Nat.le_succ _)
        within := hlt
        stop := hsafe }
    · exact congrArg Nat.succ hcollapsed
    · rw [OneCharacter, if_neg (not_or.mpr ⟨hcursor.not_gt, hlt.ne⟩)]
      exact ⟨before, c, after, hremoves, hbefore.trans hcollapsed.symm⟩

/-! ## The other operations -/

theorem good_adjust_iff (h : input.Valid) (delta : F32) :
    (input.adjustValue delta).Valid ↔ (input.numeric = true →
      ∀ value, parseF32 input.content = some value →
      (value + delta).isFinite = true) := by
  rw [NumericInput.adjustValue]
  cases hvalue : parseF32 input.content with
  | none => exact iff_of_true h fun _ _ hnone => absurd hnone (by simp)
  | some value =>
    constructor
    · intro hvalid hnumeric _ hsome
      obtain rfl := Option.some.inj hsome
      exact (isNumericCandidate_displayRounded _).mp (hvalid.candidate hnumeric)
    · intro hfinite
      exact valid_selectAll fun hnumeric =>
        (isNumericCandidate_displayRounded _).mpr (hfinite hnumeric value rfl)

theorem good_setText_iff (value : List Char) :
    (input.setText value).Valid ↔ (input.numeric = true → isNumericCandidate value = true) := by
  constructor
  · intro hvalid
    exact hvalid.candidate
  · intro hcandidate
    exact (valid_withCursor hcandidate).mpr (isBoundary_utf8Len value)

theorem good_setValue_iff (h : input.Valid) (value : F32) (focused : Bool) :
    (input.setValue value focused).Valid ↔
      (input.numeric = true → focused = false → value.isFinite = true) := by
  rw [NumericInput.setValue]
  split
  · rename_i hfocused
    exact iff_of_true h fun _ hunfocused => absurd hfocused (by simp [hunfocused])
  · rename_i hfocused
    have hunfocused := Bool.eq_false_iff.mpr hfocused
    split
    · rw [good_setText_iff]
      simp only [isNumericCandidate_displayRounded, hunfocused, forall_const]
    · rename_i hsame
      refine iff_of_true h fun hnumeric _ => ?_
      rw [← isNumericCandidate_displayRounded, ← not_not.mp hsame]
      exact h.candidate hnumeric

theorem good_onMouseDown_iff (h : input.Valid) (x y : ℚ) :
    (input.onMouseDown x y).Valid ↔
      (input.numeric = false → IsBoundary input.content (input.indexForMousePosition x y)) := by
  rw [NumericInput.onMouseDown]
  split
  · rename_i hnumeric
    exact iff_of_true (valid_selectAll h.candidate) fun htext => absurd hnumeric (by simp [htext])
  · rename_i htext
    rw [valid_withCursor h.candidate]
    exact ⟨fun h _ => h, fun h => h (Bool.eq_false_iff.mpr htext)⟩

theorem good_replaceTextInRange_iff (h : input.Valid) (range : Option PlatformRange) (text : List Char) :
    (∃ next, input.replaceTextInRange range text = some next ∧ next.Valid) ↔
      ∀ given, range = some given → IsBoundary input.content given.toRange.start ∧
        IsBoundary input.content given.toRange.stop := by
  cases range with
  | none => exact iff_of_true (replaceSelection_valid h text) (by rintro _ ⟨⟩)
  | some given =>
    constructor
    · rintro ⟨next, hnext, -⟩ _ ⟨⟩
      exact isBoundary_of_replaceSelection hnext
    · intro hboundary
      obtain ⟨hstart, hstop⟩ := hboundary given rfl
      have hvalid : NumericInput.Valid { input with selectedRange := given.toRange } :=
        { h with
          ordered := Nat.le_add_right _ _
          within := hstop.le
          start := hstart
          stop := hstop }
      exact replaceSelection_valid hvalid text

/-- An operation that leaves a valid field does what it should. -/
theorem good_iff_of_true (input : NumericInput) (edit : Edit)
    (hone : ∀ next, OneCharacter input next edit) :
    Edit.Good input edit ↔ ∃ next, input.perform edit = some next ∧ next.Valid := by
  constructor
  · rintro ⟨next, hnext, hvalid, -⟩
    exact ⟨next, hnext, hvalid⟩
  · rintro ⟨next, hnext, hvalid⟩
    exact ⟨next, hnext, hvalid, hone next⟩

theorem exists_some_iff {updated : NumericInput} :
    (∃ next, some updated = some next ∧ next.Valid) ↔ updated.Valid := by
  constructor
  · rintro ⟨_, ⟨⟩, hvalid⟩
    exact hvalid
  · intro hvalid
    exact ⟨updated, rfl, hvalid⟩

theorem good_iff (h : input.Valid) (edit : Edit) : Edit.Good input edit ↔ Edit.Safe input edit := by
  cases edit with
  | backspace => exact good_backspace_iff h
  | delete => exact good_delete_iff h
  | left => exact good_left_iff h
  | right => exact good_right_iff h
  | selectAll =>
    refine (good_iff_of_true input .selectAll fun _ => trivial).trans ?_
    exact exists_some_iff.trans (iff_of_true (valid_selectAll h.candidate) trivial)
  | increment =>
    refine (good_iff_of_true input .increment fun _ => trivial).trans ?_
    exact exists_some_iff.trans (good_adjust_iff h _)
  | decrement =>
    refine (good_iff_of_true input .decrement fun _ => trivial).trans ?_
    exact exists_some_iff.trans (good_adjust_iff h _)
  | paste clipboard =>
    refine (good_iff_of_true input (.paste clipboard) fun _ => trivial).trans ?_
    refine iff_of_true ?_ trivial
    cases clipboard with
    | none => exact ⟨input, rfl, h⟩
    | some text => exact replaceSelection_valid h (trim text)
  | onMouseDown x y =>
    refine (good_iff_of_true input (.onMouseDown x y) fun _ => trivial).trans ?_
    exact exists_some_iff.trans (good_onMouseDown_iff h x y)
  | replaceTextInRange range text =>
    refine (good_iff_of_true input (.replaceTextInRange range text) fun _ => trivial).trans ?_
    exact good_replaceTextInRange_iff h range text
  | setValue value focused =>
    refine (good_iff_of_true input (.setValue value focused) fun _ => trivial).trans ?_
    exact exists_some_iff.trans (good_setValue_iff h value focused)
  | setText value =>
    refine (good_iff_of_true input (.setText value) fun _ => trivial).trans ?_
    exact exists_some_iff.trans (good_setText_iff value)
  | blur =>
    refine (good_iff_of_true input .blur fun _ => trivial).trans ?_
    exact exists_some_iff.trans (iff_of_true ((valid_withCursor h.candidate).mpr h.stop) trivial)
  | paint system bounds =>
    refine (good_iff_of_true input (.paint system bounds) fun _ => trivial).trans ?_
    exact exists_some_iff.trans (iff_of_true { h with } trivial)

/-! ## Where operations are safe -/

theorem closestGlyph_boundary {x : ℚ} {previous : Glyph} {glyphs : List Glyph} {index : ℕ}
    (hprevious : IsBoundary text previous.index)
    (hglyphs : ∀ glyph ∈ glyphs, IsBoundary text glyph.index)
    (h : closestGlyph x previous glyphs = some index) : IsBoundary text index := by
  induction glyphs generalizing previous with
  | nil => cases h
  | cons glyph glyphs ih =>
    obtain ⟨hglyph, hrest⟩ := List.forall_mem_cons.mp hglyphs
    rw [closestGlyph] at h
    split at h
    · obtain rfl := Option.some.inj h
      split
      · exact hglyph
      · exact hprevious
    · exact ih hglyph hrest h

/-- A click on a line is between two characters of its text. -/
theorem closestIndexForX_boundary (line : ShapedLine) (x : ℚ) :
    IsBoundary line.text (line.closestIndexForX x) := by
  rw [ShapedLine.closestIndexForX]
  split
  · rename_i index hindex
    exact closestGlyph_boundary (isBoundary_zero _) line.boundary hindex
  split
  · rename_i hone
    split
    · rw [← hone]
      exact isBoundary_utf8Len _
    · exact isBoundary_zero _
  · exact isBoundary_utf8Len _

/-- A click is safe while the line that is painted is that of the content. -/
theorem safe_onMouseDown (h : ∀ line, input.lastLayout = some line → line.text = input.content)
    (x y : ℚ) :
    Edit.Safe input (.onMouseDown x y) := by
  intro _
  rw [NumericInput.indexForMousePosition]
  split
  · exact isBoundary_zero _
  split
  · rename_i bounds line _ hline
    split
    · exact isBoundary_zero _
    split
    · exact isBoundary_utf8Len _
    · rw [← h line hline]
      exact closestIndexForX_boundary line _
  · exact isBoundary_zero _

/-- In a content of one-byte characters, as every number is, the keys and the ranges of the platform
are safe. -/
theorem safe_of_ascii (h : input.Valid) (hascii : ∀ c ∈ input.content, c.utf8Size = 1) :
    Edit.Safe input .backspace ∧ Edit.Safe input .delete ∧ Edit.Safe input .left ∧
      Edit.Safe input .right ∧
      ∀ range text, range.location + range.length ≤ utf8Len input.content →
        Edit.Safe input (.replaceTextInRange (some range) text) := by
  have hleft := isBoundary_of_ascii hascii
    (((Nat.sub_le _ 1).trans h.ordered).trans h.within)
  have hright := isBoundary_of_ascii hascii
    (Nat.min_le_right (input.selectedRange.stop + 1) (utf8Len input.content))
  refine ⟨.inr hleft, .inr hright, hleft, hright, ?_⟩
  rintro range text hrange _ ⟨⟩
  exact ⟨isBoundary_of_ascii hascii ((Nat.le_add_right _ _).trans hrange),
    isBoundary_of_ascii hascii hrange⟩

/-! ## Every run -/

end Blip.Ui
