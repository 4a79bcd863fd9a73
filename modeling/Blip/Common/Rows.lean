import Mathlib.Data.List.Basic
import Mathlib.Tactic.Ring

/-!
# Rows in a block of items

The rows of a picture lie in one block of memory, each `stride` items behind the one before it, and a
stride may be longer than a row. `slice` and `overwrite` read and write a part of a block, and
`overwriteRows` writes rows one after the other. What a block holds after that is known by the place of
an item: the quotient of its index by the stride is a row, the rest a column.
-/

namespace Blip

variable {α : Type}

/-- So many items from a place on, if the block has them. -/
def slice (items : List α) (start width : ℕ) : Option (List α) :=
  if start + width ≤ items.length then some ((items.drop start).take width) else none

/-- The block with the row from the place on. -/
def overwrite (items row : List α) (start : ℕ) : List α :=
  items.take start ++ row ++ items.drop (start + row.length)

/-- The block with the first rows, one after the other. -/
def overwriteRows (row : ℕ → List α) (stride : ℕ) (items : List α) : ℕ → List α
  | 0 => items
  | rows + 1 => overwrite (overwriteRows row stride items rows) (row rows) (rows * stride)

/-! ## One row -/

theorem slice_eq_some_iff {items : List α} {start width : ℕ} {row : List α} :
    slice items start width = some row ↔
      start + width ≤ items.length ∧ (items.drop start).take width = row := by
  rw [slice, Option.ite_none_right_eq_some, Option.some.injEq]

theorem slice_isSome_iff {items : List α} {start width : ℕ} :
    (slice items start width).isSome = true ↔ start + width ≤ items.length := by
  unfold slice
  split <;> simp_all

theorem length_of_slice {items row : List α} {start width : ℕ}
    (h : slice items start width = some row) : row.length = width := by
  obtain ⟨hfits, rfl⟩ := slice_eq_some_iff.1 h
  rw [List.length_take, List.length_drop]
  omega

/-- A part of a block is known by its items. -/
theorem slice_eq_some_of_getElem? (items row : List α) (start : ℕ)
    (hfits : start + row.length ≤ items.length)
    (h : ∀ column, column < row.length → items[start + column]? = row[column]?) :
    slice items start row.length = some row := by
  refine slice_eq_some_iff.2 ⟨hfits, List.ext_getElem? fun column => ?_⟩
  rw [List.getElem?_take]
  split
  · rw [List.getElem?_drop]
    exact h column ‹_›
  · rw [List.getElem?_eq_none (by omega)]

theorem length_overwrite {items row : List α} {start : ℕ} (hfits : start + row.length ≤ items.length) :
    (overwrite items row start).length = items.length := by
  simp only [overwrite, List.length_append, List.length_take, List.length_drop]
  omega

theorem getElem?_overwrite {items row : List α} {start : ℕ}
    (hfits : start + row.length ≤ items.length) (index : ℕ) :
    (overwrite items row start)[index]? =
      if start ≤ index ∧ index < start + row.length then row[index - start]? else items[index]? := by
  have hstart : (items.take start).length = start := by
    rw [List.length_take]
    omega
  rw [overwrite, List.append_assoc]
  by_cases hbefore : index < start
  · rw [if_neg (by omega), List.getElem?_append_left (by omega), List.getElem?_take, if_pos hbefore]
  · rw [List.getElem?_append_right (by omega), hstart]
    by_cases hrow : index < start + row.length
    · rw [if_pos (by omega), List.getElem?_append_left (by omega)]
    · rw [if_neg (by omega), List.getElem?_append_right (by omega), List.getElem?_drop]
      congr 1
      omega

/-! ## Rows -/

section

variable {row : ℕ → List α} {stride width : ℕ} {items : List α}

/-- A row fits where the last one does. -/
theorem row_fits {rows index : ℕ} (hindex : index < rows)
    (hfits : 0 < rows → (rows - 1) * stride + width ≤ items.length) :
    index * stride + width ≤ items.length := by
  have hle : index * stride ≤ (rows - 1) * stride := Nat.mul_le_mul_right _ (by omega)
  have := hfits (by omega)
  omega

theorem length_overwriteRows (hwidth : ∀ index, (row index).length = width) {rows : ℕ}
    (hfits : ∀ index, index < rows → index * stride + width ≤ items.length) :
    (overwriteRows row stride items rows).length = items.length := by
  induction rows with
  | zero => rfl
  | succ rows ih =>
    have hrows := ih fun index hindex => hfits index (Nat.lt_succ_of_lt hindex)
    rw [overwriteRows, length_overwrite, hrows]
    rw [hwidth, hrows]
    exact hfits rows (Nat.lt_succ_self rows)

/-- What lies where, when the rows do not overlap. -/
theorem getElem?_overwriteRows (hwidth : ∀ index, (row index).length = width) (hstride : width ≤ stride)
    {rows : ℕ} (hfits : ∀ index, index < rows → index * stride + width ≤ items.length) (index : ℕ) :
    (overwriteRows row stride items rows)[index]? =
      if index / stride < rows ∧ index % stride < width then (row (index / stride))[index % stride]?
      else items[index]? := by
  induction rows with
  | zero => rw [if_neg fun h => Nat.not_lt_zero _ h.1, overwriteRows]
  | succ rows ih =>
    have hbefore : ∀ index, index < rows → index * stride + width ≤ items.length :=
      fun index hindex => hfits index (Nat.lt_succ_of_lt hindex)
    have hlength := length_overwriteRows hwidth hbefore
    have hlast := hfits rows (Nat.lt_succ_self rows)
    have hsplit : index = index / stride * stride + index % stride := (Nat.div_add_mod' _ _).symm
    rw [overwriteRows, getElem?_overwrite (by rw [hwidth, hlength]; exact hlast), hwidth, ih hbefore]
    by_cases hin : rows * stride ≤ index ∧ index < rows * stride + width
    · -- the index is in the last row
      have hpos : 0 < stride := by omega
      have hquotient : index / stride = rows :=
        Nat.div_eq_of_lt_le hin.1 (by rw [Nat.succ_mul]; omega)
      have hrest : index % stride = index - rows * stride := by
        rw [hquotient] at hsplit
        omega
      rw [if_pos hin, if_pos ⟨by omega, by omega⟩, hquotient, hrest]
    · rw [if_neg hin]
      have hiff : (index / stride < rows ∧ index % stride < width) ↔
          (index / stride < rows + 1 ∧ index % stride < width) := by
        refine and_congr_left fun hcolumn => ⟨fun h => by omega, fun h => ?_⟩
        refine (Nat.lt_succ_iff_lt_or_eq.1 h).resolve_right fun heq => hin ?_
        rw [heq] at hsplit
        omega
      rw [if_congr hiff rfl rfl]

/-- A row that was written is read back. -/
theorem slice_overwriteRows (hwidth : ∀ index, (row index).length = width) (hstride : width ≤ stride)
    {rows : ℕ} (hfits : ∀ index, index < rows → index * stride + width ≤ items.length) {index : ℕ}
    (hindex : index < rows) :
    slice (overwriteRows row stride items rows) (index * stride) width = some (row index) := by
  have hlength := length_overwriteRows hwidth hfits
  rw [← hwidth index]
  refine slice_eq_some_of_getElem? _ _ _ ?_ fun column hcolumn => ?_
  · rw [hwidth, hlength]
    exact hfits index hindex
  · rw [hwidth] at hcolumn
    have hquotient : (index * stride + column) / stride = index :=
      Nat.div_eq_of_lt_le (by omega) (by rw [Nat.succ_mul]; omega)
    have hrest : (index * stride + column) % stride = column := by
      rw [Nat.mul_add_mod_self_right, Nat.mod_eq_of_lt (by omega)]
    rw [getElem?_overwriteRows hwidth hstride hfits, hquotient, hrest, if_pos ⟨hindex, hcolumn⟩]

/-- Nothing else is written. -/
theorem getElem?_overwriteRows_padding (hwidth : ∀ index, (row index).length = width)
    (hstride : width ≤ stride) {rows : ℕ}
    (hfits : ∀ index, index < rows → index * stride + width ≤ items.length) {index : ℕ}
    (hpadding : rows ≤ index / stride ∨ width ≤ index % stride) :
    (overwriteRows row stride items rows)[index]? = items[index]? := by
  rw [getElem?_overwriteRows hwidth hstride hfits, if_neg (by omega)]

end

end Blip
