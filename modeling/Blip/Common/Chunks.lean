import Mathlib.Data.List.Basic
import Mathlib.Order.Basic
import Mathlib.Tactic.Common

/-!
# Cutting a list into chunks

The chunks of a size that a list is cut into: all of them have that size but the last, which has what
is left over.
-/

namespace Blip

variable {α : Type}

/-- The chunks of a list. -/
def chunks (size : ℕ) (items : List α) : List (List α) :=
  if _h : size = 0 ∨ items = [] then []
  else items.take size :: chunks size (items.drop size)
termination_by items.length
decreasing_by
  obtain ⟨hsize, hitems⟩ := not_or.1 _h
  have := List.length_pos_iff.2 hitems
  rw [List.length_drop]
  omega

@[simp] theorem chunks_nil (size : ℕ) : chunks size ([] : List α) = [] := by
  rw [chunks, dif_pos (.inr rfl)]

section

variable {size : ℕ} (hsize : 0 < size)
include hsize

theorem chunks_of_ne_nil {items : List α} (h : items ≠ []) :
    chunks size items = items.take size :: chunks size (items.drop size) := by
  rw [chunks, dif_neg (not_or.2 ⟨Nat.pos_iff_ne_zero.1 hsize, h⟩)]

/-- Induction on the chunks. -/
theorem chunks_induction {motive : List α → Prop} (nil : motive [])
    (cons : ∀ items, items ≠ [] → motive (items.drop size) → motive items) :
    ∀ items, motive items := by
  intro items
  induction hlength : items.length using Nat.strongRecOn generalizing items with
  | ind length ih =>
    by_cases h : items = []
    · exact h ▸ nil
    · have hpos := List.length_pos_iff.2 h
      refine cons items h (ih (items.drop size).length ?_ _ rfl)
      rw [List.length_drop]
      omega

theorem chunks_flatten (items : List α) : (chunks size items).flatten = items := by
  induction items using chunks_induction hsize with
  | nil => simp
  | cons items h ih => rw [chunks_of_ne_nil hsize h, List.flatten_cons, ih, List.take_append_drop]

theorem chunks_ne_nil {items : List α} (h : items ≠ []) : chunks size items ≠ [] := by
  rw [chunks_of_ne_nil hsize h]
  exact List.cons_ne_nil _ _

/-- All chunks but the last are full. -/
theorem length_of_mem_dropLast_chunks (items : List α) :
    ∀ chunk ∈ (chunks size items).dropLast, chunk.length = size := by
  induction items using chunks_induction hsize with
  | nil => simp
  | cons items h ih =>
    rw [chunks_of_ne_nil hsize h]
    by_cases hrest : items.drop size = []
    · simp [hrest]
    · rw [List.dropLast_cons_of_ne_nil (chunks_ne_nil hsize hrest), List.forall_mem_cons]
      refine ⟨?_, ih⟩
      have := List.length_pos_iff.2 hrest
      rw [List.length_drop] at this
      rw [List.length_take]
      omega

/-- As many chunks as it takes. -/
theorem length_chunks_le_iff (items : List α) (count : ℕ) :
    (chunks size items).length ≤ count ↔ items.length ≤ size * count := by
  induction items using chunks_induction hsize generalizing count with
  | nil => simp
  | cons items h ih =>
    have hpos := List.length_pos_iff.2 h
    rw [chunks_of_ne_nil hsize h, List.length_cons]
    cases count with
    | zero =>
      rw [Nat.mul_zero]
      omega
    | succ count =>
      rw [Nat.add_le_add_iff_right, ih count, List.length_drop, Nat.mul_succ]
      omega

end

end Blip
