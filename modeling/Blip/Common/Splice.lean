import Mathlib.Data.List.Basic

/-!
# Editing a list at the first match

`List.findIdx?` gives a position; proofs about an edit at that position want the list cut into the
part before the match, the match, and the part after it. `exists_split_of_findIdx?` makes the cut,
and the `_middle` lemmas compute every positional operation on a list written that way.
-/

namespace Blip.Splice

variable {α β : Type*}

/-- The cut at the first match: nothing before it matches. -/
theorem exists_split_of_findIdx? {p : α → Bool} {l : List α} {i : ℕ} (h : l.findIdx? p = some i) :
    ∃ pre x post, l = pre ++ x :: post ∧ pre.length = i ∧ p x = true ∧ ∀ y ∈ pre, p y = false := by
  rw [List.findIdx?_eq_some_iff_getElem] at h
  obtain ⟨hi, hp, hmin⟩ := h
  refine ⟨l.take i, l[i], l.drop (i + 1), by simp, by simp; omega, hp, ?_⟩
  intro y hy
  obtain ⟨j, hj, rfl⟩ := List.mem_iff_getElem.mp hy
  rw [List.length_take] at hj
  rw [List.getElem_take]
  exact eq_false_of_ne_true (hmin j (by omega))

@[simp] theorem getElem?_middle (pre post : List α) (x : α) :
    (pre ++ x :: post)[pre.length]? = some x := by
  simp

@[simp] theorem take_middle (pre post : List α) (x : α) :
    (pre ++ x :: post).take pre.length = pre := by
  simp

@[simp] theorem set_middle (pre post : List α) (x y : α) :
    (pre ++ x :: post).set pre.length y = pre ++ y :: post := by
  simp

@[simp] theorem eraseIdx_middle (pre post : List α) (x : α) :
    (pre ++ x :: post).eraseIdx pre.length = pre ++ post := by
  rw [List.eraseIdx_append_of_length_le (Nat.le_refl pre.length)]
  simp

@[simp] theorem insertIdx_after_middle (pre post : List α) (x y : α) :
    (pre ++ x :: post).insertIdx (pre.length + 1) y = pre ++ x :: y :: post := by
  induction pre with
  | nil => simp
  | cons a pre ih => simpa using ih

/-- Replacing an element by one with the same key keeps every key. -/
theorem exists_key_middle {key : α → β} {pre post : List α} {x y : α} (h : key y = key x) :
    ∀ z ∈ pre ++ x :: post, ∃ z' ∈ pre ++ y :: post, key z' = key z := by
  intro z hz
  rcases List.mem_append.mp hz with hz | hz
  · exact ⟨z, List.mem_append_left _ hz, rfl⟩
  rcases List.mem_cons.mp hz with rfl | hz
  · exact ⟨y, List.mem_append_right _ List.mem_cons_self, h⟩
  · exact ⟨z, List.mem_append_right _ (List.mem_cons_of_mem _ hz), rfl⟩

/-- A list is cut at its first match in one way only. -/
theorem first_match_unique {p : α → Prop} {pre pre' post post' : List α} {x x' : α}
    (h : pre ++ x :: post = pre' ++ x' :: post') (hx : p x) (hx' : p x')
    (hpre : ∀ y ∈ pre, ¬ p y) (hpre' : ∀ y ∈ pre', ¬ p y) :
    pre = pre' ∧ x = x' ∧ post = post' := by
  induction pre generalizing pre' with
  | nil =>
    cases pre' with
    | nil => simpa using h
    | cons y pre' =>
      obtain ⟨rfl, -⟩ := List.cons.inj h
      exact absurd hx (hpre' x (by simp))
  | cons y pre ih =>
    cases pre' with
    | nil =>
      obtain ⟨rfl, -⟩ := List.cons.inj h
      exact absurd hx' (hpre y (by simp))
    | cons z pre' =>
      obtain ⟨rfl, hrest⟩ := List.cons.inj h
      obtain ⟨rfl, rfl, rfl⟩ := ih hrest (fun w hw => hpre w (by simp [hw]))
        (fun w hw => hpre' w (by simp [hw]))
      exact ⟨rfl, rfl, rfl⟩

end Blip.Splice
