import Mathlib.Data.List.Basic
import Mathlib.Data.List.Forall2
import Mathlib.Tactic.Ring

/-!
# Loops that push

A loop goes through a list, pushes some items for each element and stops at the first element it
cannot use. `foldlM_push` says what it leaves; where its body is such a loop itself, the rule is used
once for each level. The items of a nested loop are found by their row and column.
-/

namespace Blip

variable {α β : Type}

section

variable {m : Type → Type} [Monad m] [LawfulMonad m] {stop : m (List β)}

/-- A loop whose step pushes the items of an element, or stops where the element is not good. -/
theorem foldlM_push (hstop : ∀ next : List β → m (List β), stop >>= next = stop)
    {step : List β → α → m (List β)} {good : α → Prop} [DecidablePred good] {items : α → List β}
    {xs : List α}
    (hstep : ∀ pushed, ∀ x ∈ xs,
      step pushed x = if good x then pure (pushed ++ items x) else stop)
    (pushed : List β) :
    xs.foldlM step pushed =
      if ∀ x ∈ xs, good x then pure (pushed ++ xs.flatMap items) else stop := by
  induction xs generalizing pushed with
  | nil => simp
  | cons x xs ih =>
    rw [List.foldlM_cons, hstep pushed x List.mem_cons_self]
    by_cases hgood : good x
    · have hrest := ih (fun pushed y hy => hstep pushed y (List.mem_cons_of_mem _ hy))
        (pushed ++ items x)
      rw [if_pos hgood, pure_bind, hrest]
      simp only [List.forall_mem_cons, hgood, true_and, List.flatMap_cons, List.append_assoc]
    · rw [if_neg hgood, hstop, if_neg fun h => hgood (h x List.mem_cons_self)]

end

theorem bind_eq_ok {ε γ : Type} {call : Except ε α} {next : α → Except ε γ} {value : γ} :
    (call >>= next) = .ok value ↔ ∃ first, call = .ok first ∧ next first = .ok value := by
  cases call with
  | error error => exact ⟨nofun, fun ⟨_, h, _⟩ => nomatch h⟩
  | ok first => exact ⟨fun h => ⟨first, rfl, h⟩, fun ⟨_, h, hnext⟩ => Except.ok.inj h ▸ hnext⟩

theorem mapError_eq_ok {ε ε' : Type} {text : ε → ε'} {call : Except ε α} {value : α} :
    call.mapError text = .ok value ↔ call = .ok value := by
  cases call with
  | error error => exact ⟨nofun, nofun⟩
  | ok first => exact Iff.of_eq (by simp [Except.mapError])

/-- A loop that pushes one result for each element, or stops at the first error. -/
theorem mapM_eq_ok {ε : Type} {f : α → Except ε β} {xs : List α} {ys : List β} :
    xs.mapM f = .ok ys ↔ List.Forall₂ (fun x y => f x = .ok y) xs ys := by
  induction xs generalizing ys with
  | nil => simp [pure, Except.pure, eq_comm]
  | cons x xs ih =>
    rw [List.mapM_cons, List.forall₂_cons_left_iff]
    cases hx : f x with
    | error error => simp [bind, Except.bind]
    | ok y =>
      cases hxs : xs.mapM f with
      | error error =>
        have hnone : ∀ ys, ¬ List.Forall₂ (fun x y => f x = .ok y) xs ys := fun ys h => by
          rw [← ih, hxs] at h
          cases h
        simp [bind, Except.bind, hnone]
      | ok rest =>
        have hrest : ∀ ys, List.Forall₂ (fun x y => f x = .ok y) xs ys ↔ ys = rest := fun ys => by
          rw [← ih, hxs, Except.ok.injEq, eq_comm]
        simp [bind, Except.bind, pure, Except.pure, hrest, eq_comm]

theorem mapM_total {ε : Type} {f : α → Except ε β} {xs : List α} (h : ∀ x ∈ xs, ∃ y, f x = .ok y) :
    ∃ ys, xs.mapM f = .ok ys := by
  induction xs with
  | nil => exact ⟨[], rfl⟩
  | cons x xs ih =>
    obtain ⟨y, hy⟩ := h x List.mem_cons_self
    obtain ⟨ys, hys⟩ := ih fun x hx => h x (List.mem_cons_of_mem _ hx)
    exact ⟨y :: ys, by rw [List.mapM_cons, hy, hys]; rfl⟩

/-- Two loops that push for the same elements push what is related. -/
theorem forall₂_filterMap {γ : Type} {R : β → γ → Prop} {f : α → Option β} {g : α → Option γ}
    {xs : List α}
    (h : ∀ x ∈ xs, f x = none ∧ g x = none ∨ ∃ y z, f x = some y ∧ g x = some z ∧ R y z) :
    List.Forall₂ R (xs.filterMap f) (xs.filterMap g) := by
  induction xs with
  | nil => exact .nil
  | cons x xs ih =>
    have hrest := ih fun x hx => h x (List.mem_cons_of_mem _ hx)
    rcases h x List.mem_cons_self with ⟨hf, hg⟩ | ⟨y, z, hf, hg, hR⟩
    · rwa [List.filterMap_cons_none hf, List.filterMap_cons_none hg]
    · rw [List.filterMap_cons_some hf, List.filterMap_cons_some hg]
      exact .cons hR hrest

variable {row : ℕ → List β} {width : ℕ}

theorem length_flatMap_range (hwidth : ∀ index, (row index).length = width) (rows : ℕ) :
    ((List.range rows).flatMap row).length = rows * width := by
  induction rows with
  | zero => simp
  | succ rows ih =>
    rw [List.range_succ, List.flatMap_append, List.length_append, ih, List.flatMap_singleton,
      hwidth, Nat.succ_mul]

/-- The item in a row and a column of rows of one width. -/
theorem getElem?_flatMap_range (hwidth : ∀ index, (row index).length = width) {rows index column : ℕ}
    (hindex : index < rows) (hcolumn : column < width) :
    ((List.range rows).flatMap row)[index * width + column]? = (row index)[column]? := by
  induction rows with
  | zero => omega
  | succ rows ih =>
    rw [List.range_succ, List.flatMap_append, List.flatMap_singleton]
    have hlength := length_flatMap_range hwidth rows
    rcases Nat.lt_succ_iff_lt_or_eq.1 hindex with hlt | rfl
    · -- the item is before the last row
      have hbefore : index * width + column < rows * width := by
        have := Nat.mul_le_mul_right width (Nat.succ_le_of_lt hlt)
        rw [Nat.succ_mul] at this
        omega
      rw [List.getElem?_append_left (by omega), ih hlt]
    · rw [List.getElem?_append_right (by omega), hlength, Nat.add_sub_cancel_left]

end Blip
