import Mathlib.Data.List.Forall2
import Mathlib.Data.List.Induction
import Mathlib.Order.Lattice
import Mathlib.Algebra.Order.Group.Int

/-!
# Raising integers to a strictly increasing sequence

`raisedFrom last xs` is the least strictly increasing sequence after `last` that stays above `xs`.
An element keeps its value exactly when it is ahead of every earlier one by as much as there are
elements from that one on.
-/

namespace Blip

/-- The least integer after `last` that is at least `x`. -/
def raise (last : Option ℤ) (x : ℤ) : ℤ :=
  match last with
  | none => x
  | some l => max x (l + 1)

/-- Each integer raised past the one before it. -/
def raisedFrom (last : Option ℤ) : List ℤ → List ℤ
  | [] => []
  | x :: xs => raise last x :: raisedFrom (some (raise last x)) xs

/-- The last raised integer, where the next one continues. -/
def lastRaised (last : Option ℤ) (xs : List ℤ) : Option ℤ :=
  (raisedFrom last xs).getLast?.or last

section

variable {last : Option ℤ} {x y l : ℤ} {xs ys : List ℤ}

theorem le_raise : x ≤ raise last x := by
  cases last with
  | none => exact le_rfl
  | some l => exact le_max_left _ _

theorem lt_raise : l < raise (some l) x :=
  Int.lt_of_add_one_le (le_max_right _ _)

theorem raise_eq_self : raise (some l) x = x ↔ l < x := by
  rw [raise, max_eq_left_iff, Int.add_one_le_iff]

@[simp] theorem lastRaised_nil : lastRaised last [] = last := by
  simp [lastRaised, raisedFrom]

@[simp] theorem lastRaised_cons :
    lastRaised last (x :: xs) = lastRaised (some (raise last x)) xs := by
  simp only [lastRaised, raisedFrom]
  cases h : raisedFrom (some (raise last x)) xs with
  | nil => simp
  | cons y ys => simp [List.getLast?_cons]

theorem raisedFrom_append :
    raisedFrom last (xs ++ ys) = raisedFrom last xs ++ raisedFrom (lastRaised last xs) ys := by
  induction xs generalizing last with
  | nil => simp [raisedFrom]
  | cons x xs ih => simp [raisedFrom, ih]

theorem lastRaised_append : lastRaised last (xs ++ ys) = lastRaised (lastRaised last xs) ys := by
  induction xs generalizing last with
  | nil => simp
  | cons x xs ih => simp [ih]

theorem lt_of_mem_raisedFrom (h : y ∈ raisedFrom (some l) xs) : l < y := by
  induction xs generalizing l with
  | nil => simp [raisedFrom] at h
  | cons x xs ih =>
    rcases List.mem_cons.mp h with rfl | h
    · exact lt_raise
    · exact lt_raise.trans (ih h)

/-- The raised sequence is strictly increasing. -/
theorem raisedFrom_pairwise : (raisedFrom last xs).Pairwise (· < ·) := by
  induction xs generalizing last with
  | nil => exact .nil
  | cons x xs ih => exact .cons (fun y hy => lt_of_mem_raisedFrom hy) ih

theorem le_raisedFrom : List.Forall₂ (· ≤ ·) xs (raisedFrom last xs) := by
  induction xs generalizing last with
  | nil => exact .nil
  | cons x xs ih => exact .cons le_raise ih

/-- Nothing below the raised sequence is strictly increasing and above the given one. -/
theorem raisedFrom_le (hle : List.Forall₂ (· ≤ ·) xs ys) (hlt : ys.Pairwise (· < ·))
    (hlast : ∀ l ∈ last, ∀ y ∈ ys, l < y) : List.Forall₂ (· ≤ ·) (raisedFrom last xs) ys := by
  induction hle generalizing last with
  | nil => exact .nil
  | @cons x y xs ys hxy hle ih =>
    have hraise : raise last x ≤ y := by
      cases last with
      | none => exact hxy
      | some l => exact max_le hxy (Int.add_one_le_iff.mpr (hlast l rfl y List.mem_cons_self))
    have hpairs := List.pairwise_cons.mp hlt
    refine .cons hraise (ih hpairs.2 ?_)
    rintro _ ⟨⟩ z hz
    exact hraise.trans_lt (hpairs.1 z hz)

theorem le_of_mem_lastRaised {z : ℤ} (hz : z ∈ raisedFrom last xs) (hl : l ∈ lastRaised last xs) :
    z ≤ l := by
  rw [lastRaised] at hl
  cases h : (raisedFrom last xs).getLast? with
  | none =>
    rw [List.getLast?_eq_none_iff.mp h] at hz
    exact absurd hz List.not_mem_nil
  | some m =>
    rw [h] at hl
    obtain rfl : m = l := by simpa using hl
    obtain ⟨zs, hzs⟩ := List.getLast?_eq_some_iff.mp h
    have hpairs : (raisedFrom last xs).Pairwise (· < ·) := raisedFrom_pairwise
    rw [hzs] at hz hpairs
    rcases List.mem_append.mp hz with hz | hz
    · exact ((List.pairwise_append.mp hpairs).2.2 z hz m (by simp)).le
    · exact (List.mem_singleton.mp hz).le

/-- The next integer is ahead of the raised ones exactly when it is ahead of each by the number of
integers from that one on. -/
theorem lastRaised_lt : (∀ l ∈ lastRaised none xs, l < x) ↔
    ∀ before z after, xs = before ++ z :: after → z + (after.length + 1) ≤ x := by
  induction xs using List.reverseRecOn generalizing x with
  | nil => simp
  | append_singleton xs z ih =>
    have hlast : (∀ l ∈ lastRaised none (xs ++ [z]), l < x) ↔
        z + 1 ≤ x ∧ ∀ l ∈ lastRaised none xs, l < x - 1 := by
      rw [lastRaised_append, lastRaised_cons, lastRaised_nil]
      cases lastRaised none xs with
      | none =>
        simp only [raise, Option.mem_def, Option.some.injEq, forall_eq', reduceCtorEq, false_imp_iff,
          implies_true, and_true, Int.add_one_le_iff]
      | some l =>
        simp only [raise, Option.mem_def, Option.some.injEq, forall_eq']
        omega
    rw [hlast, ih]
    constructor
    · rintro ⟨hz, hxs⟩ before y after heq
      rcases List.eq_nil_or_concat after with rfl | ⟨after, w, rfl⟩
      · obtain ⟨-, rfl⟩ := List.append_inj' heq rfl |>.imp id List.singleton_inj.mp
        simpa using hz
      · rw [List.concat_eq_append, ← List.cons_append, ← List.append_assoc] at heq
        have := hxs before y after (List.append_inj' heq rfl).1
        rw [List.concat_eq_append, List.length_append, List.length_singleton]
        push_cast
        omega
    · intro h
      refine ⟨by simpa using h xs z [] rfl, fun before y after heq => ?_⟩
      have := h before y (after ++ [z]) (by rw [heq, List.append_assoc, List.cons_append])
      rw [List.length_append, List.length_singleton] at this
      push_cast at this
      omega

end

end Blip
