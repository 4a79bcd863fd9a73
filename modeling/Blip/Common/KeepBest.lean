import Mathlib.Data.List.Basic

/-!
# Keeping the best

A scan keeps one of the items it has seen: the first, and then each item that replaces the one kept. What
replaces what need not be an order. An item that would be kept can be refused, which ends the scan.
-/

namespace Blip

variable {α : Type*} {replaces : α → α → Bool} {accepts : α → Bool} {kept : Option α} {items : List α}
  {P : α → Prop} {best : α}

/-- The scan at an item; `none` when the item is refused. -/
def keepStep (replaces : α → α → Bool) (accepts : α → Bool) (kept : Option α) (item : α) :
    Option (Option α) :=
  if kept.all (replaces item) then
    if accepts item then some (some item) else none
  else some kept

def keepBest (replaces : α → α → Bool) (accepts : α → Bool) (kept : Option α) (items : List α) :
    Option (Option α) :=
  items.foldlM (keepStep replaces accepts) kept

@[simp] theorem keepBest_nil : keepBest replaces accepts kept [] = some kept := rfl

theorem keepBest_cons (item : α) : keepBest replaces accepts kept (item :: items) =
    (keepStep replaces accepts kept item).bind fun kept => keepBest replaces accepts kept items := rfl

theorem keepBest_append (items' : List α) : keepBest replaces accepts kept (items ++ items') =
    (keepBest replaces accepts kept items).bind fun kept => keepBest replaces accepts kept items' :=
  List.foldlM_append

/-- The first item is refused if it is not accepted. -/
theorem keepBest_of_refused {item : α} (h : accepts item = false) :
    keepBest replaces accepts none (item :: items) = none := by
  rw [keepBest_cons, keepStep, Option.all_none, if_pos rfl, h]
  rfl

theorem keepStep_of_accepts {item : α} (h : accepts item) :
    keepStep replaces accepts kept item = some
      (if kept.all (replaces item) then some item else kept) := by
  rw [keepStep, if_pos h]
  split <;> rfl

/-- A scan that refuses nothing keeps an item, from the items or from before. -/
theorem keepBest_of_accepts (replaces : α → α → Bool) (kept : Option α)
    (h : ∀ item ∈ items, accepts item) :
    ∃ kept', keepBest replaces accepts kept items = some kept' ∧
      ∀ best ∈ kept', best ∈ kept ∨ best ∈ items := by
  induction items generalizing kept with
  | nil => exact ⟨kept, rfl, fun _ hbest => .inl hbest⟩
  | cons item items ih =>
    rw [keepBest_cons, keepStep_of_accepts (h item (List.mem_cons_self ..))]
    obtain ⟨kept', hkept, hmem⟩ := ih (if kept.all (replaces item) then some item else kept)
      fun item hitem => h item (List.mem_cons_of_mem _ hitem)
    refine ⟨kept', hkept, fun best hbest => ?_⟩
    rcases hmem best hbest with hstart | htail
    · split at hstart
      · exact .inr (Option.some.inj hstart ▸ List.mem_cons_self ..)
      · exact .inl hstart
    · exact .inr (List.mem_cons_of_mem _ htail)

/-- What is kept has a property that is not lost, once it has it. -/
theorem keepBest_stays (haccepts : ∀ item ∈ items, accepts item)
    (hstays : ∀ item ∈ items, ∀ other, P other → replaces item other → P item) {first : α}
    (hfirst : P first) :
    ∃ best, keepBest replaces accepts (some first) items = some (some best) ∧ P best := by
  induction items generalizing first with
  | nil => exact ⟨first, rfl, hfirst⟩
  | cons item items ih =>
    have htail := @ih (fun item hitem => haccepts item (List.mem_cons_of_mem _ hitem))
      fun item hitem => hstays item (List.mem_cons_of_mem _ hitem)
    rw [keepBest_cons, keepStep_of_accepts (haccepts item (List.mem_cons_self ..)), Option.all_some]
    split
    · exact htail (hstays item (List.mem_cons_self ..) first hfirst ‹_›)
    · exact htail hfirst

/-- It gets the property from an item that has it and replaces whatever has not. -/
theorem keepBest_reaches (haccepts : ∀ item ∈ items, accepts item)
    (hstays : ∀ item ∈ items, ∀ other, P other → replaces item other → P item)
    (hmem : best ∈ items) (hbest : P best)
    (hreplaces : ∀ other, other ∈ kept ∨ other ∈ items → ¬ P other → replaces best other) :
    ∃ result, keepBest replaces accepts kept items = some (some result) ∧ P result := by
  induction items generalizing kept with
  | nil => cases hmem
  | cons item items ih =>
    have haccepts' := fun item hitem => haccepts item (List.mem_cons_of_mem _ hitem)
    have hstays' := fun item hitem => hstays item (List.mem_cons_of_mem _ hitem)
    rw [keepBest_cons, keepStep_of_accepts (haccepts item (List.mem_cons_self ..)), Option.bind_some]
    rcases List.mem_cons.mp hmem with rfl | htail
    · -- now it is kept, or what was kept has the property already
      cases kept with
      | none => exact keepBest_stays haccepts' hstays' hbest
      | some first =>
        rw [Option.all_some]
        split
        · exact keepBest_stays haccepts' hstays' hbest
        · rename_i hkeeps
          have hfirst : P first := by
            by_contra hnot
            exact hkeeps (hreplaces first (.inl rfl) hnot)
          exact keepBest_stays haccepts' hstays' hfirst
    · refine ih haccepts' hstays' htail fun other hother => hreplaces other ?_
      rcases hother with hkept | hitems
      · split at hkept
        · exact .inr (Option.some.inj hkept ▸ List.mem_cons_self ..)
        · exact .inl hkept
      · exact .inr (List.mem_cons_of_mem _ hitems)

end Blip
