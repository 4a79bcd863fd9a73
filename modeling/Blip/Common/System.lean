import Mathlib.Init

/-!
# Runs of a labelled transition system

A `System` has initial states and labelled steps. The steps are a relation, so a label can stand for
a call whose outcome the environment chooses. `Run` performs a list of labels in order, and every
state along a run is the end of a shorter run, so a fact about run ends is a fact about every state
reached.

An invariant is proved once from its step lemma (`Run.invariant`). A result that needs something of
each step uses `restrict`, which keeps only the steps whose source state and label meet a condition.
-/

namespace Blip

/-- A labelled transition system: its initial states and its labelled steps. -/
structure System (S L : Type*) where
  init : S → Prop
  step : S → L → S → Prop

namespace System

variable {S L : Type*} {sys : System S L}

/-- `sys.Run s ls s'`: the steps labelled `ls`, in order, lead from `s` to `s'`. -/
inductive Run (sys : System S L) : S → List L → S → Prop
  | nil (s : S) : Run sys s [] s
  | cons {s s' s'' : S} {l : L} {ls : List L} :
      sys.step s l s' → Run sys s' ls s'' → Run sys s (l :: ls) s''

/-- The end of some run from an initial state. -/
def Reachable (sys : System S L) (s : S) : Prop :=
  ∃ s₀ ls, sys.init s₀ ∧ sys.Run s₀ ls s

/-- The system with only the steps whose source state and label meet `ok`. -/
def restrict (sys : System S L) (ok : S → L → Prop) : System S L where
  init := sys.init
  step s l s' := ok s l ∧ sys.step s l s'

/-- A property that every step preserves holds at the end of a run that starts with it. -/
theorem Run.invariant {P : S → Prop} (hstep : ∀ s l s', P s → sys.step s l s' → P s')
    {s s' : S} {ls : List L} (hrun : sys.Run s ls s') (hs : P s) : P s' := by
  induction hrun with
  | nil => exact hs
  | cons hl _ ih => exact ih (hstep _ _ _ hs hl)

/-- A property of the initial states that every step preserves holds in every reachable state. -/
theorem Reachable.invariant {P : S → Prop} (hinit : ∀ s, sys.init s → P s)
    (hstep : ∀ s l s', P s → sys.step s l s' → P s') {s : S} (h : sys.Reachable s) : P s := by
  obtain ⟨s₀, ls, h₀, hrun⟩ := h
  exact hrun.invariant hstep (hinit s₀ h₀)

/-- Runs compose. -/
theorem Run.append {s s' s'' : S} {ls ls' : List L} (h : sys.Run s ls s')
    (h' : sys.Run s' ls' s'') : sys.Run s (ls ++ ls') s'' := by
  induction h with
  | nil => exact h'
  | cons hl _ ih => exact .cons hl (ih h')

/-- A run of two lists of labels passes through a state between them. -/
theorem run_append {s s'' : S} {ls ls' : List L} :
    sys.Run s (ls ++ ls') s'' ↔ ∃ s', sys.Run s ls s' ∧ sys.Run s' ls' s'' := by
  refine ⟨fun h => ?_, fun ⟨_, h, h'⟩ => h.append h'⟩
  induction ls generalizing s with
  | nil => exact ⟨s, .nil s, h⟩
  | cons l ls ih =>
    cases h with
    | cons hl h =>
      obtain ⟨s', hrun, hrun'⟩ := ih h
      exact ⟨s', .cons hl hrun, hrun'⟩

/-- What holds of the labels so far and the state they lead to, when every step extends it. -/
theorem Run.history {P : List L → S → Prop}
    (hstep : ∀ past s l s', P past s → sys.step s l s' → P (past ++ [l]) s')
    {s s' : S} {ls : List L} (hrun : sys.Run s ls s') (hs : P [] s) : P ls s' := by
  have h : ∀ past, P past s → P (past ++ ls) s' := by
    clear hs
    induction hrun with
    | nil => intro past hs; rwa [List.append_nil]
    | cons hl _ ih =>
      intro past hs
      rw [List.append_cons]
      exact ih _ (hstep _ _ _ _ hs hl)
  exact h [] hs

/-- Steps that a function answers, performed in order. -/
theorem run_foldlM {init : S → Prop} {step : S → L → Option S} {s s' : S} {ls : List L}
    (h : ls.foldlM step s = some s') :
    Run { init, step := fun s l s' => step s l = some s' } s ls s' := by
  induction ls generalizing s with
  | nil =>
    obtain rfl := Option.some.inj h
    exact .nil s
  | cons l ls ih =>
    obtain ⟨next, hnext, hrest⟩ := Option.bind_eq_some_iff.1 h
    exact .cons hnext (ih hrest)

/-- One step is a run. -/
theorem Run.single {s s' : S} {l : L} (h : sys.step s l s') : sys.Run s [l] s' :=
  .cons h (.nil s')

/-- A step from a reachable state reaches its target. -/
theorem Reachable.step {s s' : S} {l : L} (h : sys.Reachable s) (hl : sys.step s l s') :
    sys.Reachable s' := by
  obtain ⟨s₀, ls, h₀, hrun⟩ := h
  exact ⟨s₀, ls ++ [l], h₀, hrun.append (.single hl)⟩

/-- A run from a reachable state reaches its end. -/
theorem Reachable.run {s s' : S} {ls : List L} (h : sys.Reachable s) (hrun : sys.Run s ls s') :
    sys.Reachable s' := by
  obtain ⟨s₀, ls₀, h₀, hrun₀⟩ := h
  exact ⟨s₀, ls₀ ++ ls, h₀, hrun₀.append hrun⟩

/-- A run of the restricted system is a run of the whole one. -/
theorem Run.of_restrict {ok : S → L → Prop} {s s' : S} {ls : List L}
    (h : (sys.restrict ok).Run s ls s') : sys.Run s ls s' := by
  induction h with
  | nil s => exact .nil s
  | cons hl _ ih => exact .cons hl.2 ih

theorem Reachable.of_restrict {ok : S → L → Prop} {s : S} (h : (sys.restrict ok).Reachable s) :
    sys.Reachable s := by
  obtain ⟨s₀, ls, h₀, hrun⟩ := h
  exact ⟨s₀, ls, h₀, hrun.of_restrict⟩

end System

end Blip
