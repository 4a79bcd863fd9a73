import Mathlib.Logic.Basic

/-!
# Computations that change a state and may fail

A computation in `ExceptT ε (StateM σ)` keeps what it did to the state until it failed. `Holds m s Q`
is the weakest precondition of the postcondition `Q`, over the result and the state left behind; one
rule for each way a computation is built turns it into conditions on the state it starts in.
-/

namespace Blip

/-- A computation that changes a state and may fail half-way. -/
abbrev Stateful (ε σ α : Type) : Type := ExceptT ε (StateM σ) α

namespace Stateful

variable {ε σ α β : Type}

/-- The result of a computation started in `s`, and the state it leaves. -/
def outcome (m : Stateful ε σ α) (s : σ) : Except ε α × σ := m.run.run s

/-- Started in `s`, the computation ends in a result and a state that satisfy `Q`. -/
def Holds (m : Stateful ε σ α) (s : σ) (Q : Except ε α → σ → Prop) : Prop :=
  Q (m.outcome s).1 (m.outcome s).2

variable {s : σ} {Q Q' : Except ε α → σ → Prop}

theorem Holds.mono {m : Stateful ε σ α} (h : Holds m s Q) (hQ : ∀ r s', Q r s' → Q' r s') :
    Holds m s Q' :=
  hQ _ _ h

@[simp] theorem holds_pure {a : α} : Holds (pure a : Stateful ε σ α) s Q ↔ Q (.ok a) s := Iff.rfl

@[simp] theorem holds_throw {e : ε} : Holds (throw e : Stateful ε σ α) s Q ↔ Q (.error e) s := Iff.rfl

/-- The rule for a step followed by the rest: a failed step is the end. -/
theorem holds_bind {m : Stateful ε σ β} {f : β → Stateful ε σ α} :
    Holds (m >>= f) s Q ↔ Holds m s fun
      | .ok b, s' => Holds (f b) s' Q
      | .error e, s' => Q (.error e) s' := by
  have houtcome : (m >>= f).outcome s = match m.outcome s with
      | (.ok b, s') => (f b).outcome s'
      | (.error e, s') => (.error e, s') := by
    simp only [outcome, ExceptT.run_bind, StateT.run_bind]
    cases h : StateT.run (ExceptT.run m) s with
    | mk r s' => cases r <;> rfl
  simp only [Holds, houtcome]
  rcases m.outcome s with ⟨r | e, s'⟩ <;> rfl

/-- The rule for a step whose specification is known. -/
theorem Holds.bind {m : Stateful ε σ β} {f : β → Stateful ε σ α} {R : Except ε β → σ → Prop}
    (h : Holds m s R) (hok : ∀ b s', R (.ok b) s' → Holds (f b) s' Q)
    (herror : ∀ e s', R (.error e) s' → Q (.error e) s') : Holds (m >>= f) s Q := by
  refine holds_bind.mpr (h.mono fun r s' hr => ?_)
  cases r with
  | error e => exact herror e s' hr
  | ok b => exact hok b s' hr

/-- The rule for a step of which nothing needs to be known. -/
theorem holds_bind_of_forall {m : Stateful ε σ β} {f : β → Stateful ε σ α}
    (hok : ∀ b s', Holds (f b) s' Q) (herror : ∀ e s', Q (.error e) s') : Holds (m >>= f) s Q :=
  (show Holds m s fun _ _ => True from trivial).bind (fun b s' _ => hok b s') fun e s' _ =>
    herror e s'

theorem holds_map {m : Stateful ε σ β} {f : β → α} :
    Holds (f <$> m) s Q ↔ Holds m s fun r s' => Q (r.map f) s' := by
  rw [← bind_pure_comp, holds_bind]
  simp only [Holds]
  rcases m.outcome s with ⟨r | e, s'⟩ <;> rfl

@[simp] theorem holds_get_bind {f : σ → Stateful ε σ α} :
    Holds (get >>= f) s Q ↔ Holds (f s) s Q := Iff.rfl

@[simp] theorem holds_modify_bind {g : σ → σ} {f : Unit → Stateful ε σ α} :
    Holds (modify g >>= f) s Q ↔ Holds (f ()) (g s) Q := Iff.rfl

@[simp] theorem holds_map_modify {g : σ → σ} {f : Unit → α} :
    Holds (f <$> modify g : Stateful ε σ α) s Q ↔ Q (.ok (f ())) (g s) := Iff.rfl

/-- The rule for a step whose result is known before it runs. -/
@[simp] theorem holds_lift_bind {x : Except ε β} {f : β → Stateful ε σ α} :
    Holds (liftM x >>= f) s Q ↔
      (∀ b, x = .ok b → Holds (f b) s Q) ∧ ∀ e, x = .error e → Q (.error e) s := by
  cases x with
  | error e => exact ⟨fun h => ⟨nofun, fun _ he => Except.error.inj he ▸ h⟩, fun h => h.2 e rfl⟩
  | ok b => exact ⟨fun h => ⟨fun _ hb => Except.ok.inj hb ▸ h, nofun⟩, fun h => h.1 b rfl⟩

theorem holds_ite {c : Prop} [Decidable c] {m n : Stateful ε σ α} :
    Holds (if c then m else n) s Q ↔ if c then m.Holds s Q else n.Holds s Q := by
  split <;> rfl

end Stateful

end Blip
