import Blip.Common.Program

/-!
# What a program returns

Partial correctness of a program whose calls are answered within a relation: `Prog.Returns` follows
the program's shape, and `Fallible.Yields` asks something of the results only, not of the failures.
-/

namespace Blip

variable {C : Type} {R : C → Type} {ε ε' α β : Type} {answers : (c : C) → R c → Prop}

/-- Whatever the calls answer, the program returns with `Q`. -/
def Prog.Returns (answers : (c : C) → R c → Prop) (Q : α → Prop) : Prog C R α → Prop
  | .done a => Q a
  | .call c next => ∀ r, answers c r → (next r).Returns answers Q

theorem Prog.Returns.bind {p : Prog C R α} {f : α → Prog C R β} {P : α → Prop} {Q : β → Prop}
    (h : p.Returns answers P) (hf : ∀ a, P a → (f a).Returns answers Q) :
    (p >>= f).Returns answers Q := by
  induction p with
  | done a => exact hf a h
  | call c next ih => exact fun r hr => ih r (h r hr)

namespace Fallible

/-- Whatever the calls answer, the program fails or its result has the property. -/
def Yields (answers : (c : C) → R c → Prop) (p : Fallible C R ε α) (Q : α → Prop) : Prop :=
  p.run.Returns answers fun
    | .ok a => Q a
    | .error _ => True

theorem Yields.pure {a : α} {Q : α → Prop} (h : Q a) :
    Yields answers (Pure.pure a : Fallible C R ε α) Q := h

theorem Yields.throw (e : ε) {Q : α → Prop} :
    Yields answers (MonadExcept.throw e : Fallible C R ε α) Q := trivial

theorem Yields.ite {c : Prop} [Decidable c] {p q : Fallible C R ε α} {Q : α → Prop}
    (hp : c → Yields answers p Q) (hq : ¬ c → Yields answers q Q) :
    Yields answers (if c then p else q) Q := by
  split
  · exact hp ‹_›
  · exact hq ‹_›

theorem Yields.bind {p : Fallible C R ε α} {f : α → Fallible C R ε β} {P : α → Prop} {Q : β → Prop}
    (h : Yields answers p P) (hf : ∀ a, P a → Yields answers (f a) Q) :
    Yields answers (p >>= f) Q := by
  refine Prog.Returns.bind h ?_
  rintro (e | a) ha
  · trivial
  · exact hf a ha

theorem Yields.mapError {p : Fallible C R ε α} {f : ε → ε'} {Q : α → Prop}
    (h : Yields answers p Q) : Yields answers (p.mapError f) Q := by
  refine Prog.Returns.bind h ?_
  rintro (e | a) ha
  · trivial
  · exact ha

theorem Yields.mono {p : Fallible C R ε α} {P Q : α → Prop} (h : Yields answers p P)
    (hPQ : ∀ a, P a → Q a) : Yields answers p Q := by
  have hbind : Yields answers (p >>= Pure.pure) Q := h.bind fun a ha => hPQ a ha
  rwa [bind_pure] at hbind

/-- A program for each item, each with its own result. -/
theorem Yields.mapM {ι : Type} {f : ι → Fallible C R ε α} {g : ι → α} (items : List ι)
    (h : ∀ item ∈ items, Yields answers (f item) (· = g item)) :
    Yields answers (items.mapM f) (· = items.map g) := by
  induction items with
  | nil => exact Yields.pure rfl
  | cons item items ih =>
    obtain ⟨hitem, hitems⟩ := List.forall_mem_cons.1 h
    rw [List.mapM_cons]
    refine hitem.bind fun a ha => (ih hitems).bind fun as has => Yields.pure ?_
    rw [ha, has, List.map_cons]

/-- Nothing is asked of the result. -/
theorem Yields.trivial (p : Fallible C R ε α) : Yields answers p fun _ => True := by
  rw [Yields]
  induction p.run with
  | done a => cases a <;> exact True.intro
  | call c next ih => exact fun r _ => ih r

end Fallible

end Blip
