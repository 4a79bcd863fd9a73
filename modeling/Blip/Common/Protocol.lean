import Blip.Common.Program
import Mathlib.Logic.Function.Basic

/-!
# Programs that follow a protocol

A protocol says which calls a request may make in each phase of its work, and what phase an answer
leads to. `Follows` checks a program against it, along the program's own shape. In a pool every thread
then has a phase, and an invariant over the state and all the phases together (`pool_follows`) can say
what a thread alone knows or owns, which a fact about the state cannot.
-/

namespace Blip

/-- The calls that are allowed in each phase, and the phase after each answer. -/
structure Protocol (C : Type) (R : C → Type) (G : Type) where
  allowed : G → C → Prop
  after : G → (c : C) → R c → G

variable {C : Type} {R : C → Type} {G S T α β ε ε' : Type}

/-- From phase `g`, with its calls answered within `answers`, the program makes allowed calls only and
returns with `Q`. -/
def Prog.Follows (answers : (c : C) → R c → Prop) (protocol : Protocol C R G) :
    G → Prog C R α → (α → G → Prop) → Prop
  | g, .done a, Q => Q a g
  | g, .call c next, Q => protocol.allowed g c ∧
      ∀ r, answers c r → Follows answers protocol (protocol.after g c r) (next r) Q

section

variable {answers : (c : C) → R c → Prop} {protocol : Protocol C R G}

/-- One call, with what each answer leads to. -/
theorem Prog.Follows.ask {g : G} {c : C} {Q : R c → G → Prop} (hallowed : protocol.allowed g c)
    (h : ∀ r, answers c r → Q r (protocol.after g c r)) :
    (Prog.ask c : Prog C R (R c)).Follows answers protocol g Q := ⟨hallowed, h⟩

theorem Prog.Follows.bind {g : G} {p : Prog C R α} {f : α → Prog C R β} {M : α → G → Prop}
    {Q : β → G → Prop} (h : p.Follows answers protocol g M)
    (hf : ∀ a g', M a g' → (f a).Follows answers protocol g' Q) :
    (p >>= f).Follows answers protocol g Q := by
  induction p generalizing g with
  | done a => exact hf a g h
  | call c next ih => exact ⟨h.1, fun r hr => ih r (h.2 r hr)⟩

theorem Prog.Follows.weaken {g : G} {p : Prog C R α} {Q Q' : α → G → Prop}
    (h : p.Follows answers protocol g Q) (hQ : ∀ a g', Q a g' → Q' a g') :
    p.Follows answers protocol g Q' := by
  have hbind := h.bind (f := Prog.done) hQ
  rwa [Prog.bind_done] at hbind

/-- A program whose calls are allowed in a phase they never leave. -/
theorem Prog.Follows.of_avoids {bad : C → Prop} {g : G} {p : Prog C R α} (h : p.Avoids bad)
    (hallowed : ∀ c, ¬ bad c → protocol.allowed g c)
    (hafter : ∀ c r, ¬ bad c → protocol.after g c r = g) :
    p.Follows answers protocol g fun _ g' => g' = g := by
  induction p with
  | done a => exact rfl
  | call c next ih =>
    refine ⟨hallowed c h.1, fun r _ => ?_⟩
    rw [hafter c r h.1]
    exact ih r (h.2 r)

/-! ## In a pool -/

variable {exec : S → (c : C) → R c → S → Prop} {body : T → Prog C R α} {init : S → Prop}

/-- Every thread follows its request's protocol from its phase on, with `J` of the state and the
phases; threads still to arrive are in the first phase. -/
structure Phased (answers : (c : C) → R c → Prop) (protocolOf : T → Protocol C R G) (start : G)
    (J : S → (ℕ → G) → Prop) (config : S × List (Thread T C R α)) (phases : ℕ → G) : Prop where
  state : J config.1 phases
  later : ∀ i, config.2.length ≤ i → phases i = start
  threads : ∀ i (thread : Thread T C R α), config.2[i]? = some thread →
    thread.prog.Follows answers (protocolOf thread.request) (phases i) fun _ _ => True

/-- What programs following a protocol keep, together with the phase of each. -/
theorem pool_follows {start : G} {protocolOf : T → Protocol C R G} {J : S → (ℕ → G) → Prop}
    (hbody : ∀ request, (body request).Follows answers (protocolOf request) start fun _ _ => True)
    (hinit : ∀ s, init s → J s fun _ => start)
    (hanswers : ∀ s phases c r s', J s phases → exec s c r s' → answers c r)
    (hstep : ∀ s phases i request c r s', J s phases →
      (protocolOf request).allowed (phases i) c → exec s c r s' →
      J s' (Function.update phases i ((protocolOf request).after (phases i) c r)))
    {config : S × List (Thread T C R α)} (h : (pool exec body init).Reachable config) :
    ∃ phases, Phased answers protocolOf start J config phases := by
  refine System.Reachable.invariant
    (P := fun config => ∃ phases, Phased answers protocolOf start J config phases) ?_ ?_ h
  · rintro ⟨s, threads⟩ ⟨hs, hthreads⟩
    obtain rfl : threads = [] := hthreads
    exact ⟨fun _ => start, hinit s hs, fun _ _ => rfl, fun _ _ hget => absurd hget nofun⟩
  · rintro ⟨s, threads⟩ label ⟨s', threads'⟩ ⟨phases, hJ, hlater, hthreads⟩ hlabel
    cases label with
    | arrive request =>
      have hlabel : s' = s ∧ threads' = threads ++ [Thread.mk request (body request)] := hlabel
      obtain ⟨rfl, rfl⟩ := hlabel
      refine ⟨phases, hJ, fun i hi => ?_, fun i thread hget => ?_⟩
      · rw [List.length_append] at hi
        exact hlater i (Nat.le_trans (Nat.le_add_right _ _) hi)
      by_cases hi : i < threads.length
      · exact hthreads i thread ((List.getElem?_append_left hi).symm.trans hget)
      · have hnew := List.mem_of_getElem?
          ((List.getElem?_append_right (Nat.not_lt.1 hi)).symm.trans hget)
        rw [List.mem_singleton.1 hnew, hlater i (Nat.not_lt.1 hi)]
        exact hbody request
    | call i c r =>
      obtain ⟨request, next, hget, hexec, hthreads'⟩ := hlabel
      obtain rfl : threads' = threads.set i ⟨request, next r⟩ := hthreads'
      obtain ⟨hallowed, hnext⟩ := hthreads i _ hget
      have hi := (List.getElem?_eq_some_iff.1 hget).1
      refine ⟨_, hstep s phases i request c r s' hJ hallowed hexec, fun j hj => ?_,
        fun j thread hthread => ?_⟩
      · rw [List.length_set] at hj
        rw [Function.update_of_ne (Nat.ne_of_gt (Nat.lt_of_lt_of_le hi hj))]
        exact hlater j hj
      · by_cases hij : j = i
        · subst hij
          rw [List.getElem?_set_self hi] at hthread
          obtain rfl := Option.some.inj hthread
          rw [Function.update_self]
          exact hnext r (hanswers s phases c r s' hJ hexec)
        · rw [List.getElem?_set_ne (Ne.symm hij)] at hthread
          rw [Function.update_of_ne hij]
          exact hthreads j thread hthread

end

/-! ## Programs in a larger environment -/

variable {C' : Type} {R' : C' → Type}

/-- The program with its calls among those of a larger environment. -/
def Prog.inl : Prog C R α → Prog (C ⊕ C') (Sum.elim R R') α
  | .done a => .done a
  | .call c next => .call (.inl c) fun r => (next r).inl

/-- What a protocol for the larger environment says of the smaller. -/
def Protocol.left (protocol : Protocol (C ⊕ C') (Sum.elim R R') G) : Protocol C R G where
  allowed g c := protocol.allowed g (.inl c)
  after g c r := protocol.after g (.inl c) r

theorem Prog.Follows.inl {answers : (c : C ⊕ C') → Sum.elim R R' c → Prop}
    {protocol : Protocol (C ⊕ C') (Sum.elim R R') G} {g : G} {p : Prog C R α} {Q : α → G → Prop}
    (h : p.Follows (fun c r => answers (.inl c) r) protocol.left g Q) :
    (p.inl : Prog (C ⊕ C') (Sum.elim R R') α).Follows answers protocol g Q := by
  induction p generalizing g with
  | done a => exact h
  | call c next ih => exact ⟨h.1, fun r hr => ih r (h.2 r hr)⟩

/-! ## Programs that fail -/

namespace Fallible

variable {answers : (c : C) → R c → Prop} {protocol : Protocol C R G}

/-- The program makes allowed calls only, and returns with `Q` or fails with `E`. -/
def Follows (answers : (c : C) → R c → Prop) (protocol : Protocol C R G) (g : G)
    (p : Fallible C R ε α) (Q : α → G → Prop) (E : ε → G → Prop) : Prop :=
  p.run.Follows answers protocol g fun
    | .ok a => Q a
    | .error e => E e

variable {g : G} {Q : α → G → Prop} {E : ε → G → Prop}

theorem Follows.pure {a : α} (h : Q a g) :
    Follows answers protocol g (Pure.pure a : Fallible C R ε α) Q E := h

theorem Follows.throw {e : ε} (h : E e g) :
    Follows answers protocol g (MonadExcept.throw e : Fallible C R ε α) Q E := h

theorem Follows.ite {c : Prop} [Decidable c] {p q : Fallible C R ε α}
    (hp : c → Follows answers protocol g p Q E) (hq : ¬ c → Follows answers protocol g q Q E) :
    Follows answers protocol g (if c then p else q) Q E := by
  split
  · exact hp ‹_›
  · exact hq ‹_›

theorem Follows.bind {p : Fallible C R ε α} {f : α → Fallible C R ε β} {M : α → G → Prop}
    {Q : β → G → Prop} (h : Follows answers protocol g p M E)
    (hf : ∀ a g', M a g' → Follows answers protocol g' (f a) Q E) :
    Follows answers protocol g (p >>= f) Q E := by
  refine Prog.Follows.bind h ?_
  rintro (e | a) g' ha
  · exact ha
  · exact hf a g' ha

theorem Follows.weaken {p : Fallible C R ε α} {Q' : α → G → Prop} {E' : ε → G → Prop}
    (h : Follows answers protocol g p Q E) (hQ : ∀ a g', Q a g' → Q' a g')
    (hE : ∀ e g', E e g' → E' e g') : Follows answers protocol g p Q' E' := by
  refine Prog.Follows.weaken h ?_
  rintro (e | a) g' ha
  · exact hE e g' ha
  · exact hQ a g' ha

theorem Follows.mapM {ι : Type} {f : ι → Fallible C R ε α} (items : List ι)
    (h : ∀ item ∈ items, Follows answers protocol g (f item) (fun _ g' => g' = g) E) :
    Follows answers protocol g (items.mapM f) (fun _ g' => g' = g) E := by
  induction items with
  | nil => exact .pure rfl
  | cons item items ih =>
    obtain ⟨hitem, hitems⟩ := List.forall_mem_cons.1 h
    rw [List.mapM_cons]
    refine hitem.bind fun a g' hg => ?_
    rw [hg]
    exact (ih hitems).bind fun as g' hg => .pure hg

theorem Follows.mapError {p : Fallible C R ε α} {f : ε → ε'} {E : ε' → G → Prop}
    (h : Follows answers protocol g p Q fun e => E (f e)) :
    Follows answers protocol g (p.mapError f) Q E := by
  refine Prog.Follows.bind h ?_
  rintro (e | a) g' ha
  · exact ha
  · exact ha

theorem Follows.catchAll {p : Fallible C R ε α} {handler : ε → Fallible C R ε' α} {M : ε → G → Prop}
    {E : ε' → G → Prop} (h : Follows answers protocol g p Q M)
    (hhandler : ∀ e g', M e g' → Follows answers protocol g' (handler e) Q E) :
    Follows answers protocol g (p.catchAll handler) Q E := by
  refine Prog.Follows.bind h ?_
  rintro (e | a) g' ha
  · exact hhandler e g' ha
  · exact ha

end Fallible

end Blip
