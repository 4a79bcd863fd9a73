import Blip.Common.System
import Mathlib.Data.List.Basic

/-!
# Programs of atomic calls, alone and interleaved

A program is a tree of calls to an environment, each continued by the answer. What a call can answer
and do to the shared state is a relation, so failures and races are choices of the environment. The
same program is run alone (`Exec`) or in a pool with others (`pool`), where every call is one step of
the interleaving.

`Valid` is the rely-guarantee rule. It follows the program's own shape: each call keeps the global
invariant and the guarantee, and what it learns is stable under the rely. `pool_valid` carries it to
every reachable pool; with the equality as the rely it is the Hoare rule for a program alone
(`Valid.alone`).
-/

namespace Blip

/-- A program that calls `C`, is answered by `R`, and returns `α`. -/
inductive Prog (C : Type) (R : C → Type) (α : Type) : Type
  | done (a : α)
  | call (c : C) (next : R c → Prog C R α)

namespace Prog

variable {C : Type} {R : C → Type} {α β γ : Type}

/-- Continue a program with its result. -/
def bind : Prog C R α → (α → Prog C R β) → Prog C R β
  | done a, f => f a
  | call c next, f => call c fun r => (next r).bind f

instance : Monad (Prog C R) where
  pure := done
  bind := bind

/-- One call. -/
def ask (c : C) : Prog C R (R c) := call c done

@[simp] theorem pure_eq (a : α) : (pure a : Prog C R α) = done a := rfl

@[simp] theorem done_bind (a : α) (f : α → Prog C R β) : (done a : Prog C R α) >>= f = f a := rfl

@[simp] theorem call_bind (c : C) (next : R c → Prog C R α) (f : α → Prog C R β) :
    call c next >>= f = call c fun r => next r >>= f := rfl

@[simp] theorem ask_bind (c : C) (f : R c → Prog C R β) : ask c >>= f = call c f := rfl

theorem bind_done (p : Prog C R α) : p >>= done = p := by
  induction p with
  | done a => rfl
  | call c next ih => exact congrArg (call c) (funext ih)

theorem bind_assoc (p : Prog C R α) (f : α → Prog C R β) (g : β → Prog C R γ) :
    p >>= f >>= g = p >>= fun a => f a >>= g := by
  induction p with
  | done a => rfl
  | call c next ih => exact congrArg (call c) (funext ih)

instance : LawfulMonad (Prog C R) :=
  LawfulMonad.mk' (Prog C R) bind_done (fun _ _ => rfl) bind_assoc

end Prog

/-! ## A program alone -/

section

variable {C : Type} {R : C → Type} {S α β : Type} (exec : S → (c : C) → R c → S → Prop)

/-- A program run alone from one state to another. -/
inductive Exec : S → Prog C R α → α → S → Prop
  | done (s : S) (a : α) : Exec s (.done a) a s
  | call {s s' s'' : S} {c : C} {r : R c} {next : R c → Prog C R α} {a : α} :
      exec s c r s' → Exec s' (next r) a s'' → Exec s (.call c next) a s''

variable {exec}

theorem exec_done {s s' : S} {a b : α} :
    Exec exec s (.done a : Prog C R α) b s' ↔ b = a ∧ s' = s := by
  constructor
  · rintro ⟨⟩
    exact ⟨rfl, rfl⟩
  · rintro ⟨rfl, rfl⟩
    exact .done s' b

theorem exec_call {s s'' : S} {c : C} {next : R c → Prog C R α} {a : α} :
    Exec exec s (.call c next) a s'' ↔ ∃ r s', exec s c r s' ∧ Exec exec s' (next r) a s'' := by
  constructor
  · rintro (_ | ⟨hc, hrest⟩)
    exact ⟨_, _, hc, hrest⟩
  · rintro ⟨r, s', hc, hrest⟩
    exact .call hc hrest

/-- A program continued runs to where the first part ends, and on from there. -/
theorem exec_bind {s s'' : S} {p : Prog C R α} {f : α → Prog C R β} {b : β} :
    Exec exec s (p >>= f) b s'' ↔ ∃ a s', Exec exec s p a s' ∧ Exec exec s' (f a) b s'' := by
  induction p generalizing s with
  | done a => simp [exec_done]
  | call c next ih =>
    rw [Prog.call_bind, exec_call]
    simp only [ih, exec_call]
    constructor
    · rintro ⟨r, s₁, hc, a, s₂, hnext, hf⟩
      exact ⟨a, s₂, ⟨r, s₁, hc, hnext⟩, hf⟩
    · rintro ⟨a, s₂, ⟨r, s₁, hc, hnext⟩, hf⟩
      exact ⟨r, s₁, hc, a, s₂, hnext, hf⟩

/-- What every call keeps, a program keeps. -/
theorem Exec.invariant {P : S → Prop} (hcall : ∀ s c r s', P s → exec s c r s' → P s') {s s' : S}
    {p : Prog C R α} {a : α} (h : Exec exec s p a s') (hs : P s) : P s' := by
  induction h with
  | done => exact hs
  | call hc _ ih => exact ih (hcall _ _ _ _ hs hc)

/-! ## Programs interleaved -/

/-- A program in a pool, under the request it serves. -/
structure Thread (T C : Type) (R : C → Type) (α : Type) where
  request : T
  prog : Prog C R α

/-- The steps of a pool: a request arrives, or a program makes its next call. -/
inductive PoolStep (T C : Type) (R : C → Type)
  | arrive (request : T)
  | call (thread : ℕ) (c : C) (answer : R c)

variable {T : Type} (exec) (body : T → Prog C R α) (init : S → Prop)

/-- Any number of programs on one shared state. -/
def pool : System (S × List (Thread T C R α)) (PoolStep T C R) where
  init config := init config.1 ∧ config.2 = []
  step config label config' :=
    match label with
    | .arrive request => config'.1 = config.1 ∧ config'.2 = config.2 ++ [⟨request, body request⟩]
    | .call i c r => ∃ request next, config.2[i]? = some ⟨request, .call c next⟩ ∧
        exec config.1 c r config'.1 ∧ config'.2 = config.2.set i ⟨request, next r⟩

variable (inv : S → Prop) (rely guar : S → S → Prop)

/-- A fact that survives whatever the other programs do. -/
def Stable (P : S → Prop) : Prop := ∀ s s', inv s → inv s' → rely s s' → P s → P s'

/-- From states with `P`, the program keeps the invariant and the guarantee, and returns with
`Q`. -/
def Valid (P : S → Prop) : Prog C R α → (α → S → Prop) → Prop
  | .done a, Q => ∀ s, inv s → P s → Q a s
  | .call c next, Q => ∃ mid : R c → S → Prop, (∀ r, Stable inv rely (mid r)) ∧
      (∀ s r s', inv s → P s → exec s c r s' → inv s' ∧ guar s s' ∧ mid r s') ∧
      ∀ r, Valid (mid r) (next r) Q

variable {exec inv rely guar}

theorem Stable.and {P Q : S → Prop} (hP : Stable inv rely P) (hQ : Stable inv rely Q) :
    Stable inv rely fun s => P s ∧ Q s :=
  fun s s' hs hs' hr h => ⟨hP s s' hs hs' hr h.1, hQ s s' hs hs' hr h.2⟩

theorem Stable.const (p : Prop) : Stable inv rely fun _ => p := fun _ _ _ _ _ h => h

theorem Valid.weaken {P P' : S → Prop} {p : Prog C R α} {Q Q' : α → S → Prop}
    (h : Valid exec inv rely guar P p Q) (hP : ∀ s, inv s → P' s → P s)
    (hQ : ∀ a s, inv s → Q a s → Q' a s) : Valid exec inv rely guar P' p Q' := by
  induction p generalizing P P' with
  | done a => exact fun s hs hp => hQ a s hs (h s hs (hP s hs hp))
  | call c next ih =>
    obtain ⟨mid, hstable, hstep, hnext⟩ := h
    exact ⟨mid, hstable, fun s r s' hs hp => hstep s r s' hs (hP s hs hp),
      fun r => ih r (hnext r) (fun _ _ h => h)⟩

/-- A fact in the precondition that is not about the state can be assumed. -/
theorem Valid.assume {P : S → Prop} {p : Prop} {prog : Prog C R α} {Q : α → S → Prop}
    (h : p → Valid exec inv rely guar P prog Q) :
    Valid exec inv rely guar (fun s => p ∧ P s) prog Q := by
  by_cases hp : p
  · exact (h hp).weaken (fun _ _ h => h.2) fun _ _ _ h => h
  clear h
  suffices hfalse : Valid exec inv rely guar (fun _ => False) prog Q from
    hfalse.weaken (fun _ _ h => hp h.1) fun _ _ _ h => h
  induction prog with
  | done a => exact fun _ _ h => h.elim
  | call c next ih =>
    exact ⟨fun _ _ => False, fun _ => .const False, fun _ _ _ _ h => h.elim, fun r => ih r⟩

/-- Programs are proved one after another. -/
theorem Valid.bind {P : S → Prop} {p : Prog C R α} {f : α → Prog C R β} {M : α → S → Prop}
    {Q : β → S → Prop} (h : Valid exec inv rely guar P p M)
    (hf : ∀ a, Valid exec inv rely guar (M a) (f a) Q) :
    Valid exec inv rely guar P (p >>= f) Q := by
  induction p generalizing P with
  | done a => exact (hf a).weaken (fun s hs hp => h s hs hp) fun _ _ _ hq => hq
  | call c next ih =>
    obtain ⟨mid, hstable, hstep, hnext⟩ := h
    exact ⟨mid, hstable, hstep, fun r => ih r (hnext r)⟩

/-- One call, with what it learns. -/
theorem Valid.ask {P : S → Prop} {c : C} {Q : R c → S → Prop}
    (hstable : ∀ r, Stable inv rely (Q r))
    (hstep : ∀ s r s', inv s → P s → exec s c r s' → inv s' ∧ guar s s' ∧ Q r s') :
    Valid exec inv rely guar P (Prog.ask c) Q :=
  ⟨Q, hstable, hstep, fun _ _ _ h => h⟩

/-- A valid program run alone. -/
theorem Valid.alone {P : S → Prop} {p : Prog C R α} {Q : α → S → Prop}
    (h : Valid exec inv rely guar P p Q) {s s' : S} {a : α} (hs : inv s) (hP : P s)
    (hexec : Exec exec s p a s') : inv s' ∧ Q a s' := by
  induction p generalizing P s with
  | done b =>
    cases hexec
    exact ⟨hs, h _ hs hP⟩
  | call c next ih =>
    obtain ⟨mid, -, hstep, hnext⟩ := h
    cases hexec with
    | call hc hrest =>
      obtain ⟨hs', -, hmid⟩ := hstep _ _ _ hs hP hc
      exact ih _ (hnext _) hs' hmid hrest

/-- A thread whose remaining program is valid from here. -/
def Thread.Sound (exec : S → (c : C) → R c → S → Prop) (inv : S → Prop) (rel : S → S → Prop)
    (Q : T → α → S → Prop) (s : S) (thread : Thread T C R α) : Prop :=
  ∃ P, Stable inv rel P ∧ P s ∧ Valid exec inv rel rel P thread.prog (Q thread.request)

variable {rel : S → S → Prop}

/-- One step keeps the invariant and every thread sound, and stays within `rel`. -/
theorem pool_step {Q : T → α → S → Prop}
    (hbody : ∀ request, Valid exec inv rel rel (fun _ => True) (body request) (Q request))
    {config config' : S × List (Thread T C R α)} {label : PoolStep T C R}
    (hstep : (pool exec body init).step config label config') (hinv : inv config.1)
    (hsound : ∀ thread ∈ config.2, thread.Sound exec inv rel Q config.1) :
    inv config'.1 ∧ (∀ thread ∈ config'.2, thread.Sound exec inv rel Q config'.1) ∧
      (config'.1 = config.1 ∨ rel config.1 config'.1) := by
  cases label with
  | arrive request =>
    obtain ⟨hs, hthreads⟩ := hstep
    rw [hs, hthreads]
    refine ⟨hinv, ?_, .inl rfl⟩
    intro thread hthread
    rcases List.mem_append.mp hthread with hthread | hthread
    · exact hsound thread hthread
    · rw [List.mem_singleton.mp hthread]
      exact ⟨fun _ => True, .const True, trivial, hbody request⟩
  | call i c r =>
    obtain ⟨request, next, hget, hexec, hthreads⟩ := hstep
    obtain ⟨P, -, hP, hvalid⟩ := hsound _ (List.mem_of_getElem? hget)
    obtain ⟨mid, hstable, hcall, hnext⟩ := hvalid
    obtain ⟨hinv', hrel, hmid⟩ := hcall _ r _ hinv hP hexec
    refine ⟨hinv', ?_, .inr hrel⟩
    intro thread hthread
    rw [hthreads] at hthread
    rcases List.mem_or_eq_of_mem_set hthread with hthread | rfl
    · obtain ⟨P', hstable', hP', hvalid'⟩ := hsound thread hthread
      exact ⟨P', hstable', hstable' _ _ hinv hinv' hrel hP', hvalid'⟩
    · exact ⟨mid r, hstable r, hmid, hnext r⟩

variable {body init}

/-- Valid programs keep the invariant in every interleaving, and stay valid themselves. -/
theorem pool_valid {Q : T → α → S → Prop} (hinit : ∀ s, init s → inv s)
    (hbody : ∀ request, Valid exec inv rel rel (fun _ => True) (body request) (Q request))
    {config : S × List (Thread T C R α)} (h : (pool exec body init).Reachable config) :
    inv config.1 ∧ ∀ thread ∈ config.2, thread.Sound exec inv rel Q config.1 := by
  refine System.Reachable.invariant
    (P := fun config => inv config.1 ∧ ∀ thread ∈ config.2, thread.Sound exec inv rel Q config.1)
    ?_ ?_ h
  · rintro ⟨s, threads⟩ ⟨hs, hthreads⟩
    refine ⟨hinit s hs, fun thread hthread => ?_⟩
    rw [show threads = [] from hthreads] at hthread
    exact absurd hthread List.not_mem_nil
  · rintro config label config' ⟨hinv, hsound⟩ hstep
    obtain ⟨hinv', hsound', -⟩ := pool_step body init hbody hstep hinv hsound
    exact ⟨hinv', hsound'⟩

/-- A program that has returned has established its postcondition. -/
theorem pool_returned {Q : T → α → S → Prop} (hinit : ∀ s, init s → inv s)
    (hbody : ∀ request, Valid exec inv rel rel (fun _ => True) (body request) (Q request))
    {config : S × List (Thread T C R α)} (h : (pool exec body init).Reachable config)
    {request : T} {a : α} (hthread : ⟨request, .done a⟩ ∈ config.2) : Q request a config.1 := by
  obtain ⟨hinv, hsound⟩ := pool_valid hinit hbody h
  obtain ⟨P, -, hP, hvalid⟩ := hsound _ hthread
  exact hvalid _ hinv hP

/-- Once a stable fact holds, it holds in every later pool. -/
theorem pool_stable {Q : T → α → S → Prop} (hinit : ∀ s, init s → inv s)
    (hbody : ∀ request, Valid exec inv rel rel (fun _ => True) (body request) (Q request))
    {config config' : S × List (Thread T C R α)} {labels : List (PoolStep T C R)}
    (h : (pool exec body init).Reachable config)
    (hrun : (pool exec body init).Run config labels config') {P : S → Prop}
    (hstable : Stable inv rel P) (hP : P config.1) : P config'.1 := by
  induction hrun with
  | nil => exact hP
  | cons hstep _ ih =>
    obtain ⟨hinv, hsound⟩ := pool_valid hinit hbody h
    obtain ⟨hinv', -, heq | hrel⟩ := pool_step body init hbody hstep hinv hsound
    · exact ih (h.step hstep) (heq ▸ hP)
    · exact ih (h.step hstep) (hstable _ _ hinv hinv' hrel hP)

/-- A run that begins with the arrival of a request. -/
theorem pool_run_arrive {s : S} {threads : List (Thread T C R α)} {request : T}
    {labels : List (PoolStep T C R)} {config : S × List (Thread T C R α)}
    (hrest : (pool exec body init).Run (s, threads ++ [⟨request, body request⟩]) labels config) :
    (pool exec body init).Run (s, threads) (.arrive request :: labels) config := by
  have hstep : (pool exec body init).step (s, threads) (.arrive request)
      (s, threads ++ [⟨request, body request⟩]) := ⟨rfl, rfl⟩
  exact .cons hstep hrest

/-- A run that begins with a program's call. -/
theorem pool_run_call {s : S} (s' : S) {threads : List (Thread T C R α)} {i : ℕ} {request : T} {c : C}
    {next : R c → Prog C R α} {answer : R c} {labels : List (PoolStep T C R)}
    {config : S × List (Thread T C R α)} (hget : threads[i]? = some ⟨request, .call c next⟩)
    (hexec : exec s c answer s')
    (hrest : (pool exec body init).Run (s', threads.set i ⟨request, next answer⟩) labels config) :
    (pool exec body init).Run (s, threads) (.call i c answer :: labels) config := by
  have hstep : (pool exec body init).step (s, threads) (.call i c answer)
      (s', threads.set i ⟨request, next answer⟩) := ⟨request, next, hget, hexec, rfl⟩
  exact .cons hstep hrest

/-! ## What a program still does -/

/-- The program makes no call in `bad`. -/
def Prog.Avoids (bad : C → Prop) : Prog C R α → Prop
  | .done _ => True
  | .call c next => ¬ bad c ∧ ∀ r, (next r).Avoids bad

/-- After an answer in `seen`, the program makes no call in `bad`. -/
def Prog.AvoidsAfter (seen : (c : C) → R c → Prop) (bad : C → Prop) : Prog C R α → Prop
  | .done _ => True
  | .call c next => ∀ r, (seen c r → (next r).Avoids bad) ∧ (next r).AvoidsAfter seen bad

theorem Prog.Avoids.after {seen : (c : C) → R c → Prop} {bad : C → Prop} {p : Prog C R α}
    (h : p.Avoids bad) : p.AvoidsAfter seen bad := by
  induction p with
  | done a => trivial
  | call c next ih => exact fun r => ⟨fun _ => h.2 r, ih r (h.2 r)⟩

theorem Prog.Avoids.bind {bad : C → Prop} {p : Prog C R α} {f : α → Prog C R β}
    (h : p.Avoids bad) (hf : ∀ a, (f a).Avoids bad) : (p >>= f).Avoids bad := by
  induction p with
  | done a => exact hf a
  | call c next ih => exact ⟨h.1, fun r => ih r (h.2 r)⟩

theorem Prog.Avoids.mono {bad bad' : C → Prop} {p : Prog C R α} (h : p.Avoids bad)
    (hbad : ∀ c, bad' c → bad c) : p.Avoids bad' := by
  induction p with
  | done a => trivial
  | call c next ih => exact ⟨fun hc => h.1 (hbad c hc), fun r => ih r (h.2 r)⟩

/-- A program that never sees such an answer has nothing to avoid after it. -/
theorem Prog.Avoids.unseen {seen : (c : C) → R c → Prop} {bad asks : C → Prop} {p : Prog C R α}
    (hseen : ∀ c r, seen c r → asks c) (h : p.Avoids asks) : p.AvoidsAfter seen bad := by
  induction p with
  | done a => trivial
  | call c next ih => exact fun r => ⟨fun hr => absurd (hseen c r hr) h.1, ih r (h.2 r)⟩

theorem Prog.AvoidsAfter.map {seen : (c : C) → R c → Prop} {bad : C → Prop} {p : Prog C R α}
    (h : p.AvoidsAfter seen bad) (f : α → β) :
    (p >>= fun a => .done (f a)).AvoidsAfter seen bad := by
  induction p with
  | done a => trivial
  | call c next ih =>
    exact fun r => ⟨fun hr => ((h r).1 hr).bind fun _ => trivial, ih r (h r).2⟩

/-- A program is valid when its only calls keep the invariant and the guarantee by themselves. -/
theorem Valid.of_avoids {bad : C → Prop} {p : Prog C R α} (h : p.Avoids bad)
    (hcall : ∀ s c r s', ¬ bad c → inv s → exec s c r s' → inv s' ∧ guar s s') :
    Valid exec inv rely guar (fun _ => True) p fun _ _ => True := by
  induction p with
  | done a => exact fun _ _ _ => trivial
  | call c next ih =>
    refine ⟨fun _ _ => True, fun _ => .const True, ?_, fun r => ih r (h.2 r)⟩
    intro s r s' hs _ hexec
    obtain ⟨hs', hguar⟩ := hcall s c r s' h.1 hs hexec
    exact ⟨hs', hguar, trivial⟩

/-- A property of a request's program that every answer preserves holds all over the pool. -/
theorem pool_programs {K : T → Prog C R α → Prop} (hbody : ∀ request, K request (body request))
    (hnext : ∀ request c next r, K request (.call c next) → K request (next r))
    {config : S × List (Thread T C R α)} (h : (pool exec body init).Reachable config) :
    ∀ thread ∈ config.2, K thread.request thread.prog := by
  refine System.Reachable.invariant
    (P := fun config => ∀ thread ∈ config.2, K thread.request thread.prog) ?_ ?_ h
  · rintro ⟨s, threads⟩ ⟨-, hthreads⟩ thread hthread
    rw [show threads = [] from hthreads] at hthread
    exact absurd hthread List.not_mem_nil
  · rintro config label config' hK hstep thread hthread
    cases label with
    | arrive request =>
      rw [hstep.2] at hthread
      rcases List.mem_append.mp hthread with hthread | hthread
      · exact hK thread hthread
      · rw [List.mem_singleton.mp hthread]
        exact hbody request
    | call i c r =>
      obtain ⟨request, next, hget, -, hthreads⟩ := hstep
      rw [hthreads] at hthread
      rcases List.mem_or_eq_of_mem_set hthread with hthread | rfl
      · exact hK thread hthread
      · exact hnext request c next r (hK _ (List.mem_of_getElem? hget))

/-- A program that avoids some calls never makes one, however the others run. -/
theorem pool_avoids {bad : C → Prop} {config config' : S × List (Thread T C R α)}
    {labels : List (PoolStep T C R)} (hrun : (pool exec body init).Run config labels config')
    {i : ℕ} {thread : Thread T C R α} (hget : config.2[i]? = some thread)
    (havoids : thread.prog.Avoids bad) {c : C} {r : R c} (hlabel : .call i c r ∈ labels) :
    ¬ bad c := by
  induction hrun generalizing thread with
  | nil => exact absurd hlabel List.not_mem_nil
  | @cons config mid config' label labels hstep _ ih =>
    cases label with
    | arrive request =>
      have hget' : mid.2[i]? = some thread := by
        rw [hstep.2]
        exact List.getElem?_append_left (List.getElem?_eq_some_iff.mp hget).1 ▸ hget
      rcases List.mem_cons.mp hlabel with heq | hlabel
      · cases heq
      · exact ih hget' havoids hlabel
    | call j c' r' =>
      obtain ⟨request, next, hget', -, hthreads⟩ := hstep
      by_cases hij : j = i
      · subst hij
        obtain rfl : (⟨request, .call c' next⟩ : Thread T C R α) = thread :=
          Option.some_inj.mp (hget'.symm.trans hget)
        rcases List.mem_cons.mp hlabel with heq | hlabel
        · cases heq
          exact havoids.1
        · have hget' : mid.2[j]? = some ⟨request, next r'⟩ := by
            rw [hthreads, List.getElem?_set_self (List.getElem?_eq_some_iff.mp hget).1]
          exact ih hget' (havoids.2 r') hlabel
      · have hget'' : mid.2[i]? = some thread := by
          rw [hthreads, List.getElem?_set_ne hij]
          exact hget
        rcases List.mem_cons.mp hlabel with heq | hlabel
        · cases heq
          exact absurd rfl hij
        · exact ih hget'' havoids hlabel

/-- Once a program of the pool has seen such an answer, it makes no bad call. -/
theorem pool_avoids_after {seen : (c : C) → R c → Prop} {bad : C → Prop}
    (hbody : ∀ request, (body request).AvoidsAfter seen bad)
    {config config' config'' : S × List (Thread T C R α)} {labels : List (PoolStep T C R)}
    (h : (pool exec body init).Reachable config) {i : ℕ} {c : C} {r : R c}
    (hstep : (pool exec body init).step config (.call i c r) config') (hseen : seen c r)
    (hrun : (pool exec body init).Run config' labels config'') {c' : C} {r' : R c'}
    (hlabel : .call i c' r' ∈ labels) : ¬ bad c' := by
  obtain ⟨request, next, hget, -, hthreads⟩ := hstep
  have hafter := pool_programs (K := fun _ prog => prog.AvoidsAfter seen bad) hbody
    (fun _ _ _ r h => (h r).2) h _ (List.mem_of_getElem? hget)
  have hget' : config'.2[i]? = some ⟨request, next r⟩ := by
    rw [hthreads, List.getElem?_set_self (List.getElem?_eq_some_iff.mp hget).1]
  exact pool_avoids hrun hget' ((hafter r).1 hseen) hlabel

/-! ## Programs that fail -/

variable {ε ε' : Type}

/-- A program that returns or fails. -/
abbrev Fallible (C : Type) (R : C → Type) (ε α : Type) := ExceptT ε (Prog C R) α

namespace Fallible

/-- The program with its failure renamed. -/
def mapError (f : ε → ε') (p : Fallible C R ε α) : Fallible C R ε' α :=
  ExceptT.mk (p.run >>= fun r => .done (r.mapError f))

/-- The program with its failure handled. -/
def catchAll (p : Fallible C R ε α) (handler : ε → Fallible C R ε' α) : Fallible C R ε' α :=
  ExceptT.mk (p.run >>= fun
    | .ok a => .done (.ok a)
    | .error e => (handler e).run)

variable (exec inv rely guar) in
/-- The program returns with `Q` or fails with `E`. -/
def Valid (P : S → Prop) (p : Fallible C R ε α) (Q : α → S → Prop) (E : ε → S → Prop) : Prop :=
  Blip.Valid exec inv rely guar P p.run fun
    | .ok a => Q a
    | .error e => E e

variable (exec) in
/-- From a state and alone, two programs have the same outcomes. -/
def Agrees (s : S) (p q : Fallible C R ε α) : Prop :=
  ∀ r s', Exec exec s p.run r s' ↔ Exec exec s q.run r s'

theorem Agrees.refl (s : S) (p : Fallible C R ε α) : Agrees exec s p p := fun _ _ => Iff.rfl

theorem Agrees.ite {s : S} {c : Prop} [Decidable c] {p q p' q' : Fallible C R ε α}
    (hp : c → Agrees exec s p p') (hq : ¬ c → Agrees exec s q q') :
    Agrees exec s (if c then p else q) (if c then p' else q') := by
  by_cases hc : c
  · rw [if_pos hc, if_pos hc]
    exact hp hc
  · rw [if_neg hc, if_neg hc]
    exact hq hc

theorem exec_bind {s s'' : S} {p : Fallible C R ε α} {f : α → Fallible C R ε β} {r : Except ε β} :
    Exec exec s (p >>= f).run r s'' ↔
      (∃ a s', Exec exec s p.run (.ok a) s' ∧ Exec exec s' (f a).run r s'') ∨
        ∃ e, r = .error e ∧ Exec exec s p.run (.error e) s'' := by
  refine Blip.exec_bind.trans ?_
  constructor
  · rintro ⟨e | a, s', hp, hrest⟩
    · obtain ⟨rfl, rfl⟩ := exec_done.mp hrest
      exact .inr ⟨e, rfl, hp⟩
    · exact .inl ⟨a, s', hp, hrest⟩
  · rintro (⟨a, s', hp, hrest⟩ | ⟨e, rfl, hp⟩)
    · exact ⟨.ok a, s', hp, hrest⟩
    · exact ⟨.error e, s'', hp, .done s'' _⟩

theorem Agrees.bind {s : S} {p q : Fallible C R ε α} {f g : α → Fallible C R ε β}
    (h : Agrees exec s p q) (hf : ∀ a s', Exec exec s p.run (.ok a) s' → Agrees exec s' (f a) (g a)) :
    Agrees exec s (p >>= f) (q >>= g) := by
  intro r s''
  rw [exec_bind, exec_bind]
  refine or_congr ?_ (exists_congr fun e => and_congr_right fun _ => h _ _)
  refine exists_congr fun a => exists_congr fun s' => ?_
  rw [← h (.ok a) s']
  exact and_congr_right fun hp => hf a s' hp r s''

/-- The program makes no call in `bad`. -/
def Avoids (bad : C → Prop) (p : Fallible C R ε α) : Prop := Prog.Avoids bad p.run

section

variable {bad : C → Prop}

theorem Avoids.pure (a : α) : Avoids bad (Pure.pure a : Fallible C R ε α) := trivial

theorem Avoids.throw (e : ε) : Avoids bad (MonadExcept.throw e : Fallible C R ε α) := trivial

theorem Avoids.ite {c : Prop} [Decidable c] {p q : Fallible C R ε α} (hp : c → Avoids bad p)
    (hq : ¬ c → Avoids bad q) : Avoids bad (if c then p else q) := by
  split
  · exact hp ‹_›
  · exact hq ‹_›

theorem Avoids.bind {p : Fallible C R ε α} {f : α → Fallible C R ε β} (h : Avoids bad p)
    (hf : ∀ a, Avoids bad (f a)) : Avoids bad (p >>= f) := by
  refine Prog.Avoids.bind h ?_
  rintro (e | a)
  · trivial
  · exact hf a

theorem Avoids.mapM {ι : Type} {f : ι → Fallible C R ε α} (l : List ι)
    (h : ∀ i, Avoids bad (f i)) : Avoids bad (l.mapM f) := by
  induction l with
  | nil => exact Avoids.pure []
  | cons i l ih =>
    rw [List.mapM_cons]
    exact (h i).bind fun a => ih.bind fun as => Avoids.pure (a :: as)

theorem Avoids.mapError {p : Fallible C R ε α} {f : ε → ε'} (h : Avoids bad p) :
    Avoids bad (p.mapError f) :=
  Prog.Avoids.bind h fun _ => trivial

theorem Avoids.catchAll {p : Fallible C R ε α} {handler : ε → Fallible C R ε' α}
    (h : Avoids bad p) (hhandler : ∀ e, Avoids bad (handler e)) :
    Avoids bad (p.catchAll handler) := by
  refine Prog.Avoids.bind h ?_
  rintro (e | a)
  · exact hhandler e
  · trivial

end

theorem Valid.weaken {P P' : S → Prop} {p : Fallible C R ε α} {Q Q' : α → S → Prop}
    {E E' : ε → S → Prop} (h : Valid exec inv rely guar P p Q E)
    (hP : ∀ s, inv s → P' s → P s) (hQ : ∀ a s, inv s → Q a s → Q' a s)
    (hE : ∀ e s, inv s → E e s → E' e s) : Valid exec inv rely guar P' p Q' E' := by
  refine Blip.Valid.weaken h hP ?_
  rintro (e | a) s hs hq
  · exact hE e s hs hq
  · exact hQ a s hs hq

theorem Valid.assume {P : S → Prop} {p : Prop} {prog : Fallible C R ε α} {Q : α → S → Prop}
    {E : ε → S → Prop} (h : p → Valid exec inv rely guar P prog Q E) :
    Valid exec inv rely guar (fun s => p ∧ P s) prog Q E := Blip.Valid.assume h

theorem Valid.pure {P : S → Prop} {a : α} {Q : α → S → Prop} {E : ε → S → Prop}
    (h : ∀ s, inv s → P s → Q a s) : Valid exec inv rely guar P (Pure.pure a) Q E := h

theorem Valid.throw {P : S → Prop} {e : ε} {Q : α → S → Prop} {E : ε → S → Prop}
    (h : ∀ s, inv s → P s → E e s) : Valid exec inv rely guar P (MonadExcept.throw e) Q E := h

theorem Valid.ite {P : S → Prop} {c : Prop} [Decidable c] {p q : Fallible C R ε α}
    {Q : α → S → Prop} {E : ε → S → Prop} (hp : c → Valid exec inv rely guar P p Q E)
    (hq : ¬ c → Valid exec inv rely guar P q Q E) :
    Valid exec inv rely guar P (if c then p else q) Q E := by
  split
  · exact hp ‹_›
  · exact hq ‹_›

theorem Valid.bind {P : S → Prop} {p : Fallible C R ε α} {f : α → Fallible C R ε β}
    {M : α → S → Prop} {Q : β → S → Prop} {E : ε → S → Prop}
    (h : Valid exec inv rely guar P p M E)
    (hf : ∀ a, Valid exec inv rely guar (M a) (f a) Q E) :
    Valid exec inv rely guar P (p >>= f) Q E := by
  refine Blip.Valid.bind h ?_
  rintro (e | a)
  · exact fun s _ he => he
  · exact hf a

theorem Valid.mapM {ι : Type} {P : S → Prop} {f : ι → Fallible C R ε α} {E : ε → S → Prop}
    (l : List ι) (h : ∀ i, Valid exec inv rely guar P (f i) (fun _ => P) E) :
    Valid exec inv rely guar P (l.mapM f) (fun _ => P) E := by
  induction l with
  | nil => exact Valid.pure fun _ _ h => h
  | cons i l ih =>
    rw [List.mapM_cons]
    exact (h i).bind fun a => ih.bind fun as => Valid.pure fun _ _ h => h

theorem Valid.mapError {P : S → Prop} {p : Fallible C R ε α} {f : ε → ε'} {Q : α → S → Prop}
    {E : ε' → S → Prop} (h : Valid exec inv rely guar P p Q fun e => E (f e)) :
    Valid exec inv rely guar P (p.mapError f) Q E := by
  refine Blip.Valid.bind h ?_
  rintro (e | a)
  · exact fun s _ he => he
  · exact fun s _ hq => hq

theorem Valid.catchAll {P : S → Prop} {p : Fallible C R ε α}
    {handler : ε → Fallible C R ε' α} {Q : α → S → Prop} {M : ε → S → Prop} {E : ε' → S → Prop}
    (h : Valid exec inv rely guar P p Q M)
    (hhandler : ∀ e, Valid exec inv rely guar (M e) (handler e) Q E) :
    Valid exec inv rely guar P (p.catchAll handler) Q E := by
  refine Blip.Valid.bind h ?_
  rintro (e | a)
  · exact hhandler e
  · exact fun s _ hq => hq

end Fallible

end

end Blip
