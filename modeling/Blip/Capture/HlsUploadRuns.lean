import Blip.Capture.HlsUploads
import Mathlib.Data.List.Perm.Basic

/-!
# How an incremental upload ends

An asset that was announced is in the channel, awaits a free place, is uploaded by a task, or has been
uploaded. So the last message finds nothing else in the channel, and after the tasks have ended every asset
is uploaded. What fails on the way ends the tasks and aborts the session.
-/

namespace Blip.Capture.AssetUploads

variable {uploads uploads' : HlsUploads}

def HlsUploadMessage.asset? : HlsUploadMessage → Option String
  | .asset name => some name
  | _ => none

@[simp] theorem asset?_asset (name : String) : (HlsUploadMessage.asset name).asset? = some name := rfl

@[simp] theorem asset?_complete : HlsUploadMessage.complete.asset? = none := rfl

@[simp] theorem asset?_abort : HlsUploadMessage.abort.asset? = none := rfl

namespace WorkerPhase

/-- The asset that awaits a free place. -/
def pending : WorkerPhase → List String
  | .reaping name => [name]
  | _ => []

/-- The session may still be completed, or has been. -/
def Live : WorkerPhase → Prop
  | .failing | .aborting | .done false => False
  | _ => True

/-- The last message has come, and nothing has failed. -/
def Final : WorkerPhase → Prop
  | .draining | .parts | .completing | .done true => True
  | _ => False

/-- Whatever the server answered to the completion. -/
def Over : WorkerPhase → Prop
  | .failing | .aborting | .done _ => True
  | _ => False

end WorkerPhase

/-- The check names the initialization segment. -/
theorem eq_of_validateHlsAsset {name : String} (h : Hls.validateHlsAsset name = .ok true) :
    name = "init.mp4" := by
  rw [Hls.validateHlsAsset] at h
  split at h
  · assumption
  · split at h
    · cases h
    · cases h

namespace HlsUploads

/-- No more assets are announced, because the recording was made. -/
def Made (uploads : HlsUploads) : Prop :=
  uploads.recording = .joining true ∨ uploads.recording = .ended true

/-- What the requests and the directory say of the way the run ended. -/
structure Outcome (uploads : HlsUploads) : Prop where
  called : uploads.completeCalled = true → uploads.phase.Over ∧ uploads.Made ∧
    "init.mp4" ∈ uploads.announced ∧ uploads.announced.Perm uploads.uploaded
  completed : uploads.phase = .done true → uploads.completeCalled = true
  cancelled : uploads.phase = .aborting ∨ uploads.phase = .done false → uploads.tasks = []
  aborted : uploads.phase = .done false → uploads.sessionStarted = true → uploads.abortCalled = true
  abort : uploads.abortCalled = true → uploads.phase = .done false
  removed : uploads.directoryRemoved = true →
    uploads.recording = .ended false ∨ uploads.phase = .done true

/-- Where every asset is, and what the last message found. -/
structure Inv (uploads : HlsUploads) : Prop extends Outcome uploads where
  window : uploads.tasks.length ≤ maxConcurrentHlsUploads
  found : uploads.foundInitialization = true → "init.mp4" ∈ uploads.registered
  order : uploads.phase.Live → uploads.announced =
    uploads.registered ++ uploads.phase.pending ++ uploads.messages.filterMap HlsUploadMessage.asset?
  uploaded : uploads.phase.Live →
    uploads.registered.Perm (uploads.uploaded ++ uploads.tasks.map AssetTask.name)
  last : ∀ before after, uploads.messages = before ++ .complete :: after → after = [] ∧ uploads.Made
  final : uploads.phase.Final → uploads.messages = [] ∧ uploads.Made
  ready : uploads.phase = .parts ∨ uploads.phase = .completing →
    uploads.tasks = [] ∧ uploads.foundInitialization = true
  unstarted : uploads.phase = .starting → uploads.tasks = [] ∧ uploads.sessionStarted = false
  spawning : uploads.recording = .spawning → uploads.phase = .starting

theorem initial_inv : initial.Inv where
  window := Nat.zero_le _
  found := by rintro ⟨⟩
  order := fun _ => rfl
  uploaded := fun _ => .nil
  last := by
    intro before after h
    exact absurd (congrArg List.length h) (by simp [initial])
  final := by rintro ⟨⟩
  ready := by rintro (h | h) <;> cases h
  called := by rintro ⟨⟩
  completed := by rintro ⟨⟩
  cancelled := by rintro (h | h) <;> cases h
  aborted := by rintro ⟨⟩
  abort := by rintro ⟨⟩
  removed := by rintro ⟨⟩
  unstarted := fun _ => ⟨rfl, rfl⟩
  spawning := fun _ => rfl

/-- Before its end a run says nothing of its outcome. -/
theorem Outcome.early (h : uploads.Outcome) (hbefore : ¬ uploads.phase.Over)
    (hafter : ¬ uploads'.phase.Over) (hrecording : uploads'.recording = uploads.recording)
    (hcalled : uploads'.completeCalled = uploads.completeCalled)
    (habort : uploads'.abortCalled = uploads.abortCalled)
    (hremoved : uploads'.directoryRemoved = uploads.directoryRemoved) : uploads'.Outcome where
  called := fun hnow => absurd (h.called (hcalled ▸ hnow)).1 hbefore
  completed := by
    intro hphase
    rw [hphase] at hafter
    exact absurd trivial hafter
  cancelled := by
    rintro (hphase | hphase)
    all_goals
      rw [hphase] at hafter
      exact absurd trivial hafter
  aborted := by
    intro hphase
    rw [hphase] at hafter
    exact absurd trivial hafter
  abort := by
    intro hnow
    rw [h.abort (habort ▸ hnow)] at hbefore
    exact absurd trivial hbefore
  removed := by
    intro hnow
    refine .inl ((h.removed (hremoved ▸ hnow)).elim (fun hended => hrecording.trans hended) fun hdone => ?_)
    rw [hdone] at hbefore
    exact absurd trivial hbefore

/-! ## The worker -/

/-- Whatever fails, the worker goes on to end its tasks. -/
theorem Inv.failing (h : uploads.Inv) (habort : uploads.abortCalled = false)
    (hdone : uploads.phase ≠ .done true) (hstarted : uploads.phase ≠ .starting) {tasks : List AssetTask}
    {messages : List HlsUploadMessage}
    (hwindow : tasks.length ≤ maxConcurrentHlsUploads)
    (hmessages : ∃ taken, uploads.messages = taken ++ messages) :
    Inv { uploads with
      tasks
      messages
      phase := .failing } :=
  { h with
    called := fun hcalled => ⟨trivial, (h.called hcalled).2⟩
    completed := by rintro ⟨⟩
    cancelled := by rintro (h | h) <;> cases h
    aborted := by rintro ⟨⟩
    abort := fun haborted => absurd haborted (by simp [habort])
    removed := fun hgone => (h.removed hgone).imp_right fun hphase => absurd hphase hdone
    window := hwindow
    order := by rintro ⟨⟩
    uploaded := by rintro ⟨⟩
    last := by
      intro before after hlast
      obtain ⟨taken, htaken⟩ := hmessages
      refine h.last (taken ++ before) after ?_
      rw [htaken]
      dsimp only at hlast
      rw [hlast, List.append_assoc]
    final := by rintro ⟨⟩
    ready := by rintro (h | h) <;> cases h
    unstarted := by rintro ⟨⟩
    spawning := fun hspawning => absurd (h.spawning hspawning) hstarted }

theorem Outcome.abortCalled_false (h : uploads.Outcome) (hphase : uploads.phase ≠ .done false) :
    uploads.abortCalled = false :=
  Bool.eq_false_iff.mpr fun haborted => hphase (h.abort haborted)

theorem register_phase (uploads : HlsUploads) (phase : WorkerPhase) (name : String) :
    { uploads with phase }.register name = uploads.register name := by
  rw [register, register]

/-- An asset that awaited its place has it. -/
theorem Inv.register {name : String} (h : uploads.Inv) (hphase : uploads.phase = .reaping name)
    (hlength : uploads.tasks.length < maxConcurrentHlsUploads) : (uploads.register name).Inv := by
  have hlive : uploads.phase.Live := by rw [hphase]; trivial
  rw [HlsUploads.register]
  split
  · exact h.failing (h.abortCalled_false (by simp [hphase])) (by simp [hphase]) (by simp [hphase]) h.window
      ⟨[], rfl⟩
  · rename_i initialization hvalid
    exact {
      toOutcome := h.early (by rw [hphase]; rintro ⟨⟩) (by rintro ⟨⟩) rfl rfl rfl rfl
      window := by
        rw [List.length_append, List.length_singleton]
        exact hlength
      found := by
        intro hfound
        rcases (Bool.or_eq_true _ _).mp hfound with hbefore | hnow
        · exact List.mem_append_left _ (h.found hbefore)
        · rw [hnow] at hvalid
          rw [eq_of_validateHlsAsset hvalid]
          exact List.mem_append_right _ (List.mem_singleton.mpr rfl)
      order := by
        intro _
        have horder := h.order hlive
        rw [hphase] at horder
        simpa [WorkerPhase.pending] using horder
      uploaded := by
        intro _
        rw [List.map_append, ← List.append_assoc]
        exact (h.uploaded hlive).append_right _
      last := h.last
      final := by rintro ⟨⟩
      ready := by rintro (h | h) <;> cases h
      unstarted := by rintro ⟨⟩
      spawning := fun hspawning => absurd (h.spawning hspawning) (by simp [hphase]) }

/-- An asset is taken out of the channel. -/
theorem Inv.take {name : String} {messages : List HlsUploadMessage} (h : uploads.Inv)
    (hphase : uploads.phase = .receiving) (hmessages : uploads.messages = .asset name :: messages) :
    Inv { uploads with
      messages
      phase := .reaping name } := by
  have hlive : uploads.phase.Live := by rw [hphase]; trivial
  exact {
    toOutcome := h.early (by rw [hphase]; rintro ⟨⟩) (by rintro ⟨⟩) rfl rfl rfl rfl
    window := h.window
    found := h.found
    order := by
      intro _
      have horder := h.order hlive
      rw [hphase, hmessages] at horder
      simpa [WorkerPhase.pending] using horder
    uploaded := fun _ => h.uploaded hlive
    last := by
      intro before after hlast
      dsimp only at hlast
      exact h.last (.asset name :: before) after (by rw [hmessages, hlast]; rfl)
    final := by rintro ⟨⟩
    ready := by rintro (h | h) <;> cases h
    unstarted := by rintro ⟨⟩
    spawning := fun hspawning => absurd (h.spawning hspawning) (by simp [hphase]) }

theorem Inv.receive (h : uploads.Inv) (hphase : uploads.phase = .receiving)
    (hstep : uploads.receive = some uploads') : uploads'.Inv := by
  have hlive : uploads.phase.Live := by rw [hphase]; trivial
  have habort := h.abortCalled_false (by simp [hphase])
  rw [HlsUploads.receive] at hstep
  split at hstep
  · rename_i name messages hmessages
    have htaken := h.take hphase hmessages
    obtain rfl := Option.some.inj hstep
    split
    · exact htaken
    · rename_i hroom
      rw [← register_phase _ (.reaping name)]
      exact htaken.register rfl (lt_of_le_of_ne h.window hroom)
  · rename_i messages hmessages
    obtain rfl := Option.some.inj hstep
    -- the last message is the last one in the channel
    obtain ⟨rfl, hmade⟩ := h.last [] messages hmessages
    exact {
      toOutcome := h.early (by rw [hphase]; rintro ⟨⟩) (by rintro ⟨⟩) rfl rfl rfl rfl
      window := h.window
      found := h.found
      order := by
        intro _
        have horder := h.order hlive
        have hnone : [HlsUploadMessage.complete].filterMap HlsUploadMessage.asset? = [] := rfl
        rw [hphase, hmessages, hnone] at horder
        exact horder
      uploaded := fun _ => h.uploaded hlive
      last := by
        intro before after hlast
        exact absurd (congrArg List.length hlast) (by simp)
      final := fun _ => ⟨rfl, hmade⟩
      ready := by rintro (h | h) <;> cases h
      unstarted := by rintro ⟨⟩
      spawning := fun hspawning => absurd (h.spawning hspawning) (by simp [hphase]) }
  · rename_i messages hmessages
    obtain rfl := Option.some.inj hstep
    exact h.failing habort (by simp [hphase]) (by simp [hphase]) h.window ⟨[.abort], hmessages⟩
  · split at hstep
    · obtain rfl := Option.some.inj hstep
      exact h.failing habort (by simp [hphase]) (by simp [hphase]) h.window ⟨[], rfl⟩
    · cases hstep

/-- A task that is taken out of the set has uploaded its asset, or the worker fails. -/
theorem Inv.reapTask {index : ℕ} (h : uploads.Inv) (hlive : uploads.phase.Live)
    (hbefore : ¬ uploads.phase.Over) (hready : ¬ (uploads.phase = .parts ∨ uploads.phase = .completing))
    (hstarted : uploads.phase ≠ .starting) (hstep : uploads.reapTask index = some uploads') :
    uploads'.Inv ∧ (uploads'.phase = .failing ∨ uploads'.phase = uploads.phase ∧
      uploads'.tasks.length < maxConcurrentHlsUploads) := by
  have hlength : ∀ {task : AssetTask}, uploads.tasks[index]? = some task →
      (uploads.tasks.eraseIdx index).length < maxConcurrentHlsUploads := by
    intro task htask
    obtain ⟨hindex, -⟩ := List.getElem?_eq_some_iff.mp htask
    have hwindow := h.window
    rw [List.length_eraseIdx_of_lt hindex]
    omega
  rw [HlsUploads.reapTask] at hstep
  split at hstep
  · rename_i name htask
    obtain rfl := Option.some.inj hstep
    refine ⟨?_, .inr ⟨rfl, hlength htask⟩⟩
    obtain ⟨hindex, hget⟩ := List.getElem?_eq_some_iff.mp htask
    have htasks : (uploads.tasks.map AssetTask.name).Perm
        (name :: (uploads.tasks.eraseIdx index).map AssetTask.name) := by
      have hperm := (List.getElem_cons_eraseIdx_perm hindex).symm.map AssetTask.name
      rw [hget] at hperm
      exact hperm
    exact {
      toOutcome := h.early hbefore hbefore rfl rfl rfl rfl
      window := (hlength htask).le
      found := h.found
      order := h.order
      uploaded := by
        intro _
        refine (h.uploaded hlive).trans ?_
        rw [List.append_assoc]
        exact htasks.append_left _
      last := h.last
      final := h.final
      ready := fun hphase => absurd hphase hready
      unstarted := fun hphase => absurd hphase hstarted
      spawning := h.spawning }
  · rename_i name htask
    obtain rfl := Option.some.inj hstep
    refine ⟨h.failing (h.abortCalled_false fun hdone => ?_) (fun hdone => ?_) hstarted
      (hlength htask).le ⟨[], rfl⟩, .inl rfl⟩
    · rw [hdone] at hbefore
      exact hbefore trivial
    · rw [hdone] at hbefore
      exact hbefore trivial
  · cases hstep

theorem Inv.reap {index : ℕ} (h : uploads.Inv) (hstep : uploads.reap index = some uploads') :
    uploads'.Inv := by
  rw [HlsUploads.reap] at hstep
  split at hstep
  · rename_i name hphase
    obtain ⟨reaped, hreaped, rfl⟩ := Option.map_eq_some_iff.mp hstep
    obtain ⟨hinv, hnext⟩ := h.reapTask (by rw [hphase]; trivial) (by rw [hphase]; rintro ⟨⟩)
      (by simp [hphase]) (by simp [hphase]) hreaped
    split
    · exact hinv
    · rename_i hlive
      obtain ⟨hsame, hlength⟩ := hnext.resolve_left hlive
      exact hinv.register (hsame.trans hphase) hlength
  · rename_i hphase
    exact (h.reapTask (by rw [hphase]; trivial) (by rw [hphase]; rintro ⟨⟩) (by simp [hphase])
      (by simp [hphase]) hstep).1
  · cases hstep

/-- A task ends; that changes neither its asset nor how many there are. -/
theorem Inv.taskEnds {index : ℕ} {name : String} {uploaded : Bool} (h : uploads.Inv)
    (htask : uploads.tasks[index]? = some ⟨name, none⟩) :
    Inv { uploads with
      tasks := uploads.tasks.set index {
        name
        result := some uploaded } } := by
  have hempty : uploads.tasks ≠ [] := by
    intro hempty
    rw [hempty] at htask
    cases htask
  have hnames : (uploads.tasks.set index ⟨name, some uploaded⟩).map AssetTask.name =
      uploads.tasks.map AssetTask.name := by
    have hname : (uploads.tasks.map AssetTask.name)[index]? = some name := by
      rw [List.getElem?_map, htask, Option.map_some]
    refine (List.map_set ..).trans (List.ext_getElem? fun other => ?_)
    rcases eq_or_ne index other with rfl | hother
    · rw [List.getElem?_set_self (List.getElem?_eq_some_iff.mp hname).1, hname]
    · rw [List.getElem?_set_ne hother]
  exact { h with
    cancelled := fun hphase => absurd (h.cancelled hphase) hempty
    window := by
      rw [List.length_set]
      exact h.window
    uploaded := by
      intro hlive
      rw [hnames]
      exact h.uploaded hlive
    ready := fun hphase => absurd (h.ready hphase).1 hempty
    unstarted := fun hphase => absurd (h.unstarted hphase).1 hempty }

/-- The session starts, or there is nothing to abort. -/
theorem Inv.start {started : Bool} (h : uploads.Inv) (hphase : uploads.phase = .starting)
    (hspawned : uploads.recording ≠ .spawning) :
    Inv { uploads with
      phase := if started then .receiving else .done false
      sessionStarted := started } := by
  obtain ⟨htasks, -⟩ := h.unstarted hphase
  have hover : ¬ uploads.phase.Over := by rw [hphase]; rintro ⟨⟩
  have hlive : uploads.phase.Live := by rw [hphase]; trivial
  cases started with
  | true => exact {
      toOutcome := h.early hover (by rintro ⟨⟩) rfl rfl rfl rfl
      window := h.window
      found := h.found
      order := by
        intro _
        have horder := h.order hlive
        rw [hphase] at horder
        exact horder
      uploaded := fun _ => h.uploaded hlive
      last := h.last
      final := by rintro ⟨⟩
      ready := by rintro (h | h) <;> cases h
      unstarted := by rintro ⟨⟩
      spawning := fun hspawning => absurd hspawning hspawned }
  | false => exact {
      called := fun hcalled => absurd (h.called hcalled).1 hover
      completed := by rintro ⟨⟩
      cancelled := fun _ => htasks
      aborted := by rintro - ⟨⟩
      abort := fun _ => rfl
      removed := fun hgone => (h.removed hgone).imp_right fun hdone => by
        rw [hphase] at hdone
        cases hdone
      window := h.window
      found := h.found
      order := by rintro ⟨⟩
      uploaded := by rintro ⟨⟩
      last := h.last
      final := by rintro ⟨⟩
      ready := by rintro (h | h) <;> cases h
      unstarted := by rintro ⟨⟩
      spawning := fun hspawning => absurd hspawning hspawned }

/-- One stage after another, once the last message has come. -/
theorem Inv.advance {phase : WorkerPhase} (h : uploads.Inv) (hphase : uploads.phase.Final)
    (hover : ¬ uploads.phase.Over) (hlive : uploads.phase.Live) (hpending : uploads.phase.pending = [])
    (hnext : phase = .parts ∨ phase = .completing)
    (hready : uploads.tasks = [] ∧ uploads.foundInitialization = true) :
    Inv { uploads with phase } := by
  have hstarted : uploads.phase ≠ .starting := by
    intro hstarting
    rw [hstarting] at hphase
    exact hphase
  have horder := h.order hlive
  rw [hpending] at horder
  rcases hnext with rfl | rfl
  all_goals exact {
    toOutcome := h.early hover (by rintro ⟨⟩) rfl rfl rfl rfl
    window := h.window
    found := h.found
    order := fun _ => horder
    uploaded := fun _ => h.uploaded hlive
    last := h.last
    final := fun _ => h.final hphase
    ready := fun _ => hready
    unstarted := by rintro ⟨⟩
    spawning := fun hspawning => absurd (h.spawning hspawning) hstarted }

/-- The completion finds every asset uploaded. -/
theorem Inv.complete {completed : Bool} (h : uploads.Inv) (hphase : uploads.phase = .completing) :
    Inv { uploads with
      completeCalled := true
      phase := if completed then .done true else .failing } := by
  have hlive : uploads.phase.Live := by rw [hphase]; trivial
  obtain ⟨hempty, hmade⟩ := h.final (by rw [hphase]; trivial)
  obtain ⟨htasks, hfound⟩ := h.ready (.inr hphase)
  have horder := h.order hlive
  have huploaded := h.uploaded hlive
  rw [hphase, hempty] at horder
  have hannounced : uploads.announced = uploads.registered := by
    simpa [WorkerPhase.pending] using horder
  -- nothing is pending, so every asset announced is uploaded
  rw [htasks, List.map_nil, List.append_nil, ← hannounced] at huploaded
  have hinit : "init.mp4" ∈ uploads.announced := by
    rw [hannounced]
    exact h.found hfound
  have habort := h.abortCalled_false (by simp [hphase])
  have hspawned : uploads.recording ≠ .spawning := fun hspawning => by
    rw [h.spawning hspawning] at hphase
    cases hphase
  cases completed with
  | true => exact {
      called := fun _ => ⟨trivial, hmade, hinit, huploaded⟩
      completed := fun _ => rfl
      cancelled := by rintro (h | h) <;> cases h
      aborted := by rintro ⟨⟩
      abort := fun haborted => absurd haborted (by simp [habort])
      removed := fun _ => .inr rfl
      window := h.window
      found := h.found
      order := by
        intro _
        rw [hempty]
        simpa [WorkerPhase.pending] using hannounced
      uploaded := fun _ => h.uploaded hlive
      last := h.last
      final := fun _ => ⟨hempty, hmade⟩
      ready := by rintro (h | h) <;> cases h
      unstarted := by rintro ⟨⟩
      spawning := fun hspawning => absurd hspawning hspawned }
  | false => exact {
      called := fun _ => ⟨trivial, hmade, hinit, huploaded⟩
      completed := by rintro ⟨⟩
      cancelled := by rintro (h | h) <;> cases h
      aborted := by rintro ⟨⟩
      abort := fun haborted => absurd haborted (by simp [habort])
      removed := fun hgone => (h.removed hgone).imp_right fun hdone => by
        rw [hphase] at hdone
        cases hdone
      window := h.window
      found := h.found
      order := by rintro ⟨⟩
      uploaded := by rintro ⟨⟩
      last := h.last
      final := by rintro ⟨⟩
      ready := by rintro (h | h) <;> cases h
      unstarted := by rintro ⟨⟩
      spawning := fun hspawning => absurd hspawning hspawned }

/-- The tasks are cancelled, and then the session is aborted. -/
theorem Inv.shutdown (h : uploads.Inv) (hphase : uploads.phase = .failing) :
    Inv { uploads with
      tasks := []
      phase := .aborting } := {
  h with
  called := fun hcalled => ⟨trivial, (h.called hcalled).2⟩
  completed := by rintro ⟨⟩
  cancelled := fun _ => rfl
  aborted := by rintro ⟨⟩
  abort := fun haborted => by
    have hdone := h.abort haborted
    rw [hphase] at hdone
    cases hdone
  removed := fun hgone => (h.removed hgone).imp_right fun hdone => by
    rw [hphase] at hdone
    cases hdone
  window := Nat.zero_le _
  order := by rintro ⟨⟩
  uploaded := by rintro ⟨⟩
  final := by rintro ⟨⟩
  ready := by rintro (h | h) <;> cases h
  unstarted := by rintro ⟨⟩
  spawning := fun hspawning => by
    rw [h.spawning hspawning] at hphase
    cases hphase }

theorem Inv.endAborted (h : uploads.Inv) (hphase : uploads.phase = .aborting) :
    Inv { uploads with
      abortCalled := true
      phase := .done false } := {
  h with
  called := fun hcalled => ⟨trivial, (h.called hcalled).2⟩
  completed := by rintro ⟨⟩
  cancelled := fun _ => h.cancelled (.inl hphase)
  aborted := fun _ _ => rfl
  abort := fun _ => rfl
  removed := fun hgone => (h.removed hgone).imp_right fun hdone => by
    rw [hphase] at hdone
    cases hdone
  order := by rintro ⟨⟩
  uploaded := by rintro ⟨⟩
  final := by rintro ⟨⟩
  ready := by rintro (h | h) <;> cases h
  unstarted := by rintro ⟨⟩
  spawning := fun hspawning => by
    rw [h.spawning hspawning] at hphase
    cases hphase }

/-! ## The recording thread and the writer -/

theorem eq_complete_of_singleton {message : HlsUploadMessage} {before after : List HlsUploadMessage}
    (h : [message] = before ++ .complete :: after) : after = [] ∧ message = .complete := by
  rcases List.singleton_eq_append_iff.mp h with ⟨-, hcons⟩ | ⟨-, hcons⟩
  · obtain ⟨hhead, hrest⟩ := List.cons.inj hcons
    exact ⟨hrest, hhead.symm⟩
  · cases hcons

/-- Until the recording was made, a message finds nothing completed. -/
theorem Inv.send (h : uploads.Inv) (hopen : ¬ uploads.Made) (hrunning : uploads.recording ≠ .ended false)
    (side : RecordingSide) (messages : List HlsUploadMessage) (names : List String)
    (hspawned : side ≠ .spawning) (hnames : messages.filterMap HlsUploadMessage.asset? = names)
    (hlast : ∀ before after, messages = before ++ .complete :: after →
      after = [] ∧ side = .joining true) :
    Inv { uploads with
      recording := side
      messages := uploads.messages ++ messages
      announced := uploads.announced ++ names } :=
  { h with
    called := fun hcalled => absurd (h.called hcalled).2.1 hopen
    removed := fun hgone => by
      rcases h.removed hgone with hended | hdone
      · exact absurd hended hrunning
      · exact absurd (h.called (h.completed hdone)).2.1 hopen
    order := by
      intro hlive
      rw [List.filterMap_append, hnames, ← List.append_assoc]
      exact congrArg (· ++ names) (h.order hlive)
    last := by
      intro before after hsplit
      dsimp only at hsplit
      rcases List.append_eq_append_iff.mp hsplit with ⟨middle, -, htail⟩ | ⟨middle, hmiddle, htail⟩
      · exact (hlast middle after htail).imp_right .inl
      · -- a last message that was in the channel before
        cases middle with
        | nil => exact (hlast [] after htail.symm).imp_right .inl
        | cons head rest =>
          obtain ⟨rfl, -⟩ := List.cons.inj htail
          exact absurd (h.last before rest hmiddle).2 hopen
    final := fun hphase => absurd (h.final hphase).2 hopen
    spawning := fun hspawning => absurd hspawning hspawned }

/-- A recording thread that sends nothing. -/
theorem Inv.turn (h : uploads.Inv) (hopen : ¬ uploads.Made) (hrunning : uploads.recording ≠ .ended false)
    {side : RecordingSide} (hspawned : side ≠ .spawning) : Inv { uploads with recording := side } := by
  have hsent := h.send hopen hrunning side [] [] hspawned rfl
    fun before after hsplit => absurd hsplit (by simp)
  rw [List.append_nil, List.append_nil] at hsent
  exact hsent

theorem Inv.sendLast {recorded : Bool} (h : uploads.Inv) (hrecording : uploads.recording = .recording) :
    Inv { uploads with
      recording := .joining recorded
      messages := uploads.messages ++ [if recorded then .complete else .abort] } := by
  have hsent := h.send (by rintro (h | h) <;> simp [hrecording] at h) (by simp [hrecording])
    (.joining recorded) [if recorded then .complete else .abort] [] (by rintro ⟨⟩)
    (by cases recorded <;> rfl) fun before after hsplit => ?_
  · rw [List.append_nil] at hsent
    exact hsent
  · obtain ⟨hafter, hcomplete⟩ := eq_complete_of_singleton hsplit
    cases recorded with
    | true => exact ⟨hafter, rfl⟩
    | false => cases hcomplete

/-- A worker that was never started has no session. -/
theorem Inv.unspawned (h : uploads.Inv) (hspawning : uploads.recording = .spawning) :
    Inv { uploads with
      recording := .ended false
      phase := .done false
      directoryRemoved := true } := by
  obtain ⟨htasks, hsession⟩ := h.unstarted (h.spawning hspawning)
  have hmade : ¬ uploads.Made := by rintro (h | h) <;> simp [hspawning] at h
  exact { h with
    called := fun hcalled => absurd (h.called hcalled).2.1 hmade
    completed := by rintro ⟨⟩
    cancelled := fun _ => htasks
    aborted := fun _ hstarted => absurd hstarted (by simp [hsession])
    abort := fun _ => rfl
    removed := fun _ => .inl rfl
    order := by rintro ⟨⟩
    uploaded := by rintro ⟨⟩
    last := fun before after hsplit => absurd (h.last before after hsplit).2 hmade
    final := by rintro ⟨⟩
    ready := by rintro (h | h) <;> cases h
    unstarted := by rintro ⟨⟩
    spawning := by rintro ⟨⟩ }

/-- The recording thread decides about the directory. -/
theorem Inv.join {recorded completed : Bool} (h : uploads.Inv)
    (hrecording : uploads.recording = .joining recorded) (hphase : uploads.phase = .done completed) :
    (uploads.join recorded completed).Inv := by
  have hmade : uploads.Made → recorded = true := by
    rintro (h | h)
    · exact RecordingSide.joining.inj (hrecording.symm.trans h)
    · rw [hrecording] at h
      cases h
  have hmade' : uploads.Made → (uploads.join recorded completed).Made := fun h =>
    .inr (congrArg RecordingSide.ended (hmade h))
  exact { h with
    called := fun hcalled => ⟨(h.called hcalled).1, hmade' (h.called hcalled).2.1, (h.called hcalled).2.2⟩
    removed := by
      intro hgone
      cases recorded with
      | true =>
        rw [HlsUploads.join] at hgone
        exact .inr (hphase.trans (congrArg WorkerPhase.done hgone))
      | false => exact .inl rfl
    last := fun before after hsplit => (h.last before after hsplit).imp_right hmade'
    final := fun hfinal => (h.final hfinal).imp_right hmade'
    spawning := by rintro ⟨⟩ }

/-! ## Every run -/

theorem Inv.announce {name : String} (h : uploads.Inv)
    (hrecording : uploads.recording = .recording ∨ uploads.recording = .joining false) :
    Inv { uploads with
      messages := uploads.messages ++ [.asset name]
      announced := uploads.announced ++ [name] } := by
  refine h.send ?_ ?_ uploads.recording [.asset name] [name] ?_ rfl fun before after hsplit => ?_
  · rcases hrecording with hrecording | hrecording
    all_goals rintro (h | h) <;> simp [hrecording] at h
  · rcases hrecording with hrecording | hrecording <;> simp [hrecording]
  · rcases hrecording with hrecording | hrecording <;> simp [hrecording]
  · cases (eq_complete_of_singleton hsplit).2

theorem Inv.step (h : uploads.Inv) {label : UploadStep} (hstep : uploads.step label = some uploads') :
    uploads'.Inv := by
  cases label with
  | spawn spawned =>
    obtain ⟨hspawning, ⟨⟩⟩ := Option.ite_none_right_eq_some.mp hstep
    cases spawned with
    | true =>
      exact h.turn (by rintro (h | h) <;> simp [hspawning] at h) (by simp [hspawning]) (by rintro ⟨⟩)
    | false => exact h.unspawned hspawning
  | announce name =>
    obtain ⟨hrecording, ⟨⟩⟩ := Option.ite_none_right_eq_some.mp hstep
    exact h.announce hrecording
  | record recorded =>
    obtain ⟨hrecording, ⟨⟩⟩ := Option.ite_none_right_eq_some.mp hstep
    exact h.sendLast hrecording
  | die =>
    obtain ⟨hrecording, ⟨⟩⟩ := Option.ite_none_right_eq_some.mp hstep
    exact h.turn (by rintro (h | h) <;> simp [hrecording] at h) (by simp [hrecording]) (by rintro ⟨⟩)
  | join =>
    rw [HlsUploads.step] at hstep
    split at hstep
    · rename_i recorded completed hrecording hphase
      obtain rfl := Option.some.inj hstep
      exact h.join hrecording hphase
    · cases hstep
  | start started =>
    obtain ⟨⟨hphase, hspawned⟩, ⟨⟩⟩ := Option.ite_none_right_eq_some.mp hstep
    exact h.start hphase hspawned
  | receive =>
    obtain ⟨hphase, hreceived⟩ := Option.ite_none_right_eq_some.mp hstep
    exact h.receive hphase hreceived
  | taskEnds index uploaded =>
    rw [HlsUploads.step] at hstep
    split at hstep
    · rename_i name htask
      obtain rfl := Option.some.inj hstep
      exact h.taskEnds htask
    · cases hstep
  | reap index => exact h.reap hstep
  | finish =>
    obtain ⟨⟨hphase, htasks⟩, ⟨⟩⟩ := Option.ite_none_right_eq_some.mp hstep
    split
    · rename_i hfound
      exact h.advance (by rw [hphase]; trivial) (by rw [hphase]; rintro ⟨⟩) (by rw [hphase]; trivial)
        (by rw [hphase]; rfl) (.inl rfl) ⟨htasks, hfound⟩
    · exact h.failing (h.abortCalled_false (by simp [hphase])) (by simp [hphase]) (by simp [hphase])
        h.window ⟨[], rfl⟩
  | parts uploaded =>
    obtain ⟨hphase, ⟨⟩⟩ := Option.ite_none_right_eq_some.mp hstep
    cases uploaded with
    | true =>
      exact h.advance (by rw [hphase]; trivial) (by rw [hphase]; rintro ⟨⟩) (by rw [hphase]; trivial)
        (by rw [hphase]; rfl) (.inr rfl) (h.ready (.inl hphase))
    | false =>
      exact h.failing (h.abortCalled_false (by simp [hphase])) (by simp [hphase]) (by simp [hphase])
        h.window ⟨[], rfl⟩
  | complete completed =>
    obtain ⟨hphase, ⟨⟩⟩ := Option.ite_none_right_eq_some.mp hstep
    exact h.complete hphase
  | shutdown =>
    obtain ⟨hphase, ⟨⟩⟩ := Option.ite_none_right_eq_some.mp hstep
    exact h.shutdown hphase
  | abort =>
    obtain ⟨hphase, ⟨⟩⟩ := Option.ite_none_right_eq_some.mp hstep
    exact h.endAborted hphase

theorem reachable_inv (h : hlsUploads.Reachable uploads) : uploads.Inv :=
  h.invariant (fun _ hinit => hinit ▸ initial_inv) fun _ _ _ hinv hstep => hinv.step hstep

end HlsUploads

end Blip.Capture.AssetUploads
