import Blip.Capture.HlsUploadRuns

/-!
# An incremental upload comes to its end

Once the recording thread has sent its last message, every step but another announcement leaves less to do,
and one is possible until the thread has the worker's result. Until then the last message is in the channel,
a worker that awaits a free place has a task to wait for, and a task that is waited for has ended or can end.
-/

namespace Blip.Capture.AssetUploads

variable {uploads uploads' : HlsUploads}

namespace WorkerPhase

/-- The last message has not been taken. -/
def Receives : WorkerPhase → Prop
  | .starting | .receiving | .reaping _ => True
  | _ => False

/-- A bound of the worker's own steps that are left. -/
def work : WorkerPhase → ℕ
  | .reaping _ => 10
  | .starting => 9
  | .receiving => 8
  | .draining => 7
  | .parts => 6
  | .completing => 5
  | .failing => 4
  | .aborting => 3
  | .done _ => 2

end WorkerPhase

/-- A task ends, and is then taken out of the set. -/
def AssetTask.work (task : AssetTask) : ℕ :=
  if task.result.isNone then 2 else 1

namespace RecordingSide

/-- The recording thread will send nothing more. -/
def Silent : RecordingSide → Prop
  | .spawning | .recording => False
  | _ => True

def work : RecordingSide → ℕ
  | .joining _ => 1
  | _ => 0

end RecordingSide

namespace HlsUploads

/-- A bound of the steps that are left. -/
def work (uploads : HlsUploads) : ℕ :=
  4 * uploads.messages.length + uploads.phase.work + (uploads.tasks.map AssetTask.work).sum +
    uploads.recording.work

/-- What each side that waits is waiting for. -/
structure Waits (uploads : HlsUploads) : Prop where
  sent : ∀ recorded, uploads.recording = .joining recorded → uploads.phase.Receives →
    ∃ message ∈ uploads.messages, message.asset? = none
  full : ∀ name, uploads.phase = .reaping name → uploads.tasks ≠ []
  joined : ∀ recorded, uploads.recording = .ended recorded → ∃ completed, uploads.phase = .done completed

theorem initial_waits : initial.Waits where
  sent := by rintro _ ⟨⟩
  full := by rintro _ ⟨⟩
  joined := by rintro _ ⟨⟩

theorem Waits.not_ended (h : uploads.Waits) (hbefore : ∀ completed, uploads.phase ≠ .done completed) :
    ∀ recorded, uploads.recording ≠ .ended recorded := by
  intro recorded hended
  obtain ⟨completed, hdone⟩ := h.joined recorded hended
  exact hbefore completed hdone

/-- The worker takes no more messages. -/
theorem waits_of_not_receives (hended : ∀ recorded, uploads.recording ≠ .ended recorded)
    (hphase : ¬ uploads.phase.Receives) : uploads.Waits where
  sent := fun _ _ hreceives => absurd hreceives hphase
  full := by
    intro name hreaping
    rw [hreaping] at hphase
    exact absurd trivial hphase
  joined := fun recorded h => absurd h (hended recorded)

/-- The worker is about to receive again. -/
theorem waits_register {name : String} (hended : ∀ recorded, uploads.recording ≠ .ended recorded)
    (hsent : ∀ recorded, uploads.recording = .joining recorded →
      ∃ message ∈ uploads.messages, message.asset? = none) : (uploads.register name).Waits := by
  rw [register]
  split
  · exact waits_of_not_receives hended (by rintro ⟨⟩)
  · exact {
      sent := fun recorded hjoining _ => hsent recorded hjoining
      full := by rintro _ ⟨⟩
      joined := fun recorded h => absurd h (hended recorded) }

theorem Waits.receive (h : uploads.Waits) (hphase : uploads.phase = .receiving)
    (hstep : uploads.receive = some uploads') : uploads'.Waits := by
  have hended := h.not_ended (by simp [hphase])
  rw [HlsUploads.receive] at hstep
  split at hstep
  · rename_i name messages hmessages
    obtain rfl := Option.some.inj hstep
    -- the message that is taken is not the last one
    have hsent : ∀ recorded, uploads.recording = .joining recorded →
        ∃ message ∈ messages, message.asset? = none := by
      intro recorded hjoining
      obtain ⟨message, hmem, hnone⟩ := h.sent recorded hjoining (by rw [hphase]; trivial)
      rw [hmessages] at hmem
      rcases List.mem_cons.mp hmem with rfl | hmem
      · cases hnone
      · exact ⟨message, hmem, hnone⟩
    split
    · rename_i hfull
      refine ⟨fun recorded hjoining _ => hsent recorded hjoining, ?_, ?_⟩
      · intro _ _ hempty
        dsimp only at hempty
        rw [hempty] at hfull
        cases hfull
      · exact fun recorded h => absurd h (hended recorded)
    · exact waits_register hended hsent
  · obtain rfl := Option.some.inj hstep
    exact waits_of_not_receives hended (by rintro ⟨⟩)
  · obtain rfl := Option.some.inj hstep
    exact waits_of_not_receives hended (by rintro ⟨⟩)
  · split at hstep
    · obtain rfl := Option.some.inj hstep
      exact waits_of_not_receives hended (by rintro ⟨⟩)
    · cases hstep

/-- What the end of a task leaves. -/
theorem reapTask_cases {index : ℕ} (hstep : uploads.reapTask index = some uploads') :
    index < uploads.tasks.length ∧ uploads'.tasks = uploads.tasks.eraseIdx index ∧
      uploads'.messages = uploads.messages ∧ uploads'.recording = uploads.recording ∧
      (uploads'.phase = .failing ∨ uploads'.phase = uploads.phase) := by
  rw [reapTask] at hstep
  split at hstep
  · rename_i name htask
    obtain rfl := Option.some.inj hstep
    exact ⟨(List.getElem?_eq_some_iff.mp htask).1, rfl, rfl, rfl, .inr rfl⟩
  · rename_i name htask
    obtain rfl := Option.some.inj hstep
    exact ⟨(List.getElem?_eq_some_iff.mp htask).1, rfl, rfl, rfl, .inl rfl⟩
  · cases hstep

theorem Waits.reap {index : ℕ} (h : uploads.Waits) (hstep : uploads.reap index = some uploads') :
    uploads'.Waits := by
  rw [HlsUploads.reap] at hstep
  split at hstep
  · rename_i name hphase
    obtain ⟨reaped, hreaped, rfl⟩ := Option.map_eq_some_iff.mp hstep
    obtain ⟨-, -, hmessages, hrecording, -⟩ := reapTask_cases hreaped
    have hended : ∀ recorded, reaped.recording ≠ .ended recorded := by
      rw [hrecording]
      exact h.not_ended (by simp [hphase])
    split
    · rename_i hfailing
      exact waits_of_not_receives hended (by rw [hfailing]; rintro ⟨⟩)
    · refine waits_register hended fun recorded hjoining => ?_
      rw [hmessages]
      exact h.sent recorded (hrecording ▸ hjoining) (by rw [hphase]; trivial)
  · rename_i hphase
    obtain ⟨-, -, -, hrecording, hnext⟩ := reapTask_cases hstep
    refine waits_of_not_receives ?_ ?_
    · rw [hrecording]
      exact h.not_ended (by simp [hphase])
    · rcases hnext with hnext | hnext
      · rw [hnext]
        rintro ⟨⟩
      · rw [hnext, hphase]
        rintro ⟨⟩
  · cases hstep

theorem Waits.step (h : uploads.Waits) {label : UploadStep} (hstep : uploads.step label = some uploads') :
    uploads'.Waits := by
  cases label with
  | spawn spawned =>
    obtain ⟨hspawning, ⟨⟩⟩ := Option.ite_none_right_eq_some.mp hstep
    cases spawned with
    | true => exact ⟨by rintro _ ⟨⟩, h.full, by rintro _ ⟨⟩⟩
    | false => exact ⟨by rintro _ ⟨⟩, by rintro _ ⟨⟩, fun _ _ => ⟨false, rfl⟩⟩
  | announce name =>
    obtain ⟨-, ⟨⟩⟩ := Option.ite_none_right_eq_some.mp hstep
    refine ⟨fun recorded hjoining hphase => ?_, h.full, h.joined⟩
    obtain ⟨message, hmem, hnone⟩ := h.sent recorded hjoining hphase
    exact ⟨message, List.mem_append_left _ hmem, hnone⟩
  | record recorded =>
    obtain ⟨-, ⟨⟩⟩ := Option.ite_none_right_eq_some.mp hstep
    refine ⟨fun _ _ _ => ?_, h.full, by rintro _ ⟨⟩⟩
    exact ⟨_, List.mem_append_right _ (List.mem_singleton.mpr rfl), by cases recorded <;> rfl⟩
  | die =>
    obtain ⟨-, ⟨⟩⟩ := Option.ite_none_right_eq_some.mp hstep
    exact ⟨by rintro _ ⟨⟩, h.full, by rintro _ ⟨⟩⟩
  | join =>
    rw [HlsUploads.step] at hstep
    split at hstep
    · rename_i recorded completed hrecording hphase
      obtain rfl := Option.some.inj hstep
      exact ⟨by rintro _ ⟨⟩, h.full, fun _ _ => ⟨completed, hphase⟩⟩
    · cases hstep
  | start started =>
    obtain ⟨⟨hphase, -⟩, ⟨⟩⟩ := Option.ite_none_right_eq_some.mp hstep
    have hended := h.not_ended (by simp [hphase])
    cases started with
    | true =>
      refine ⟨fun recorded hjoining _ => ?_, by rintro _ ⟨⟩, fun recorded h => absurd h (hended recorded)⟩
      exact h.sent recorded hjoining (by rw [hphase]; trivial)
    | false => exact waits_of_not_receives hended (by rintro ⟨⟩)
  | receive =>
    obtain ⟨hphase, hreceived⟩ := Option.ite_none_right_eq_some.mp hstep
    exact h.receive hphase hreceived
  | taskEnds index uploaded =>
    rw [HlsUploads.step] at hstep
    split at hstep
    · obtain rfl := Option.some.inj hstep
      refine ⟨h.sent, fun name hreaping hempty => ?_, h.joined⟩
      exact h.full name hreaping ((List.set_eq_nil_iff _ _).mp hempty)
    · cases hstep
  | reap index => exact h.reap hstep
  | finish =>
    obtain ⟨⟨hphase, -⟩, ⟨⟩⟩ := Option.ite_none_right_eq_some.mp hstep
    refine waits_of_not_receives (h.not_ended (by simp [hphase])) ?_
    dsimp only
    split <;> rintro ⟨⟩
  | parts uploaded =>
    obtain ⟨hphase, ⟨⟩⟩ := Option.ite_none_right_eq_some.mp hstep
    refine waits_of_not_receives (h.not_ended (by simp [hphase])) ?_
    cases uploaded <;> rintro ⟨⟩
  | complete completed =>
    obtain ⟨hphase, ⟨⟩⟩ := Option.ite_none_right_eq_some.mp hstep
    refine waits_of_not_receives (h.not_ended (by simp [hphase])) ?_
    cases completed <;> rintro ⟨⟩
  | shutdown =>
    obtain ⟨hphase, ⟨⟩⟩ := Option.ite_none_right_eq_some.mp hstep
    exact waits_of_not_receives (h.not_ended (by simp [hphase])) (by rintro ⟨⟩)
  | abort =>
    obtain ⟨hphase, ⟨⟩⟩ := Option.ite_none_right_eq_some.mp hstep
    exact waits_of_not_receives (h.not_ended (by simp [hphase])) (by rintro ⟨⟩)

theorem reachable_waits (h : hlsUploads.Reachable uploads) : uploads.Waits :=
  h.invariant (fun _ hinit => hinit ▸ initial_waits) fun _ _ _ hinv hstep => hinv.step hstep

/-! ## What is left to do -/

theorem AssetTask.work_pos (task : AssetTask) : 0 < task.work := by
  rw [AssetTask.work]
  split <;> decide

/-- The work of the tasks, with one of them apart. -/
theorem tasksWork_eraseIdx {tasks : List AssetTask} {index : ℕ} {task : AssetTask}
    (h : tasks[index]? = some task) : (tasks.map AssetTask.work).sum =
      task.work + ((tasks.eraseIdx index).map AssetTask.work).sum := by
  obtain ⟨hindex, hget⟩ := List.getElem?_eq_some_iff.mp h
  have hperm := (List.getElem_cons_eraseIdx_perm hindex).map AssetTask.work
  rw [hget] at hperm
  exact hperm.sum_nat.symm

theorem tasksWork_set {tasks : List AssetTask} {index : ℕ} {task : AssetTask}
    (h : index < tasks.length) : ((tasks.set index task).map AssetTask.work).sum =
      task.work + ((tasks.eraseIdx index).map AssetTask.work).sum :=
  ((List.set_perm_cons_eraseIdx h task).map AssetTask.work).sum_nat

/-- A task is more work than the place it takes. -/
theorem work_register (uploads : HlsUploads) (name : String) :
    (uploads.register name).work + uploads.phase.work ≤ uploads.work + 10 := by
  rw [register]
  split
  · simp only [work, WorkerPhase.work]
    omega
  · simp only [work, WorkerPhase.work, AssetTask.work, List.map_append, List.sum_append, List.map_cons,
      List.map_nil, List.sum_cons, List.sum_nil, Option.isNone_none, if_true]
    omega

theorem work_reapTask {index : ℕ} (hphase : 4 ≤ uploads.phase.work)
    (hstep : uploads.reapTask index = some uploads') : uploads'.work < uploads.work := by
  obtain ⟨hindex, htasks, hmessages, hrecording, hnext⟩ := reapTask_cases hstep
  have hsum := tasksWork_eraseIdx (List.getElem?_eq_getElem hindex)
  have hpos := AssetTask.work_pos (uploads.tasks[index])
  have hle : uploads'.phase.work ≤ uploads.phase.work := by
    rcases hnext with hnext | hnext
    · rw [hnext]
      exact hphase
    · exact (congrArg WorkerPhase.work hnext).le
  simp only [work, htasks, hmessages, hrecording]
  omega

theorem work_receive (hphase : uploads.phase = .receiving) (hstep : uploads.receive = some uploads') :
    uploads'.work < uploads.work := by
  rw [receive] at hstep
  split at hstep
  · rename_i name messages hmessages
    obtain rfl := Option.some.inj hstep
    split
    · simp only [work, WorkerPhase.work, hphase, hmessages, List.length_cons]
      omega
    · have hregister := work_register { uploads with messages } name
      simp only [work, WorkerPhase.work, hphase, hmessages, List.length_cons] at hregister ⊢
      omega
  · rename_i messages hmessages
    obtain rfl := Option.some.inj hstep
    simp only [work, WorkerPhase.work, hphase, hmessages, List.length_cons]
    omega
  · rename_i messages hmessages
    obtain rfl := Option.some.inj hstep
    simp only [work, WorkerPhase.work, hphase, hmessages, List.length_cons]
    omega
  · split at hstep
    · obtain rfl := Option.some.inj hstep
      simp only [work, WorkerPhase.work, hphase]
      omega
    · cases hstep

theorem work_reap {index : ℕ} (hstep : uploads.reap index = some uploads') :
    uploads'.work < uploads.work := by
  rw [reap] at hstep
  split at hstep
  · rename_i name hphase
    obtain ⟨reaped, hreaped, rfl⟩ := Option.map_eq_some_iff.mp hstep
    have hless := work_reapTask (by simp [hphase, WorkerPhase.work]) hreaped
    split
    · exact hless
    · rename_i hgoes
      -- the phase is still the one that weighs as much as the new task
      obtain ⟨-, -, -, -, hnext⟩ := reapTask_cases hreaped
      have hregister := work_register reaped name
      rw [(hnext.resolve_left hgoes).trans hphase] at hregister
      simp only [WorkerPhase.work] at hregister
      omega
  · rename_i hphase
    exact work_reapTask (by simp [hphase, WorkerPhase.work]) hstep
  · cases hstep

end HlsUploads

/-- The label of an announcement. -/
def UploadStep.Announces : UploadStep → Prop
  | .announce _ => True
  | _ => False

namespace HlsUploads

/-- Every step but another announcement leaves less to do. -/
theorem work_step {label : UploadStep} (hsilent : uploads.recording.Silent) (hlabel : ¬ label.Announces)
    (hstep : uploads.step label = some uploads') : uploads'.work < uploads.work := by
  cases label with
  | spawn spawned =>
    obtain ⟨hspawning, -⟩ := Option.ite_none_right_eq_some.mp hstep
    rw [hspawning] at hsilent
    exact hsilent.elim
  | announce name => exact absurd trivial hlabel
  | record recorded =>
    obtain ⟨hrecording, -⟩ := Option.ite_none_right_eq_some.mp hstep
    rw [hrecording] at hsilent
    exact hsilent.elim
  | die =>
    obtain ⟨hrecording, -⟩ := Option.ite_none_right_eq_some.mp hstep
    rw [hrecording] at hsilent
    exact hsilent.elim
  | join =>
    rw [step] at hstep
    split at hstep
    · rename_i recorded completed hrecording hphase
      obtain rfl := Option.some.inj hstep
      simp only [work, join, hrecording, RecordingSide.work]
      omega
    · cases hstep
  | start started =>
    obtain ⟨⟨hphase, -⟩, ⟨⟩⟩ := Option.ite_none_right_eq_some.mp hstep
    cases started <;> simp [work, hphase, WorkerPhase.work]
  | receive =>
    obtain ⟨hphase, hreceived⟩ := Option.ite_none_right_eq_some.mp hstep
    exact work_receive hphase hreceived
  | taskEnds index uploaded =>
    rw [step] at hstep
    split at hstep
    · rename_i name htask
      obtain rfl := Option.some.inj hstep
      have hbefore := tasksWork_eraseIdx htask
      simp only [work, tasksWork_set (List.getElem?_eq_some_iff.mp htask).1, hbefore, AssetTask.work]
      simp
    · cases hstep
  | reap index => exact work_reap hstep
  | finish =>
    obtain ⟨⟨hphase, -⟩, ⟨⟩⟩ := Option.ite_none_right_eq_some.mp hstep
    simp only [work, hphase]
    split <;> simp [WorkerPhase.work]
  | parts uploaded =>
    obtain ⟨hphase, ⟨⟩⟩ := Option.ite_none_right_eq_some.mp hstep
    cases uploaded <;> simp [work, hphase, WorkerPhase.work]
  | complete completed =>
    obtain ⟨hphase, ⟨⟩⟩ := Option.ite_none_right_eq_some.mp hstep
    cases completed <;> simp [work, hphase, WorkerPhase.work]
  | shutdown =>
    obtain ⟨hphase, ⟨⟩⟩ := Option.ite_none_right_eq_some.mp hstep
    simp only [work, hphase, WorkerPhase.work, List.map_nil, List.sum_nil]
    omega
  | abort =>
    obtain ⟨hphase, ⟨⟩⟩ := Option.ite_none_right_eq_some.mp hstep
    simp [work, hphase, WorkerPhase.work]

/-- A task that is waited for ends, or is taken out of the set. -/
theorem task_enabled (hphase : uploads.phase = .draining ∨ ∃ name, uploads.phase = .reaping name)
    (htasks : uploads.tasks ≠ []) : ∃ label : UploadStep, ¬ label.Announces ∧
      (uploads.step label).isSome := by
  obtain ⟨task, tasks, hcons⟩ := List.exists_cons_of_ne_nil htasks
  obtain ⟨name, result⟩ := task
  cases result with
  | none =>
    refine ⟨.taskEnds 0 true, by rintro ⟨⟩, ?_⟩
    rw [step, hcons]
    rfl
  | some uploaded =>
    have hreaped : (uploads.reapTask 0).isSome := by
      rw [reapTask, hcons]
      cases uploaded <;> rfl
    refine ⟨.reap 0, by rintro ⟨⟩, ?_⟩
    rcases hphase with hphase | ⟨waiting, hphase⟩
    · simpa only [step, reap, hphase] using hreaped
    · simpa only [step, reap, hphase, Option.isSome_map] using hreaped

/-- The last message is there to be taken, or the sender is gone. -/
theorem Waits.receives (h : uploads.Waits) (hsilent : uploads.recording.Silent)
    (hphase : uploads.phase = .receiving) : uploads.receive.isSome := by
  rw [HlsUploads.receive]
  split
  · rfl
  · rfl
  · rfl
  · rename_i hempty
    cases hrecording : uploads.recording with
    | joining recorded =>
      obtain ⟨message, hmem, -⟩ := h.sent recorded hrecording (by rw [hphase]; trivial)
      rw [hempty] at hmem
      cases hmem
    | ended recorded => exact absurd hrecording (h.not_ended (by simp [hphase]) recorded)
    | died => rfl
    | spawning | recording =>
      rw [hrecording] at hsilent
      exact hsilent.elim

/-- Some step is possible until the worker is done. -/
theorem Waits.enabled (h : uploads.Waits) (hsilent : uploads.recording.Silent)
    (hdone : ∀ completed, uploads.phase ≠ .done completed) :
    ∃ label : UploadStep, ¬ label.Announces ∧ (uploads.step label).isSome := by
  cases hphase : uploads.phase with
  | starting =>
    have hspawned : uploads.recording ≠ .spawning := by
      intro hspawning
      rw [hspawning] at hsilent
      exact hsilent
    exact ⟨.start true, by rintro ⟨⟩, by simp [HlsUploads.step, hphase, hspawned]⟩
  | receiving =>
    have hreceives := h.receives hsilent hphase
    exact ⟨.receive, by rintro ⟨⟩, by simpa [HlsUploads.step, hphase] using hreceives⟩
  | reaping name => exact task_enabled (.inr ⟨name, hphase⟩) (h.full name hphase)
  | draining =>
    by_cases htasks : uploads.tasks = []
    · exact ⟨.finish, by rintro ⟨⟩, by simp [HlsUploads.step, hphase, htasks]⟩
    · exact task_enabled (.inl hphase) htasks
  | parts => exact ⟨.parts true, by rintro ⟨⟩, by simp [HlsUploads.step, hphase]⟩
  | completing => exact ⟨.complete true, by rintro ⟨⟩, by simp [HlsUploads.step, hphase]⟩
  | failing => exact ⟨.shutdown, by rintro ⟨⟩, by simp [HlsUploads.step, hphase]⟩
  | aborting => exact ⟨.abort, by rintro ⟨⟩, by simp [HlsUploads.step, hphase]⟩
  | done completed => exact absurd hphase (hdone completed)

/-- Never more than three assets are being uploaded, and the upload is completed only when everything
announced is on the server, `init.mp4` with it. A session that was started ends completed, or aborted after
its tasks were cancelled. The directory goes when the upload was completed, or with a recording that failed. -/
theorem incremental_upload_ends (h : hlsUploads.Reachable uploads) :
    uploads.tasks.length ≤ maxConcurrentHlsUploads ∧
    (uploads.completeCalled = true →
      "init.mp4" ∈ uploads.announced ∧ uploads.announced.Perm uploads.uploaded) ∧
    (uploads.abortCalled = true → uploads.tasks = []) ∧
    (∀ completed, uploads.phase = .done completed → uploads.sessionStarted = true →
      if completed then uploads.completeCalled = true ∧ uploads.abortCalled = false
      else uploads.abortCalled = true) ∧
    (uploads.directoryRemoved = true →
      uploads.recording = .ended false ∨ uploads.phase = .done true) ∧
    (uploads.recording.Silent →
      (∀ label uploads', ¬ label.Announces → uploads.step label = some uploads' →
        uploads'.work < uploads.work) ∧
      ((∀ completed, uploads.phase ≠ .done completed) →
        ∃ label, ¬ label.Announces ∧ (uploads.step label).isSome)) := by
  have hinv := reachable_inv h
  refine ⟨hinv.window, fun hcalled => (hinv.called hcalled).2.2, fun haborted => ?_, ?_, hinv.removed,
    fun hsilent => ⟨fun _ _ => work_step hsilent, (reachable_waits h).enabled hsilent⟩⟩
  · exact hinv.cancelled (.inr (hinv.abort haborted))
  · intro completed hdone hsession
    cases completed with
    | true => exact ⟨hinv.completed hdone, hinv.abortCalled_false (by simp [hdone])⟩
    | false => exact hinv.aborted hdone hsession

theorem incremental_upload_ends_completed : ∃ uploads : HlsUploads, uploads.phase = .done true ∧
    uploads.directoryRemoved = true ∧ "init.mp4" ∈ uploads.announced ∧
    uploads.announced.Perm uploads.uploaded := by
  have hrun : hlsUploads.Run .initial
      [.spawn true, .announce "init.mp4", .start true, .receive, .record true, .taskEnds 0 true, .receive,
        .reap 0, .finish, .parts true, .complete true, .join] _ :=
    .cons rfl (.cons rfl (.cons rfl (.cons rfl (.cons rfl (.cons rfl (.cons rfl (.cons rfl (.cons rfl
      (.cons rfl (.cons rfl (.cons rfl (.nil _))))))))))))
  obtain ⟨-, hcalled, -⟩ := incremental_upload_ends ⟨_, _, rfl, hrun⟩
  exact ⟨_, rfl, rfl, hcalled rfl⟩

/-- The recording failed, and its directory goes without a completion. -/
theorem failed_recording_removed : ∃ uploads, hlsUploads.Reachable uploads ∧
    uploads.directoryRemoved = true ∧ uploads.completeCalled = false := by
  have hrun : hlsUploads.Run .initial
      [.spawn true, .start true, .announce "init.mp4", .record false, .receive, .receive, .shutdown, .abort,
        .join] _ :=
    .cons rfl (.cons rfl (.cons rfl (.cons rfl (.cons rfl (.cons rfl (.cons rfl (.cons rfl (.cons rfl
      (.nil _)))))))))
  exact ⟨_, ⟨_, _, rfl, hrun⟩, rfl, rfl⟩

end HlsUploads

end Blip.Capture.AssetUploads
