import Blip.Capture.RecordThreads

/-!
# What is left of a recording that fails

An error before the threads, or after both are joined, leaves nothing behind. In between it depends on the
threads: one that is not joined must have nothing left to write, and the camera's must have been told.
-/

namespace Blip.Capture.Writers.Threads

variable {threads threads' : Threads}

/-! ## Threads with nothing left to write -/

def ScreenEnded (threads : Threads) : Prop :=
  ∀ thread ∈ threads.screen, ∃ saved, thread.phase = .ended saved

def CameraEnded (threads : Threads) : Prop :=
  ∀ thread ∈ threads.camera, ∃ saved, thread.phase = .ended saved

/-- The writer of the captured frames has ended, or there is nothing for it: once its channel is closed it
ends without a write. -/
def ScreenQuiet (threads : Threads) : Prop :=
  ∀ thread ∈ threads.screen, thread.phase = .running → threads.messages = [] ∧ thread.writer = false

/-- The writer of the camera's frames has ended, or it will before it writes: it is about to read the stop
flag, or its channel is closed and empty. -/
def CameraQuiet (threads : Threads) : Prop :=
  ∀ thread ∈ threads.camera, (∃ saved, thread.phase = .ended saved) ∨ thread.writer = false ∧
    (threads.cameraStop = true ∧ thread.phase = .checking ∨
      threads.cameraSender = false ∧ threads.cameraFrames = 0)

theorem ScreenEnded.quiet (h : threads.ScreenEnded) : threads.ScreenQuiet := by
  intro thread hthread hrunning
  obtain ⟨saved, hended⟩ := h thread hthread
  rw [hended] at hrunning
  cases hrunning

theorem CameraEnded.quiet (h : threads.CameraEnded) : threads.CameraQuiet :=
  fun thread hthread => .inl (h thread hthread)

/-- Where an error is returned: while a writer may still write it must be quiet. -/
def Fits (threads : Threads) : ThreadsStep → Prop
  | .fail =>
    match threads.phase with
    | .spawnWriter | .build | .finish | .joinWriter => threads.CameraQuiet
    | .start | .waiting | .stop => threads.CameraQuiet ∧ threads.ScreenQuiet
    | _ => True
  | _ => True

/-! ## The invariant -/

/-- What is known of the threads where `record` is. -/
def AtPhase (threads : Threads) : Prop :=
  match threads.phase with
  | .content | .spawnCamera => threads.screen = none ∧ threads.camera = none ∧ threads.messages = []
  | .spawnWriter => threads.screen = none ∧ threads.messages = []
  | .build => threads.ScreenQuiet
  | .start | .waiting | .stop | .finish | .joinWriter => True
  | .joinCamera => threads.ScreenEnded
  | .offsets | .recorded => threads.ScreenEnded ∧ threads.CameraEnded
  | .failed | .removed | .reported => threads.ScreenQuiet ∧ threads.CameraQuiet

structure Inv (threads : Threads) : Prop where
  phase : threads.AtPhase
  removed : threads.removed = true → threads.phase = .removed ∨ threads.phase = .reported
  late : threads.lateWrite = false

/-! ## The writers -/

/-- A step of a writer thread: whatever is known at a phase stays known, and it writes late only in a removed
directory that it was not quiet for. -/
structure WriterStep (threads threads' : Threads) : Prop where
  phase : threads'.phase = threads.phase
  removed : threads'.removed = threads.removed
  screenNone : threads.screen = none → threads'.screen = none ∧ threads'.messages = threads.messages
  cameraNone : threads.camera = none → threads'.camera = none
  screenEnded : threads.ScreenEnded → threads'.ScreenEnded
  cameraEnded : threads.CameraEnded → threads'.CameraEnded
  screenQuiet : threads.ScreenQuiet → threads'.ScreenQuiet
  cameraQuiet : threads.CameraQuiet → threads'.CameraQuiet
  late : threads'.lateWrite = threads.lateWrite ∨
    threads'.lateWrite = (threads.lateWrite || threads.removed) ∧
      ¬ (threads.ScreenQuiet ∧ threads.CameraQuiet)

theorem WriterStep.inv (h : WriterStep threads threads') (hinv : threads.Inv) : threads'.Inv := by
  have hphase := hinv.phase
  refine ⟨?_, ?_, ?_⟩
  · rw [AtPhase] at hphase ⊢
    rw [h.phase]
    split at hphase
    · obtain ⟨hnone, hmessages⟩ := h.screenNone hphase.1
      exact ⟨hnone, h.cameraNone hphase.2.1, hmessages.trans hphase.2.2⟩
    · obtain ⟨hnone, hmessages⟩ := h.screenNone hphase.1
      exact ⟨hnone, h.cameraNone hphase.2.1, hmessages.trans hphase.2.2⟩
    · obtain ⟨hnone, hmessages⟩ := h.screenNone hphase.1
      exact ⟨hnone, hmessages.trans hphase.2⟩
    · exact h.screenQuiet hphase
    · trivial
    · trivial
    · trivial
    · trivial
    · trivial
    · exact h.screenEnded hphase
    · exact ⟨h.screenEnded hphase.1, h.cameraEnded hphase.2⟩
    · exact ⟨h.screenEnded hphase.1, h.cameraEnded hphase.2⟩
    · exact ⟨h.screenQuiet hphase.1, h.cameraQuiet hphase.2⟩
    · exact ⟨h.screenQuiet hphase.1, h.cameraQuiet hphase.2⟩
    · exact ⟨h.screenQuiet hphase.1, h.cameraQuiet hphase.2⟩
  · rw [h.removed, h.phase]
    exact hinv.removed
  · rcases h.late with hlate | ⟨hlate, hloud⟩
    · exact hlate.trans hinv.late
    · rw [hlate, hinv.late, Bool.false_or]
      by_contra hremoved
      have hquiet : threads.ScreenQuiet ∧ threads.CameraQuiet := by
        rw [AtPhase] at hphase
        rcases hinv.removed (by simpa using hremoved) with heq | heq
        · rw [heq] at hphase
          exact hphase
        · rw [heq] at hphase
          exact hphase
      exact hloud hquiet

/-- A step of the writer of the captured frames, which is running. -/
theorem writerStep_of_screen {thread next : WriterThread} (hthread : threads.screen = some thread)
    (hrunning : thread.phase = .running) (hnext : threads'.screen = some next)
    (hphase : threads'.phase = threads.phase) (hremoved : threads'.removed = threads.removed)
    (hcamera : threads'.camera = threads.camera)
    (hflags : threads'.cameraStop = threads.cameraStop ∧ threads'.cameraSender = threads.cameraSender ∧
      threads'.cameraFrames = threads.cameraFrames)
    (hquiet : threads.messages = [] → thread.writer = false → next.phase ≠ .running)
    (hlate : threads'.lateWrite = threads.lateWrite ∨
      threads'.lateWrite = (threads.lateWrite || threads.removed) ∧
        ¬ (threads.messages = [] ∧ thread.writer = false)) : WriterStep threads threads' where
  phase := hphase
  removed := hremoved
  screenNone := by
    intro hnone
    rw [hthread] at hnone
    cases hnone
  cameraNone := hcamera.trans
  screenEnded := by
    intro hended
    obtain ⟨saved, hsaved⟩ := hended thread hthread
    rw [hrunning] at hsaved
    cases hsaved
  cameraEnded := by
    intro hended
    rw [CameraEnded, hcamera]
    exact hended
  screenQuiet := by
    intro hscreen other hother hrun
    obtain rfl : next = other := Option.some.inj (hnext.symm.trans hother)
    obtain ⟨hmessages, hwriter⟩ := hscreen thread hthread hrunning
    exact absurd hrun (hquiet hmessages hwriter)
  cameraQuiet := by
    intro hquiet
    obtain ⟨hstop, hsender, hframes⟩ := hflags
    rw [CameraQuiet, hcamera, hstop, hsender, hframes]
    exact hquiet
  late := hlate.imp_right fun h => ⟨h.1, fun hquiet => h.2 (hquiet.1 thread hthread hrunning)⟩

theorem write_step {saved : Bool} (h : threads.write saved = some threads') :
    WriterStep threads threads' := by
  rw [write] at h
  split at h
  · rename_i thread hthread
    split at h
    · rename_i hrunning
      split at h
      · rename_i messages hmessages
        obtain rfl := Option.some.inj h
        exact writerStep_of_screen hthread hrunning rfl rfl rfl rfl ⟨rfl, rfl, rfl⟩
          (by simp [hmessages]) (.inr ⟨rfl, by simp [hmessages]⟩)
      · rename_i messages hmessages
        split at h
        · obtain rfl := Option.some.inj h
          exact writerStep_of_screen hthread hrunning rfl rfl rfl rfl ⟨rfl, rfl, rfl⟩
            (by simp [hmessages]) (.inr ⟨rfl, by simp [hmessages]⟩)
        · split at h
          · obtain rfl := Option.some.inj h
            exact writerStep_of_screen hthread hrunning rfl rfl rfl rfl ⟨rfl, rfl, rfl⟩
              (by simp [hmessages]) (.inr ⟨rfl, by simp [hmessages]⟩)
          · obtain rfl := Option.some.inj h
            exact writerStep_of_screen hthread hrunning hthread rfl rfl rfl ⟨rfl, rfl, rfl⟩
              (by simp [hmessages]) (.inl rfl)
      · rename_i messages hmessages
        obtain rfl := Option.some.inj h
        rw [finishWriter]
        split
        · exact writerStep_of_screen hthread hrunning rfl rfl rfl rfl ⟨rfl, rfl, rfl⟩
            (by simp) (.inr ⟨rfl, by simp [hmessages]⟩)
        · exact writerStep_of_screen hthread hrunning rfl rfl rfl rfl ⟨rfl, rfl, rfl⟩
            (by simp) (.inl rfl)
      · split at h
        · cases h
        · obtain rfl := Option.some.inj h
          rw [finishWriter]
          split
          · rename_i hwriter
            exact writerStep_of_screen hthread hrunning rfl rfl rfl rfl ⟨rfl, rfl, rfl⟩
              (by simp) (.inr ⟨rfl, by simp [hwriter]⟩)
          · exact writerStep_of_screen hthread hrunning rfl rfl rfl rfl ⟨rfl, rfl, rfl⟩
              (by simp) (.inl rfl)
    · cases h
  · cases h

/-- A step of the writer of the camera's frames, which has not ended. -/
theorem writerStep_of_camera {thread next : CameraThread} (hthread : threads.camera = some thread)
    (hrunning : ∀ saved, thread.phase ≠ .ended saved) (hnext : threads'.camera = some next)
    (hphase : threads'.phase = threads.phase) (hremoved : threads'.removed = threads.removed)
    (hscreen : threads'.screen = threads.screen ∧ threads'.messages = threads.messages)
    (hquiet : thread.writer = false → threads.cameraStop = true ∧ thread.phase = .checking ∨
      threads.cameraSender = false ∧ threads.cameraFrames = 0 →
      (∃ saved, next.phase = .ended saved) ∨ next.writer = false ∧
        threads'.cameraSender = false ∧ threads'.cameraFrames = 0)
    (hlate : threads'.lateWrite = threads.lateWrite ∨
      threads'.lateWrite = (threads.lateWrite || threads.removed) ∧
        ¬ (thread.writer = false ∧ (threads.cameraStop = true ∧ thread.phase = .checking ∨
          threads.cameraSender = false ∧ threads.cameraFrames = 0))) :
    WriterStep threads threads' where
  phase := hphase
  removed := hremoved
  screenNone := fun hnone => ⟨hscreen.1.trans hnone, hscreen.2⟩
  cameraNone := by
    intro hnone
    rw [hthread] at hnone
    cases hnone
  screenEnded := by
    intro hended
    rw [ScreenEnded, hscreen.1]
    exact hended
  cameraEnded := by
    intro hended
    obtain ⟨saved, hsaved⟩ := hended thread hthread
    exact absurd hsaved (hrunning saved)
  screenQuiet := by
    intro hquiet
    rw [ScreenQuiet, hscreen.1, hscreen.2]
    exact hquiet
  cameraQuiet := by
    intro hcamera other hother
    obtain rfl : next = other := Option.some.inj (hnext.symm.trans hother)
    rcases hcamera thread hthread with ⟨saved, hsaved⟩ | ⟨hwriter, htold⟩
    · exact absurd hsaved (hrunning saved)
    · exact (hquiet hwriter htold).imp_right fun h => ⟨h.1, .inr h.2⟩
  late := by
    refine hlate.imp_right fun h => ⟨h.1, fun hquiet => ?_⟩
    rcases hquiet.2 thread hthread with ⟨saved, hsaved⟩ | htold
    · exact hrunning saved hsaved
    · exact h.2 htold

theorem finishCamera_step {thread : CameraThread} {saved : Bool}
    (hthread : threads.camera = some thread) (hrunning : ∀ saved, thread.phase ≠ .ended saved) :
    WriterStep threads (threads.finishCamera thread saved) := by
  rw [finishCamera]
  split
  · rename_i hwriter
    exact writerStep_of_camera hthread hrunning rfl rfl rfl ⟨rfl, rfl⟩ (fun _ _ => .inl ⟨saved, rfl⟩)
      (.inr ⟨rfl, by simp [hwriter]⟩)
  · exact writerStep_of_camera hthread hrunning rfl rfl rfl ⟨rfl, rfl⟩ (fun _ _ => .inl ⟨false, rfl⟩)
      (.inl rfl)

theorem writeCamera_step {skipped saved : Bool} (h : threads.writeCamera skipped saved = some threads') :
    WriterStep threads threads' := by
  rw [writeCamera] at h
  split at h
  · rename_i thread hthread
    split at h
    · rename_i hchecking
      have hrunning : ∀ saved, thread.phase ≠ .ended saved := by simp [hchecking]
      split at h
      · obtain rfl := Option.some.inj h
        exact finishCamera_step hthread hrunning
      · rename_i hstop
        obtain rfl := Option.some.inj h
        exact writerStep_of_camera hthread hrunning rfl rfl rfl ⟨rfl, rfl⟩
          (fun hwriter htold => .inr ⟨hwriter, htold.resolve_left fun hflag => hstop hflag.1⟩) (.inl rfl)
    · rename_i hreceiving
      have hrunning : ∀ saved, thread.phase ≠ .ended saved := by simp [hreceiving]
      split at h
      · rename_i hframes
        -- a frame is there, so the thread is not quiet
        have hloud : ¬ (threads.cameraStop = true ∧ thread.phase = .checking ∨
            threads.cameraSender = false ∧ threads.cameraFrames = 0) := by
          rintro (⟨-, hchecking⟩ | ⟨-, hempty⟩)
          · rw [hreceiving] at hchecking
            cases hchecking
          · omega
        dsimp only at h
        split at h
        · obtain rfl := Option.some.inj h
          exact writerStep_of_camera hthread hrunning rfl rfl rfl ⟨rfl, rfl⟩
            (fun _ htold => absurd htold hloud) (.inl rfl)
        · obtain rfl := Option.some.inj h
          exact writerStep_of_camera hthread hrunning rfl rfl rfl ⟨rfl, rfl⟩
            (fun _ htold => absurd htold hloud) (.inr ⟨rfl, fun hquiet => hloud hquiet.2⟩)
      · split at h
        · rename_i hsender
          obtain rfl := Option.some.inj h
          refine writerStep_of_camera hthread hrunning rfl rfl rfl ⟨rfl, rfl⟩ (fun _ htold => ?_) (.inl rfl)
          rcases htold with ⟨-, hchecking⟩ | ⟨hclosed, -⟩
          · rw [hreceiving] at hchecking
            cases hchecking
          · rw [hsender] at hclosed
            cases hclosed
        · obtain rfl := Option.some.inj h
          exact finishCamera_step hthread hrunning
    · cases h
  · cases h

theorem deliverCamera_step (hsender : threads.cameraSender = true) :
    WriterStep threads { threads with cameraFrames := threads.cameraFrames + 1 } where
  phase := rfl
  removed := rfl
  screenNone := fun hnone => ⟨hnone, rfl⟩
  cameraNone := fun hnone => hnone
  screenEnded := fun hended => hended
  cameraEnded := fun hended => hended
  screenQuiet := fun hquiet => hquiet
  cameraQuiet := by
    intro hquiet thread hthread
    refine (hquiet thread hthread).imp_right fun htold => ⟨htold.1, htold.2.imp_right fun hclosed => ?_⟩
    rw [hsender] at hclosed
    cases hclosed.1
  late := .inl rfl

theorem closeCamera_step : WriterStep threads { threads with cameraSender := false } where
  phase := rfl
  removed := rfl
  screenNone := fun hnone => ⟨hnone, rfl⟩
  cameraNone := fun hnone => hnone
  screenEnded := fun hended => hended
  cameraEnded := fun hended => hended
  screenQuiet := fun hquiet => hquiet
  cameraQuiet := by
    intro hquiet thread hthread
    exact (hquiet thread hthread).imp_right fun htold =>
      ⟨htold.1, htold.2.imp_right fun hclosed => ⟨rfl, hclosed.2⟩⟩
  late := .inl rfl

/-! ## `record` -/

/-- The recording thread goes on, and the directory is there. -/
theorem Inv.goOn (h : threads.Inv) (hkept : threads'.removed = threads.removed)
    (hlate : threads'.lateWrite = threads.lateWrite)
    (hbefore : threads.phase ≠ .removed ∧ threads.phase ≠ .reported) (hphase : threads'.AtPhase) :
    threads'.Inv where
  phase := hphase
  removed := by
    intro hremoved
    rcases h.removed (hkept ▸ hremoved) with heq | heq
    · exact absurd heq hbefore.1
    · exact absurd heq hbefore.2
  late := hlate.trans h.late

theorem screenEnded_of_any {ended : WriterThread → Bool} (h : threads.screen.any ended = true)
    (hended : ∀ thread, ended thread = true → ∃ saved, thread.phase = .ended saved) :
    threads.ScreenEnded := by
  intro thread hthread
  obtain ⟨joined, hjoined, hphase⟩ := (Option.any_eq_true _ _).mp h
  obtain rfl : joined = thread := Option.some.inj (hjoined.symm.trans hthread)
  exact hended joined hphase

theorem cameraEnded_of_any {saved : Bool}
    (h : threads.camera.any (fun thread => thread.phase == .ended saved) = true) :
    threads.CameraEnded := by
  intro thread hthread
  obtain ⟨joined, hjoined, hphase⟩ := (Option.any_eq_true _ _).mp h
  obtain rfl : joined = thread := Option.some.inj (hjoined.symm.trans hthread)
  exact ⟨saved, by simpa using hphase⟩

theorem Inv.proceed (h : threads.Inv) (hstep : threads.proceed = some threads') : threads'.Inv := by
  have hphase := h.phase
  rw [AtPhase] at hphase
  rw [Threads.proceed] at hstep
  -- one goal for each phase, in the order of `proceed`; a join waits for its thread's end
  split at hstep
  · rename_i heq
    rw [heq] at hphase
    obtain rfl := Option.some.inj hstep
    exact h.goOn rfl rfl (by simp [heq]) hphase
  · rename_i heq
    rw [heq] at hphase
    obtain rfl := Option.some.inj hstep
    exact h.goOn rfl rfl (by simp [heq]) ⟨hphase.1, hphase.2.2⟩
  · rename_i heq
    rw [heq] at hphase
    obtain rfl := Option.some.inj hstep
    refine h.goOn rfl rfl (by simp [heq]) ?_
    rintro thread ⟨⟩ -
    exact ⟨hphase.2, rfl⟩
  · rename_i heq
    obtain rfl := Option.some.inj hstep
    exact h.goOn rfl rfl (by simp [heq]) trivial
  · rename_i heq
    obtain rfl := Option.some.inj hstep
    exact h.goOn rfl rfl (by simp [heq]) trivial
  · rename_i heq
    obtain rfl := Option.some.inj hstep
    exact h.goOn rfl rfl (by simp [heq]) trivial
  · rename_i heq
    obtain rfl := Option.some.inj hstep
    exact h.goOn rfl rfl (by simp [heq]) trivial
  · rename_i heq
    split at hstep
    · obtain rfl := Option.some.inj hstep
      exact h.goOn rfl rfl (by simp [heq]) trivial
    · cases hstep
  · rename_i heq
    split at hstep
    · rename_i hjoined
      obtain rfl := Option.some.inj hstep
      have hended : threads.ScreenEnded := by
        refine screenEnded_of_any hjoined fun thread hthread => ⟨true, ?_⟩
        simpa using hthread
      refine h.goOn rfl rfl (by simp [heq]) ?_
      cases hcamera : threads.camera with
      | some thread => exact hended
      | none =>
        refine ⟨hended, ?_⟩
        rintro thread ⟨⟩
    · cases hstep
  · rename_i heq
    rw [heq] at hphase
    split at hstep
    · rename_i hjoined
      obtain rfl := Option.some.inj hstep
      exact h.goOn rfl rfl (by simp [heq]) ⟨hphase, cameraEnded_of_any hjoined⟩
    · cases hstep
  · rename_i heq
    rw [heq] at hphase
    obtain rfl := Option.some.inj hstep
    exact h.goOn rfl rfl (by simp [heq]) hphase
  · cases hstep
  · cases hstep
  · cases hstep
  · cases hstep

theorem screenQuiet_of_none (h : threads.screen = none) : threads.ScreenQuiet := by
  intro thread hthread
  rw [h] at hthread
  cases hthread

theorem cameraQuiet_of_none (h : threads.camera = none) : threads.CameraQuiet := by
  intro thread hthread
  rw [h] at hthread
  cases hthread

/-- Where an error is returned that fits, both writers are quiet. -/
theorem Inv.fail (h : threads.Inv) (hfits : threads.Fits .fail) (hstep : threads.fail = some threads') :
    threads'.Inv := by
  have hphase := h.phase
  rw [AtPhase] at hphase
  rw [Fits] at hfits
  -- the error leaves the threads and the channels as they were
  have hfailed : threads.ScreenQuiet ∧ threads.CameraQuiet →
      threads.phase ≠ .removed ∧ threads.phase ≠ .reported → Inv { threads with phase := .failed } :=
    fun hquiet hbefore => h.goOn rfl rfl hbefore hquiet
  have hended : threads.screen.any (fun thread => thread.phase != .running) = true →
      threads.ScreenQuiet := by
    intro hany
    refine (screenEnded_of_any hany fun thread hthread => ?_).quiet
    cases hrunning : thread.phase with
    | running => simp [hrunning] at hthread
    | ended saved => exact ⟨saved, rfl⟩
  rw [Threads.fail] at hstep
  -- again a goal for each phase; a join fails where its thread has ended without saving
  split at hstep
  all_goals rename_i heq; rw [heq] at hphase hfits
  · obtain rfl := Option.some.inj hstep
    exact hfailed ⟨screenQuiet_of_none hphase.1, cameraQuiet_of_none hphase.2.1⟩ (by simp [heq])
  · obtain rfl := Option.some.inj hstep
    exact hfailed ⟨screenQuiet_of_none hphase.1, hfits⟩ (by simp [heq])
  · obtain rfl := Option.some.inj hstep
    exact hfailed ⟨hphase, hfits⟩ (by simp [heq])
  · obtain rfl := Option.some.inj hstep
    exact hfailed ⟨hfits.2, hfits.1⟩ (by simp [heq])
  · obtain rfl := Option.some.inj hstep
    exact hfailed ⟨hfits.2, hfits.1⟩ (by simp [heq])
  · obtain rfl := Option.some.inj hstep
    exact hfailed ⟨hfits.2, hfits.1⟩ (by simp [heq])
  · obtain rfl := Option.some.inj hstep
    exact hfailed ⟨hphase.1.quiet, hphase.2.quiet⟩ (by simp [heq])
  · split at hstep
    · obtain rfl := Option.some.inj hstep
      exact hfailed ⟨screenQuiet_of_none hphase.1, cameraQuiet_of_none hphase.2.1⟩ (by simp [heq])
    · cases hstep
  · split at hstep
    · rename_i hany
      obtain rfl := Option.some.inj hstep
      exact hfailed ⟨hended hany, hfits⟩ (by simp [heq])
    · cases hstep
  · split at hstep
    · rename_i hany
      obtain rfl := Option.some.inj hstep
      exact hfailed ⟨hended hany, hfits⟩ (by simp [heq])
    · cases hstep
  · split at hstep
    · rename_i hany
      obtain rfl := Option.some.inj hstep
      exact hfailed ⟨hphase.quiet, (cameraEnded_of_any hany).quiet⟩ (by simp [heq])
    · cases hstep
  · cases hstep
  · cases hstep
  · cases hstep
  · cases hstep

theorem Inv.step {label : ThreadsStep} (h : threads.Inv) (hfits : threads.Fits label)
    (hstep : threads.step label = some threads') : threads'.Inv := by
  have hphase := h.phase
  cases label with
  | proceed => exact h.proceed hstep
  | fail => exact h.fail hfits hstep
  | cleanUp =>
    obtain ⟨heq, ⟨⟩⟩ := Option.ite_none_right_eq_some.mp hstep
    rw [AtPhase, heq] at hphase
    exact ⟨hphase, fun _ => .inl rfl, h.late⟩
  | report =>
    obtain ⟨heq, ⟨⟩⟩ := Option.ite_none_right_eq_some.mp hstep
    rw [AtPhase, heq] at hphase
    exact ⟨hphase, fun _ => .inr rfl, h.late⟩
  | deliver message =>
    obtain ⟨⟨hopen, -⟩, ⟨⟩⟩ := Option.ite_none_right_eq_some.mp hstep
    rcases hopen with heq | heq | heq
    all_goals
      refine h.goOn rfl rfl (by simp [heq]) ?_
      rw [AtPhase]
      dsimp only
      rw [heq]
      trivial
  | write saved => exact (write_step hstep).inv h
  | deliverCamera =>
    obtain ⟨hsender, ⟨⟩⟩ := Option.ite_none_right_eq_some.mp hstep
    exact (deliverCamera_step hsender).inv h
  | closeCamera =>
    obtain rfl := Option.some.inj hstep
    exact closeCamera_step.inv h
  | writeCamera skipped saved => exact (writeCamera_step hstep).inv h

/-! ## Every run -/

/-- The writer of the captured frames has ended, or its channel is closed, or the finish message is in it. -/
def ScreenTold (threads : Threads) : Prop :=
  ∀ thread ∈ threads.screen, (∃ saved, thread.phase = .ended saved) ∨ threads.senderOpen = false ∨
    .finish ∈ threads.messages

/-- The writer of the camera's frames has ended, or its channel is closed, or the stop flag is set. -/
def CameraTold (threads : Threads) : Prop :=
  ∀ thread ∈ threads.camera, (∃ saved, thread.phase = .ended saved) ∨ threads.cameraSender = false ∨
    threads.cameraStop = true

theorem Inv.told (h : threads.Inv)
    (hfailed : threads.phase = .failed ∨ threads.phase = .removed ∨ threads.phase = .reported) :
    threads.ScreenTold ∧ threads.CameraTold := by
  have hphase := h.phase
  have hquiet : threads.CameraQuiet := by
    rw [AtPhase] at hphase
    rcases hfailed with heq | heq | heq
    all_goals
      rw [heq] at hphase
      exact hphase.2
  refine ⟨fun thread hthread => .inr (.inl ?_), fun thread hthread => ?_⟩
  · rcases hfailed with heq | heq | heq
    all_goals simp [senderOpen, heq]
  · refine (hquiet thread hthread).imp_right fun htold => ?_
    rcases htold.2 with hflag | hclosed
    · exact .inr hflag.1
    · exact .inl hclosed.1

/-- In a run whose errors fit, both writers are told to stop before the directory is removed or the failure
reported, and nothing is written to it afterwards. -/
theorem failures_leave_nothing (threads : Threads)
    (h : (recordThreads.restrict Fits).Reachable threads) :
    (threads.phase = .failed ∨ threads.phase = .removed ∨ threads.phase = .reported →
      threads.ScreenTold ∧ threads.CameraTold) ∧ threads.lateWrite = false := by
  have hinv : threads.Inv := by
    refine h.invariant ?_ fun _ _ _ hinv hstep => hinv.step hstep.1 hstep.2
    rintro _ ⟨cameraRecording, bundleAudio, cleanupOnFailure, cameraFrames, rfl⟩
    exact ⟨⟨rfl, rfl, rfl⟩, by rintro ⟨⟩, rfl⟩
  exact ⟨hinv.told, hinv.late⟩

theorem failures_leave_nothing_writer : ∃ threads : Threads, threads.phase = .reported ∧
    threads.removed = true ∧ (threads.ScreenTold ∧ threads.CameraTold) ∧ threads.lateWrite = false := by
  have hrun : (recordThreads.restrict Fits).Run (starting false false true 0)
      [.proceed, .proceed, .proceed, .fail, .cleanUp, .report] _ :=
    .cons ⟨trivial, rfl⟩ (.cons ⟨trivial, rfl⟩ (.cons ⟨trivial, rfl⟩
      (.cons ⟨cameraQuiet_of_none rfl, rfl⟩ (.cons ⟨trivial, rfl⟩ (.cons ⟨trivial, rfl⟩ (.nil _))))))
  obtain ⟨htold, hlate⟩ := failures_leave_nothing _ ⟨_, _, ⟨_, _, _, _, rfl⟩, hrun⟩
  exact ⟨_, rfl, rfl, htold (.inr (.inr rfl)), hlate⟩

/-- The capturer does not start, and the camera's writer goes on; the stop sender is dropped with a frame in
the channel, and the writer creates its file in a directory that is gone. -/
theorem writers_outlive_failure :
    (∃ threads, recordThreads.Reachable threads ∧ threads.phase = .reported ∧ ¬ threads.CameraTold) ∧
    ∃ threads, recordThreads.Reachable threads ∧ threads.cameraRecording = false ∧
      threads.phase = .reported ∧ threads.lateWrite = true := by
  constructor
  · have hrun : recordThreads.Run (starting true false true 1)
        [.proceed, .proceed, .proceed, .proceed, .fail, .cleanUp, .report] _ :=
      .cons rfl (.cons rfl (.cons rfl (.cons rfl (.cons rfl (.cons rfl (.cons rfl (.nil _)))))))
    refine ⟨_, ⟨_, _, ⟨_, _, _, _, rfl⟩, hrun⟩, rfl, fun htold => ?_⟩
    rcases htold _ rfl with ⟨saved, hended⟩ | hclosed | hflag
    · cases hended
    · cases hclosed
    · cases hflag
  · have hrun : recordThreads.Run (starting false false true 0)
        [.proceed, .proceed, .proceed, .proceed, .proceed, .deliver .frame, .fail, .cleanUp, .report,
          .write true] _ :=
      .cons rfl (.cons rfl (.cons rfl (.cons rfl (.cons rfl (.cons rfl (.cons rfl (.cons rfl
        (.cons rfl (.cons rfl (.nil _))))))))))
    exact ⟨_, ⟨_, _, ⟨_, _, _, _, rfl⟩, hrun⟩, rfl, rfl, rfl⟩

end Blip.Capture.Writers.Threads
