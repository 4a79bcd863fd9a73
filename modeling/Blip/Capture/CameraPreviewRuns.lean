import Blip.Capture.CameraPreview
import Mathlib.Tactic.Linarith
import Mathlib.Tactic.FieldSimp

/-!
# What the camera preview shows

Once the camera, the compositor and the window have done what they can, the window shows the frame that
was submitted last, in the style that was asked for last, and this is the newest frame unless a newer one
was captured while a change of the style submitted it again. The controls are shown while the pointer is
over the window, and hidden by the newest timer alone. A drag keeps the aspect ratio of the preview and
the corner opposite to the one that is dragged.
-/

namespace Blip.Capture

/-! ## Frames -/

@[simp] theorem CameraCrop.fromAtomic_atomicValue (style : CameraCrop) :
    CameraCrop.fromAtomic style.atomicValue = style := by
  cases style <;> rfl

namespace CameraPreview

variable {Frame : Type} {s s' : CameraPreview Frame}

/-- The frame is the one that was submitted last, in the style that was asked for, unless a change of the
style has still to submit a frame. -/
def Carries (s : CameraPreview Frame) (frame : Frame) (style : CameraCrop) : Prop :=
  s.submitted = some frame ∧ (s.cycling = .idle → style = s.requestedStyle)

/-- What holds while the compositor has not failed to start. The newest picture is at the last place of
the way from the camera to the window that holds one. -/
structure Live (s : CameraPreview Frame) : Prop where
  shared : s.sharedStyle = s.requestedStyle.atomicValue
  capturing : ∀ frame, s.capturing = some frame → s.latestCameraFrame = some frame
  cycling : ∀ frame, s.cycling = .read frame → s.latestCameraFrame ≠ none
  submitted : s.submitted ≠ none → s.latestCameraFrame ≠ none
  fresh : s.overtaken = false → s.capturing = none → s.submitted = s.latestCameraFrame
  overtaken : s.overtaken = true → s.submitted ≠ none
  starting : s.processor = .starting →
    s.processorFrames = s.submitted ∧ s.processedFrames = none ∧ s.frame = none
  waiting : ∀ frame, s.processorFrames = some frame → s.submitted = some frame
  received : s.processorFrames = none → ∀ frame, s.processor = .received frame →
    s.submitted = some frame
  rendering : s.processorFrames = none → ∀ frame style, s.processor = .rendering frame style →
    s.Carries frame style
  processed : s.processorFrames = none → s.processor = .idle →
    ∀ frame style, s.processedFrames = some (.ok (frame, style)) → s.Carries frame style
  shown : s.processorFrames = none → s.processor = .idle → s.processedFrames = none → s.error = none →
    s.submitted = none ∧ s.frame = none ∨
      ∃ frame, s.frame = some (frame, s.style) ∧ s.Carries frame s.style

theorem submit_of_running (h : s.processor ≠ .stopped) (frame : Frame) :
    s.submit frame = { s with processorFrames := some frame, submitted := some frame } := by
  unfold submit
  split
  · contradiction
  · rfl

theorem Live.window [DecidableEq Frame] {label : CameraStep Frame} (live : s.Live)
    (hrunning : s.processor ≠ .stopped) (h : s.window label = some s') : s'.Live := by
  unfold CameraPreview.window at h
  split at h
  · split at h
    · cases h
    · split at h <;> obtain rfl := Option.some.inj h
      · exact { live with }
      · exact { live with shown := fun _ _ _ herror => nomatch herror }
  · split at h
    · obtain rfl := Option.some.inj h
      exact
        { live with
          shared := rfl
          cycling := nofun
          rendering := fun hframes frame style hprocessor =>
            ⟨(live.rendering hframes frame style hprocessor).1, nofun⟩
          processed := fun hframes hprocessor frame style hprocessed =>
            ⟨(live.processed hframes hprocessor frame style hprocessed).1, nofun⟩
          shown := fun hframes hprocessor hprocessed herror =>
            (live.shown hframes hprocessor hprocessed herror).imp_right
              fun ⟨frame, hframe, hcarries⟩ => ⟨frame, hframe, hcarries.1, nofun⟩ }
    · cases h
  · split at h
    · -- no frame was captured, so none was submitted
      rename_i hlatest
      obtain rfl := Option.some.inj h
      have hsubmitted : ∀ frame, s.submitted ≠ some frame := fun frame hframe =>
        live.submitted (by rw [hframe]; nofun) hlatest
      exact
        { live with
          cycling := nofun
          rendering := fun hframes frame style hprocessor =>
            (hsubmitted frame (live.rendering hframes frame style hprocessor).1).elim
          processed := fun hframes hprocessor frame style hprocessed =>
            (hsubmitted frame (live.processed hframes hprocessor frame style hprocessed).1).elim
          shown := fun hframes hprocessor hprocessed herror =>
            (live.shown hframes hprocessor hprocessed herror).imp_right
              fun ⟨frame, _, hcarries⟩ => (hsubmitted frame hcarries.1).elim }
    · rename_i hcycling hlatest
      obtain rfl := Option.some.inj h
      exact
        { live with
          cycling := fun _ _ hnone => nomatch hlatest.symm.trans hnone
          rendering := fun hframes frame style hprocessor =>
            ⟨(live.rendering hframes frame style hprocessor).1, nofun⟩
          processed := fun hframes hprocessor frame style hprocessed =>
            ⟨(live.processed hframes hprocessor frame style hprocessed).1, nofun⟩
          shown := fun hframes hprocessor hprocessed herror =>
            (live.shown hframes hprocessor hprocessed herror).imp_right
              fun ⟨frame, hframe, hcarries⟩ => ⟨frame, hframe, hcarries.1, nofun⟩ }
    · cases h
  · split at h
    · rename_i frame hcycling
      obtain rfl := Option.some.inj h
      rw [submit_of_running hrunning]
      exact
        { live with
          cycling := nofun
          submitted := fun _ => live.cycling frame hcycling
          fresh := fun hlatest _ => (not_not.1 (of_decide_eq_false hlatest)).symm
          overtaken := nofun
          starting := fun hprocessor => ⟨rfl, (live.starting hprocessor).2⟩
          waiting := fun _ hframes => hframes
          received := nofun
          rendering := nofun
          processed := nofun
          shown := nofun }
    · cases h
  · split at h
    · rename_i result hcycling _ hprocessed
      obtain rfl := Option.some.inj h
      have hstarting : s.processor ≠ .starting := fun hprocessor =>
        nomatch hprocessed.symm.trans (live.starting hprocessor).2.1
      unfold take
      split
      · rename_i frame style
        exact
          { live with
            starting := fun hprocessor => (hstarting hprocessor).elim
            processed := nofun
            shown := fun hframes hprocessor _ _ =>
              .inr ⟨frame, rfl, live.processed hframes hprocessor frame style hprocessed⟩ }
      · exact
          { live with
            starting := fun hprocessor => (hstarting hprocessor).elim
            processed := nofun
            shown := fun _ _ _ herror => nomatch herror }
    · cases h
  · cases h

theorem Live.camera {label : CameraStep Frame} (live : s.Live) (hrunning : s.processor ≠ .stopped)
    (h : s.camera label = some s') : s'.Live := by
  unfold CameraPreview.camera at h
  split at h
  · split at h
    · obtain rfl := Option.some.inj h
      exact
        { live with
          capturing := fun _ hcapturing => hcapturing
          cycling := nofun
          submitted := nofun
          fresh := nofun }
    · cases h
  · split at h
    · rename_i frame hcapturing
      have hlatest : s.latestCameraFrame = some frame := live.capturing frame hcapturing
      obtain rfl := Option.some.inj h
      rw [submit_of_running hrunning]
      exact
        { live with
          capturing := nofun
          submitted := fun _ hnone => nomatch hlatest.symm.trans hnone
          fresh := fun _ _ => hlatest.symm
          overtaken := nofun
          starting := fun hprocessor => ⟨rfl, (live.starting hprocessor).2⟩
          waiting := fun _ hframes => hframes
          received := nofun
          rendering := nofun
          processed := nofun
          shown := nofun }
    · cases h
  · cases h

theorem Live.process {label : CameraStep Frame} (live : s.Live) (h : s.process label = some s') :
    s'.processor = .stopped ∨ s'.Live := by
  unfold CameraPreview.process at h
  split at h
  · split at h
    · rename_i hprocessor
      obtain rfl := Option.some.inj h
      obtain ⟨hframes, hprocessed, hframe⟩ := live.starting hprocessor
      exact .inr
        { live with
          starting := nofun
          received := nofun
          rendering := nofun
          processed := fun _ _ _ _ hsome => nomatch hprocessed.symm.trans hsome
          shown := fun hnone _ _ _ => .inl ⟨hframes.symm.trans hnone, hframe⟩ }
    · obtain rfl := Option.some.inj h
      exact .inl rfl
    · cases h
  · split at h
    · rename_i frame _ hframes
      obtain rfl := Option.some.inj h
      refine .inr { live with starting := nofun, waiting := nofun, received := ?_, rendering := nofun,
                              processed := nofun, shown := nofun }
      rintro - _ ⟨⟩
      exact live.waiting frame hframes
    · cases h
  · split at h
    · rename_i frame hprocessor
      obtain rfl := Option.some.inj h
      refine .inr { live with starting := nofun, received := nofun, rendering := ?_,
                              processed := nofun, shown := nofun }
      rintro hframes _ _ ⟨⟩
      refine ⟨live.received hframes frame hprocessor, fun _ => ?_⟩
      rw [live.shared, CameraCrop.fromAtomic_atomicValue]
    · cases h
  · split at h
    · rename_i outcome _ frame style hprocessor
      obtain rfl := Option.some.inj h
      refine .inr { live with starting := nofun, received := nofun, rendering := nofun,
                              processed := ?_, shown := nofun }
      intro hframes _ _ _ hprocessed
      split at hprocessed
      · obtain ⟨rfl, rfl⟩ := Prod.mk.inj (Except.ok.inj (Option.some.inj hprocessed))
        exact live.rendering hframes frame style hprocessor
      · cases Option.some.inj hprocessed
    · cases h
  · cases h

/-- A compositor that has stopped stays so. -/
theorem step_stopped [DecidableEq Frame] {label : CameraStep Frame} (hstopped : s.processor = .stopped)
    (h : s.step label = some s') : s'.processor = .stopped := by
  have hsubmit : ∀ frame, s.submit frame = s := by
    intro frame
    unfold submit
    rw [hstopped]
  have htake : ∀ result, (s.take result).processor = s.processor := by
    intro result
    unfold take
    split <;> rfl
  unfold step window camera process at h
  split at h <;> (repeat' split at h) <;> first
    | cases h; done
    | obtain rfl := Option.some.inj h
      simp_all

/-- Without a compositor nothing is shown; with one the newest picture is on its way. -/
theorem running [DecidableEq Frame] (h : (cameraPreview Frame).Reachable s) :
    s.processor = .stopped ∨ s.Live := by
  refine @System.Reachable.invariant _ _ (cameraPreview Frame)
    (fun s => s.processor = .stopped ∨ s.Live) ?_ ?_ s h
  · rintro _ ⟨processorError, rfl⟩
    cases processorError with
    | none => exact .inr ⟨rfl, nofun, nofun, nofun, fun _ _ => rfl, nofun, fun _ => ⟨rfl, rfl, rfl⟩,
        nofun, nofun, nofun, nofun, fun _ _ _ _ => .inl ⟨rfl, rfl⟩⟩
    | some error => exact .inl rfl
  · rintro s label s' (hstopped | live) hstep
    · exact .inl (step_stopped hstopped hstep)
    · by_cases hrunning : s.processor = .stopped
      · exact .inl (step_stopped hrunning hstep)
      · have hlabel : s.step label = some s' := hstep
        unfold step at hlabel
        cases label with
        | started | cycleStyle | readLatest | sendLatest | deliver =>
          exact .inr (live.window hrunning hlabel)
        | capture | sendCaptured => exact .inr (live.camera hrunning hlabel)
        | initialized | receive | loadStyle | render => exact live.process hlabel

end CameraPreview

/-- The steps that wait for neither the camera, the user nor the start of the compositor. -/
def CameraStep.Internal {Frame : Type} : CameraStep Frame → Prop
  | .readLatest | .sendLatest | .sendCaptured | .receive | .loadStyle | .render _ | .deliver => True
  | .started _ | .cycleStyle | .capture _ | .initialized _ => False

namespace CameraPreview

variable {Frame : Type} {s s' : CameraPreview Frame}

/-- At most so many internal steps are left. -/
def pending (s : CameraPreview Frame) : ℕ :=
  (match s.cycling with
    | .idle => 0
    | .stored => 6
    | .read _ => 5) +
  (if s.capturing.isSome then 5 else 0) +
  (if s.processorFrames.isSome then 4 else 0) +
  (match s.processor with
    | .received _ => 3
    | .rendering _ _ => 2
    | .starting | .idle | .stopped => 0) +
  (if s.processedFrames.isSome then 1 else 0)

theorem pending_le (s : CameraPreview Frame) : s.pending ≤ 19 := by
  unfold pending
  split <;> split <;> split <;> split <;> split <;> omega

theorem pending_submit (s : CameraPreview Frame) (frame : Frame) :
    (s.submit frame).cycling = s.cycling ∧ (s.submit frame).capturing = s.capturing ∧
      (s.submit frame).pending ≤ s.pending + 4 := by
  unfold submit
  split
  · exact ⟨rfl, rfl, Nat.le_add_right _ _⟩
  · refine ⟨rfl, rfl, ?_⟩
    unfold pending
    dsimp only
    split <;> split <;> simp <;> omega

theorem pending_step [DecidableEq Frame] {label : CameraStep Frame} (hinternal : label.Internal)
    (h : s.step label = some s') : s'.pending + 1 ≤ s.pending := by
  unfold step window camera process at h
  cases label with
  | started | cycleStyle | capture | initialized => exact hinternal.elim
  | readLatest =>
    dsimp only at h
    split at h
    · rename_i hcycling _
      obtain rfl := Option.some.inj h
      simp only [pending, hcycling]
      omega
    · rename_i hcycling _
      obtain rfl := Option.some.inj h
      simp only [pending, hcycling]
      omega
    · cases h
  | sendLatest =>
    dsimp only at h
    split at h
    · rename_i frame hcycling
      obtain rfl := Option.some.inj h
      obtain ⟨hkept, _, hsubmit⟩ := s.pending_submit frame
      simp only [pending, hkept, hcycling] at hsubmit ⊢
      omega
    · cases h
  | sendCaptured =>
    dsimp only at h
    split at h
    · rename_i frame hcapturing
      obtain rfl := Option.some.inj h
      obtain ⟨_, hkept, hsubmit⟩ := s.pending_submit frame
      simp only [pending, hkept, hcapturing, Option.isSome_some, Option.isSome_none, if_true]
        at hsubmit ⊢
      simp only [Bool.false_eq_true, if_false]
      omega
    · cases h
  | receive =>
    dsimp only at h
    split at h
    · rename_i hprocessor hframes
      obtain rfl := Option.some.inj h
      simp only [pending, hprocessor, hframes, Option.isSome_some, Option.isSome_none, if_true]
      simp only [Bool.false_eq_true, if_false]
      omega
    · cases h
  | loadStyle =>
    dsimp only at h
    split at h
    · rename_i hprocessor
      obtain rfl := Option.some.inj h
      simp only [pending, hprocessor]
      omega
    · cases h
  | render outcome =>
    dsimp only at h
    split at h
    · rename_i hprocessor
      obtain rfl := Option.some.inj h
      simp only [pending, hprocessor, Option.isSome_some, if_true]
      split <;> omega
    · cases h
  | deliver =>
    dsimp only at h
    split at h
    · rename_i result hcycling _ hprocessed
      obtain rfl := Option.some.inj h
      unfold take
      split <;> simp [pending, hprocessed]
    · cases h

/-- The camera was opened and the compositor started, and no step is left but those that wait for the
user or a frame. -/
structure Settled [DecidableEq Frame] (s : CameraPreview Frame) : Prop where
  listening : s.listening = true
  started : s.processor ≠ .starting
  running : s.processor ≠ .stopped
  waits : ∀ label : CameraStep Frame, label.Internal → s.step label = none

/-- Every frame has arrived. -/
structure Quiet (s : CameraPreview Frame) : Prop where
  cycling : s.cycling = .idle
  capturing : s.capturing = none
  processorFrames : s.processorFrames = none
  processor : s.processor = .idle
  processedFrames : s.processedFrames = none

theorem Settled.quiet [DecidableEq Frame] (settled : s.Settled) : s.Quiet := by
  have hcycling : s.cycling = .idle := by
    cases hcycling : s.cycling with
    | idle => rfl
    | stored =>
      have hread := settled.waits .readLatest trivial
      cases hlatest : s.latestCameraFrame <;> simp [step, window, hcycling, hlatest] at hread
    | read frame => simpa [step, window, hcycling] using settled.waits .sendLatest trivial
  have hprocessor : s.processor = .idle := by
    cases hprocessor : s.processor with
    | idle => rfl
    | starting => exact (settled.started hprocessor).elim
    | stopped => exact (settled.running hprocessor).elim
    | received frame => simpa [step, process, hprocessor] using settled.waits .loadStyle trivial
    | rendering frame style =>
      simpa [step, process, hprocessor] using settled.waits (.render (.ok ())) trivial
  refine ⟨hcycling, ?_, ?_, hprocessor, ?_⟩
  · cases hcapturing : s.capturing with
    | none => rfl
    | some frame => simpa [step, camera, hcapturing] using settled.waits .sendCaptured trivial
  · cases hframes : s.processorFrames with
    | none => rfl
    | some frame => simpa [step, process, hprocessor, hframes] using settled.waits .receive trivial
  · cases hprocessed : s.processedFrames with
    | none => rfl
    | some result =>
      simpa [step, window, hcycling, settled.listening, hprocessed] using settled.waits .deliver trivial

/-- Nothing is shown as long as nothing was captured; then it is the frame that was submitted last, in
the style that was asked for last, and the newest one unless a change of the style has sent an older one
after it. -/
def ShowsNewest (s : CameraPreview Frame) : Prop :=
  (s.latestCameraFrame = none ∧ s.frame = none) ∨
    ∃ frame, s.submitted = some frame ∧ s.frame = some (frame, s.requestedStyle) ∧
      s.style = s.requestedStyle ∧ (s.overtaken = false → s.latestCameraFrame = some frame)

theorem Live.showsNewest (live : s.Live) (quiet : s.Quiet) (herror : s.error = none) :
    s.ShowsNewest := by
  rcases live.shown quiet.processorFrames quiet.processor quiet.processedFrames herror with
    ⟨hsubmitted, hframe⟩ | ⟨frame, hframe, hsubmitted, hstyle⟩
  · refine .inl ⟨?_, hframe⟩
    cases hovertaken : s.overtaken with
    | false => rw [← live.fresh hovertaken quiet.capturing, hsubmitted]
    | true => exact (live.overtaken hovertaken hsubmitted).elim
  · have hrequested : s.style = s.requestedStyle := hstyle quiet.cycling
    refine .inr ⟨frame, hsubmitted, by rw [hframe, hrequested], hrequested, fun hovertaken => ?_⟩
    rw [← live.fresh hovertaken quiet.capturing, hsubmitted]

/-- The internal steps end, and then the window shows the newest picture unless there was an error. -/
theorem camera_preview_settles [DecidableEq Frame] (h : (cameraPreview Frame).Reachable s) :
    (∀ labels s', ((cameraPreview Frame).restrict fun _ label => label.Internal).Run s labels s' →
        labels.length ≤ 19) ∧
      (s.Settled → s.error = none → s.ShowsNewest) := by
  refine ⟨fun labels s' hrun => ?_, fun settled herror => ?_⟩
  · have hlength : labels.length + s'.pending ≤ s.pending := by
      clear h
      induction hrun with
      | nil => simp
      | cons hstep _ ih =>
        have hpending := pending_step hstep.1 hstep.2
        rw [List.length_cons]
        omega
    have hle := s.pending_le
    omega
  · rcases running h with hstopped | live
    · exact (settled.running hstopped).elim
    · exact live.showsNewest settled.quiet herror

/-- The style is changed while the first frame is being rendered. -/
theorem camera_preview_settles_cycled :
    ∃ s, (cameraPreview ℕ).Reachable s ∧ s.frame = some (1, .circle) ∧ s.ShowsNewest := by
  let labels : List (CameraStep ℕ) :=
    [.initialized (.ok ()), .started (.ok ()), .capture 1, .sendCaptured, .receive, .loadStyle,
      .cycleStyle, .render (.ok ()), .readLatest, .sendLatest, .receive, .loadStyle, .deliver,
      .render (.ok ()), .deliver]
  let s : CameraPreview ℕ :=
    { CameraPreview.new ℕ none with
      frame := some (1, .circle)
      style := .circle
      requestedStyle := .circle
      sharedStyle := 0
      latestCameraFrame := some 1
      processor := .idle
      listening := true
      submitted := some 1 }
  have hreach : (cameraPreview ℕ).Reachable s := by
    refine ⟨CameraPreview.new ℕ none, labels, ⟨none, rfl⟩, ?_⟩
    repeat' first | exact .nil _ | refine .cons rfl ?_
  have hsettled : s.Settled := ⟨rfl, nofun, nofun, by rintro (_ | _) h <;> first | rfl | exact h.elim⟩
  exact ⟨s, hreach, rfl, (camera_preview_settles hreach).2 hsettled rfl⟩

end CameraPreview

/-! ## Controls -/

namespace CameraControls

variable {s s' : CameraControls}

/-- The pointer is over what is shown, a drag keeps it shown, and what is not to stay has a timer. -/
structure Inv (s : CameraControls) : Prop where
  inside : s.pointerInside = true → s.hovered = true
  resizing : s.resizing = true → s.hovered = true
  hovered : s.hovered = true → s.pointerInside = true ∨ s.resizing = true
  visible : s.hovered = true → s.controlsVisible = true
  fading : s.hovered = false → s.controlsVisible = true → s.controlsTransition ∈ s.timers

/-- While transitions are counted, every fading has a number of its own. -/
structure Counted (s : CameraControls) : Prop where
  increasing : s.timers.Pairwise (· < ·)
  known : ∀ transition ∈ s.timers, transition ≤ s.controlsTransition
  stale : s.hovered = true → s.controlsTransition ∉ s.timers

theorem Inv.hover (inv : s.Inv) : s.hover.Inv ∧ s.hover.hovered = true := by
  unfold CameraControls.hover
  split
  · rename_i hhovered
    exact ⟨⟨fun _ => hhovered, inv.resizing, fun _ => .inl rfl, inv.visible, inv.fading⟩, hhovered⟩
  · exact ⟨⟨fun _ => rfl, fun _ => rfl, fun _ => .inl rfl, fun _ => rfl, nofun⟩, rfl⟩

theorem inv_hideControls (hinside : s.pointerInside = false) (hresizing : s.resizing = false) :
    s.hideControls.Inv where
  inside := fun h => nomatch hinside.symm.trans h
  resizing := fun h => nomatch hresizing.symm.trans h
  hovered := nofun
  visible := nofun
  fading := fun _ _ => List.mem_append_right _ (List.mem_singleton_self _)

theorem Inv.step {label : ControlStep} (inv : s.Inv) (h : s.step label = some s') : s'.Inv := by
  unfold CameraControls.step at h
  split at h
  · obtain rfl := Option.some.inj h
    exact inv.hover.1
  · dsimp only at h
    split at h
    · rename_i hhovered
      obtain rfl := Option.some.inj h
      exact { inv with inside := nofun, hovered := fun htrue => nomatch hhovered.symm.trans htrue }
    · split at h
      · rename_i hresizing
        obtain rfl := Option.some.inj h
        exact { inv with inside := nofun, hovered := fun _ => .inr hresizing }
      · rename_i hresizing
        obtain rfl := Option.some.inj h
        exact inv_hideControls rfl (Bool.eq_false_of_not_eq_true hresizing)
  · obtain rfl := Option.some.inj h
    obtain ⟨hover, hhovered⟩ := inv.hover
    exact { hover with resizing := fun _ => hhovered, hovered := fun _ => .inr rfl }
  · dsimp only at h
    split at h
    · rename_i hinside
      obtain rfl := Option.some.inj h
      exact { inv with resizing := nofun, hovered := fun _ => .inl hinside }
    · rename_i hinside
      obtain rfl := Option.some.inj h
      exact inv_hideControls (Bool.eq_false_of_not_eq_true hinside) rfl
  · split at h
    · cases h
    · rename_i index _ transition htimer
      obtain rfl := Option.some.inj h
      unfold timeOut
      split
      · rename_i hover
        have hhovered : s.hovered = false := hover.1
        exact { inv with visible := fun htrue => (nomatch hhovered.symm.trans htrue), fading := nofun }
      · rename_i hstale
        refine { inv with fading := fun hhovered hvisible => ?_ }
        -- the timer that ran out was another one
        have hcurrent := inv.fading hhovered hvisible
        have hother : transition ≠ s.controlsTransition := fun heq => hstale ⟨hhovered, heq.symm⟩
        obtain ⟨place, hplace, hget⟩ := List.getElem_of_mem hcurrent
        refine List.mem_eraseIdx_iff_getElem?.2 ⟨place, ?_, List.getElem?_eq_some_iff.2 ⟨hplace, hget⟩⟩
        rintro rfl
        exact hother (Option.some.inj (htimer.symm.trans (List.getElem?_eq_some_iff.2 ⟨hplace, hget⟩)))

theorem Counted.hover (hcounted : s.controlsTransition < controlsMax → s.Counted)
    (hbelow : s.hover.controlsTransition < controlsMax) : s.hover.Counted := by
  unfold CameraControls.hover at hbelow ⊢
  split
  · rename_i hhovered
    rw [if_pos hhovered] at hbelow
    exact { hcounted hbelow with }
  · rename_i hhovered
    rw [if_neg hhovered] at hbelow
    have hnext : s.nextTransition = s.controlsTransition + 1 := by
      unfold nextTransition at hbelow ⊢
      dsimp only at hbelow
      omega
    have hsucc : s.controlsTransition + 1 < controlsMax := hnext ▸ hbelow
    have counted := hcounted (by omega)
    have hlater : ∀ transition ∈ s.timers, transition < s.nextTransition := fun transition hmem => by
      have := counted.known transition hmem
      omega
    exact ⟨counted.increasing, fun transition hmem => (hlater transition hmem).le,
      fun _ hmem => (hlater _ hmem).false⟩

theorem Counted.hideControls (hcounted : s.controlsTransition < controlsMax → s.Counted)
    (hbelow : s.hideControls.controlsTransition < controlsMax) : s.hideControls.Counted := by
  have hnext : s.nextTransition = s.controlsTransition + 1 := by
    unfold CameraControls.hideControls nextTransition at hbelow
    unfold nextTransition
    dsimp only at hbelow
    omega
  have hsucc : s.controlsTransition + 1 < controlsMax := hnext ▸ hbelow
  have counted := hcounted (by omega)
  have hlater : ∀ transition ∈ s.timers, transition < s.nextTransition := fun transition hmem => by
    have := counted.known transition hmem
    omega
  refine ⟨List.pairwise_append.2 ⟨counted.increasing, List.pairwise_singleton _ _, ?_⟩, ?_, nofun⟩
  · rintro transition hmem _ hlast
    rw [List.mem_singleton.1 hlast]
    exact hlater transition hmem
  · intro transition hmem
    rcases List.mem_append.1 hmem with hmem | hmem
    · exact (hlater transition hmem).le
    · exact (List.mem_singleton.1 hmem).le

theorem Counted.step {label : ControlStep} (hcounted : s.controlsTransition < controlsMax → s.Counted)
    (h : s.step label = some s') (hbelow : s'.controlsTransition < controlsMax) : s'.Counted := by
  unfold CameraControls.step at h
  split at h
  · obtain rfl := Option.some.inj h
    exact Counted.hover hcounted hbelow
  · dsimp only at h
    have houtside (hbelow : s.controlsTransition < controlsMax) :
        Counted { s with pointerInside := false } := { hcounted hbelow with }
    split at h
    · obtain rfl := Option.some.inj h
      exact houtside hbelow
    · split at h <;> obtain rfl := Option.some.inj h
      · exact houtside hbelow
      · exact Counted.hideControls houtside hbelow
  · obtain rfl := Option.some.inj h
    exact { Counted.hover hcounted hbelow with }
  · dsimp only at h
    have hreleased (hbelow : s.controlsTransition < controlsMax) :
        Counted { s with resizing := false } := { hcounted hbelow with }
    split at h <;> obtain rfl := Option.some.inj h
    · exact hreleased hbelow
    · exact Counted.hideControls hreleased hbelow
  · split at h
    · cases h
    · rename_i index _ transition htimer
      obtain rfl := Option.some.inj h
      have hkept (hbelow : s.controlsTransition < controlsMax) :
          Counted { s with timers := s.timers.eraseIdx index } :=
        ⟨(hcounted hbelow).increasing.sublist (List.eraseIdx_sublist _ _),
          fun transition hmem => (hcounted hbelow).known transition (List.mem_of_mem_eraseIdx hmem),
          fun hhovered hmem => (hcounted hbelow).stale hhovered (List.mem_of_mem_eraseIdx hmem)⟩
      unfold timeOut at hbelow ⊢
      split at hbelow
      · rename_i hhidden
        rw [if_pos hhidden]
        exact { hkept hbelow with }
      · rename_i hhidden
        rw [if_neg hhidden]
        exact hkept hbelow

/-- In every order of events the controls are shown under the pointer and during a drag, and once
every timer has run out they are shown only then. Until the transitions are counted no further, the
timers have numbers of their own, and none that was started before the pointer came back has the
current one. -/
theorem camera_controls_follow (h : cameraControls.Reachable s) :
    (s.pointerInside = true ∨ s.resizing = true → s.controlsVisible = true) ∧
      (s.timers = [] → (s.controlsVisible = true ↔ s.pointerInside = true ∨ s.resizing = true)) ∧
      (s.controlsTransition < controlsMax →
        s.timers.Nodup ∧ (s.hovered = true → s.controlsTransition ∉ s.timers)) := by
  have inv : s.Inv := h.invariant
    (by rintro _ rfl; exact ⟨nofun, nofun, nofun, nofun, nofun⟩) fun _ _ _ inv hstep => inv.step hstep
  have hcounted : s.controlsTransition < controlsMax → s.Counted :=
    @System.Reachable.invariant _ _ cameraControls
      (fun s => s.controlsTransition < controlsMax → s.Counted)
      (by rintro _ rfl -; exact ⟨.nil, nofun, nofun⟩) (fun _ _ _ => Counted.step) s h
  have hovered : s.pointerInside = true ∨ s.resizing = true → s.hovered = true
    | .inl hinside => inv.inside hinside
    | .inr hresizing => inv.resizing hresizing
  refine ⟨fun h => inv.visible (hovered h), fun htimers => ⟨fun hvisible => ?_, fun h =>
    inv.visible (hovered h)⟩, fun hbelow => ⟨(hcounted hbelow).increasing.imp Nat.ne_of_lt,
    (hcounted hbelow).stale⟩⟩
  refine inv.hovered (Bool.eq_true_of_not_eq_false fun hhovered => ?_)
  have hmem := inv.fading hhovered hvisible
  rw [htimers] at hmem
  cases hmem

/-- The pointer leaves, comes back and leaves again before the first timer has run out. -/
theorem camera_controls_follow_left :
    ∃ s, cameraControls.Reachable s ∧ s.timers = [] ∧ s.controlsTransition = 4 ∧
      (s.controlsVisible = true ↔ s.pointerInside = true ∨ s.resizing = true) := by
  have hreach : cameraControls.Reachable ⟨false, false, false, 4, false, []⟩ :=
    ⟨_, [.mouseMove, .mouseExit, .mouseMove, .mouseExit, .timer 0, .timer 0], rfl,
      .cons rfl (.cons rfl (.cons rfl (.cons rfl (.cons rfl (.cons rfl (.nil _))))))⟩
  exact ⟨_, hreach, rfl, rfl, (camera_controls_follow hreach).2.1 rfl⟩

end CameraControls

/-! ## Resizing -/

/-- A corner of a rectangle. -/
def Bounds.cornerPoint (bounds : Bounds) : ResizeCorner → Point
  | .topLeft => ⟨bounds.x, bounds.y⟩
  | .topRight => ⟨bounds.x + bounds.width, bounds.y⟩
  | .bottomLeft => ⟨bounds.x, bounds.y + bounds.height⟩
  | .bottomRight => ⟨bounds.x + bounds.width, bounds.y + bounds.height⟩

def ResizeCorner.opposite : ResizeCorner → ResizeCorner
  | .topLeft => .bottomRight
  | .topRight => .bottomLeft
  | .bottomLeft => .topRight
  | .bottomRight => .topLeft

/-- A window in which every style has its aspect ratio, of the least size or larger. -/
structure Bounds.Shaped (window : Bounds) : Prop where
  wide : window.width = (window.height - controlStripHeight) * (16 / 9)
  minimum : 90 ≤ window.height - controlStripHeight

theorem CameraCrop.aspectRatio_cases (style : CameraCrop) :
    style.aspectRatio = 1 ∨ style.aspectRatio = 16 / 9 := by
  cases style
  · exact .inl rfl
  · exact .inl rfl
  · exact .inr rfl

theorem previewBounds_aspect {window : Bounds} (hwindow : window.Shaped) (style : CameraCrop) :
    (previewBounds style window).width = (previewBounds style window).height * style.aspectRatio := by
  cases style with
  | circle | squircle => exact (mul_one _).symm
  | squirectangle => exact hwindow.wide

namespace ResizeDrag

variable {drag : ResizeDrag}

/-- A drag that began in a window of the right shape. -/
structure Begun (drag : ResizeDrag) : Prop where
  ratio : drag.aspectRatio = 1 ∨ drag.aspectRatio = 16 / 9
  start : drag.startBounds.width = drag.startBounds.height * drag.aspectRatio

theorem Begun.ratio_pos (begun : drag.Begun) : 0 < drag.aspectRatio := by
  rcases begun.ratio with h | h <;> rw [h] <;> norm_num

theorem start_changes :
    drag.horizontalWidth drag.startPointer = drag.startBounds.width ∧
      drag.verticalContentHeight drag.startPointer = drag.startBounds.height := by
  unfold horizontalWidth verticalContentHeight
  constructor <;> split <;> simp

/-- The size has the aspect ratio of the drag, and the least width. -/
theorem Begun.size (begun : drag.Begun) (pointer : Point) :
    (drag.size pointer).1 = (drag.size pointer).2 * drag.aspectRatio ∧
      160 ≤ (drag.size pointer).1 := by
  have hpos := begun.ratio_pos
  unfold ResizeDrag.size
  dsimp only
  split
  · exact ⟨(div_mul_cancel₀ _ hpos.ne').symm, le_max_right _ _⟩
  · refine ⟨rfl, ?_⟩
    rw [← div_le_iff₀ hpos]
    exact le_max_right _ _

theorem Begun.size_start (begun : drag.Begun) (hminimum : 160 ≤ drag.startBounds.width) :
    drag.size drag.startPointer = (drag.startBounds.width, drag.startBounds.height) := by
  have hpos := begun.ratio_pos
  unfold ResizeDrag.size
  rw [start_changes.1, start_changes.2, sub_self, sub_self, abs_zero, zero_mul]
  dsimp only
  rw [if_pos le_rfl, max_eq_left hminimum, begun.start, mul_div_cancel_right₀ _ hpos.ne']

/-- The least height that a ratio leaves. -/
theorem Begun.height (begun : drag.Begun) (pointer : Point) : 90 ≤ (drag.size pointer).2 := by
  obtain ⟨hratio, hwidth⟩ := begun.size pointer
  rcases begun.ratio with h | h <;> rw [h] at hratio <;> linarith

theorem Begun.shaped (begun : drag.Begun) (pointer : Point) : (drag.windowBounds pointer).Shaped where
  wide := by
    unfold windowBounds
    dsimp only
    rw [add_sub_cancel_right]
  minimum := by
    unfold windowBounds
    dsimp only
    rw [add_sub_cancel_right]
    exact begun.height pointer

/-- The preview in the window of a drag has the size and the place that the drag gives it. -/
theorem Begun.preview (begun : drag.Begun) (pointer : Point) {style : CameraCrop}
    (hstyle : style.aspectRatio = drag.aspectRatio) :
    previewBounds style (drag.windowBounds pointer) =
      { x := drag.previewLeft (drag.size pointer).1
        y := drag.previewTop (drag.size pointer).2
        width := (drag.size pointer).1
        height := (drag.size pointer).2 } := by
  have hwidth := previewBounds_aspect (begun.shaped pointer) style
  have hheight : (previewBounds style (drag.windowBounds pointer)).height = (drag.size pointer).2 :=
    add_sub_cancel_right _ _
  rw [hheight, hstyle, ← (begun.size pointer).1] at hwidth
  have hx : (previewBounds style (drag.windowBounds pointer)).x =
      (drag.windowBounds pointer).x + ((drag.windowBounds pointer).width -
        (previewBounds style (drag.windowBounds pointer)).width) / 2 := rfl
  have hy : (previewBounds style (drag.windowBounds pointer)).y =
      (drag.windowBounds pointer).y + controlStripHeight := rfl
  generalize previewBounds style (drag.windowBounds pointer) = preview at *
  obtain ⟨x, y, width, height⟩ := preview
  dsimp only at *
  subst hheight hwidth
  rw [Bounds.mk.injEq]
  refine ⟨?_, ?_, rfl, rfl⟩
  · rw [hx]
    unfold windowBounds
    dsimp only
    ring
  · rw [hy]
    unfold windowBounds
    dsimp only
    ring

/-- The corner that is not dragged stays. -/
theorem opposite_fixed (width contentHeight : ℚ) :
    Bounds.cornerPoint ⟨drag.previewLeft width, drag.previewTop contentHeight, width, contentHeight⟩
        drag.corner.opposite =
      drag.startBounds.cornerPoint drag.corner.opposite := by
  unfold previewLeft previewTop
  cases drag.corner <;> simp [ResizeCorner.opposite, Bounds.cornerPoint, Bounds.right, Bounds.bottom]

theorem previewBounds_start :
    Bounds.mk (drag.previewLeft drag.startBounds.width) (drag.previewTop drag.startBounds.height)
      drag.startBounds.width drag.startBounds.height = drag.startBounds := by
  have hleft : drag.previewLeft drag.startBounds.width = drag.startBounds.x := by
    unfold previewLeft
    cases drag.corner <;> simp [Bounds.right]
  have htop : drag.previewTop drag.startBounds.height = drag.startBounds.y := by
    unfold previewTop
    cases drag.corner <;> simp [Bounds.bottom]
  rw [hleft, htop]

/-- Above the least width the corner that is dragged follows the pointer along one axis. -/
theorem follows {width contentHeight : ℚ} {pointer : Point}
    (h : width = drag.horizontalWidth pointer ∨ contentHeight = drag.verticalContentHeight pointer) :
    let preview : Bounds :=
      ⟨drag.previewLeft width, drag.previewTop contentHeight, width, contentHeight⟩
    (preview.cornerPoint drag.corner).x - (drag.startBounds.cornerPoint drag.corner).x =
        pointer.x - drag.startPointer.x ∨
      (preview.cornerPoint drag.corner).y - (drag.startBounds.cornerPoint drag.corner).y =
        pointer.y - drag.startPointer.y := by
  rcases h with rfl | rfl
  · left
    unfold previewLeft horizontalWidth
    cases drag.corner <;> simp [Bounds.cornerPoint, Bounds.right] <;> ring
  · right
    unfold previewTop verticalContentHeight
    cases drag.corner <;> simp [Bounds.cornerPoint, Bounds.bottom] <;> ring

theorem Begun.follows_size (begun : drag.Begun) {pointer : Point}
    (hleast : 160 < (drag.size pointer).1) :
    (drag.size pointer).1 = drag.horizontalWidth pointer ∨
      (drag.size pointer).2 = drag.verticalContentHeight pointer := by
  have hpos := begun.ratio_pos
  unfold ResizeDrag.size at hleast ⊢
  dsimp only at hleast ⊢
  split at hleast
  · rename_i hhorizontal
    rw [if_pos hhorizontal]
    exact .inl (max_eq_left ((lt_max_iff.1 hleast).resolve_right (lt_irrefl _)).le)
  · rename_i hvertical
    rw [if_neg hvertical]
    rw [← div_lt_iff₀ hpos] at hleast
    exact .inr (max_eq_left ((lt_max_iff.1 hleast).resolve_right (lt_irrefl _)).le)

end ResizeDrag

namespace CameraWindow

variable {s : CameraWindow}

structure Inv (s : CameraWindow) : Prop where
  shaped : s.bounds.Shaped
  begun : ∀ drag, s.resizeDrag = some drag → drag.Begun

theorem Inv.step (inv : s.Inv) (label : CameraWindowStep) : (s.step label).Inv := by
  cases label with
  | showStyle style => exact ⟨inv.shaped, inv.begun⟩
  | moveWindow x y => exact ⟨⟨inv.shaped.wide, inv.shaped.minimum⟩, inv.begun⟩
  | beginResize corner pointer =>
    refine ⟨inv.shaped, ?_⟩
    rintro _ ⟨⟩
    exact ⟨s.style.aspectRatio_cases, previewBounds_aspect inv.shaped s.style⟩
  | resize pointer =>
    unfold CameraWindow.step
    dsimp only
    split
    · exact inv
    · rename_i drag hdrag
      exact ⟨(inv.begun drag hdrag).shaped pointer, inv.begun⟩
  | mouseUp => exact ⟨inv.shaped, nofun⟩
  | reopen => exact ⟨inv.shaped, nofun⟩

end CameraWindow

end Blip.Capture
