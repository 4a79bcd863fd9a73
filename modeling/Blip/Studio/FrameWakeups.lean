import Blip.Studio.FrameHub

/-!
# No frame waits without an event, and what the last request shows

A frame, a removal or a picture that waits has its event in the channel, or a caller that is about to send
it. Once everything is handled, the last render request has the newest frames, provided that no frame came
for a source between its removal and the drain of that removal, nor for a removed one.
-/

namespace Blip.Studio.FrameLoop

variable {Source Frame Image : Type} {loop loop' : FrameLoop Source Frame Image}

/-! ## The flag and the events -/

/-- What the flag of either hub promises, and what the last request was made from. -/
structure Wakes (loop : FrameLoop Source Frame Image) : Prop where
  called : loop.renderPending = true → 0 < loop.renderReady + loop.sending
  frames : ∀ source, loop.frames source ≠ none → loop.renderPending = true ∨ 0 < loop.requesting
  removed : loop.removedSources ≠ [] →
    loop.renderPending = true ∨ 0 < loop.requesting ∨ loop.draining = true
  requested : loop.draining = false → ∀ request ∈ loop.renderRequest,
    request.2 = loop.sourceFrames ∧
      (request.1 = loop.scene ∨ loop.renderPending = true ∨ 0 < loop.requesting)
  unrequested : loop.draining = false → loop.renderRequest = none →
    ∀ source, loop.sourceFrames source = none
  composed : loop.latest ≠ none → loop.eventPending = true
  ready : loop.eventPending = true → 0 < loop.compositionReady

theorem launched_wakes (scene : Finset Source) : (launched Frame Image scene).Wakes where
  called := by rintro ⟨⟩
  frames := fun _ h => absurd rfl h
  removed := fun h => absurd rfl h
  requested := by rintro _ _ ⟨⟩
  unrequested := fun _ _ _ => rfl
  composed := fun h => absurd rfl h
  ready := by rintro ⟨⟩

theorem setPending_called (h : loop.Wakes) :
    0 < loop.setPending.renderReady + loop.setPending.sending := by
  rw [setPending]
  split
  · rename_i hpending
    exact h.called hpending
  · exact Nat.lt_of_lt_of_le (Nat.succ_pos _) (Nat.le_add_left _ _)

/-- Setting the flag leaves the rest as it is. -/
theorem setPending_eq : loop.setPending = { loop with
    requesting := loop.requesting - 1
    renderPending := true
    sending := loop.setPending.sending } := by
  rw [setPending]
  split
  · rename_i hpending
    rw [← hpending]
  · rfl

theorem Wakes.setPending (h : loop.Wakes) : loop.setPending.Wakes := by
  have hcalled := setPending_called h
  rw [setPending_eq] at hcalled ⊢
  exact { h with
    called := fun _ => hcalled
    frames := fun _ _ => .inl rfl
    removed := fun _ => .inl rfl
    requested := fun hidle request hrequest =>
      ⟨(h.requested hidle request hrequest).1, .inr (.inl rfl)⟩ }

/-- Whatever changes, another caller is about to set the flag. -/
theorem Wakes.request (h : loop.Wakes) (scene : Finset Source) (frames : Source → Option Frame)
    (removedSources : List Source) (newest : Source → Option Frame) (gone : Finset Source) :
    Wakes { loop with
      scene
      frames
      removedSources
      requesting := loop.requesting + 1
      newest
      gone } :=
  { h with
    frames := fun _ _ => .inr (Nat.succ_pos _)
    removed := fun _ => .inr (.inl (Nat.succ_pos _))
    requested := fun hidle request hrequest =>
      ⟨(h.requested hidle request hrequest).1, .inr (.inr (Nat.succ_pos _))⟩ }

/-- What waits has its event in the channel, or a caller on the way to it; a removal may be in the turn of
the loop that drops it. -/
structure NoLostWakeup (loop : FrameLoop Source Frame Image) : Prop where
  frame : ∀ source frame, loop.frames source = some frame →
    0 < loop.renderReady + loop.sending + loop.requesting
  removal : loop.removedSources ≠ [] →
    loop.draining = true ∨ 0 < loop.renderReady + loop.sending + loop.requesting
  composition : loop.latest ≠ none → 0 < loop.compositionReady

theorem Wakes.noLostWakeup (h : loop.Wakes) : loop.NoLostWakeup where
  frame := by
    intro source frame hframe
    rcases h.frames source (by rw [hframe]; simp) with hpending | hrequesting
    · have hcalled := h.called hpending
      omega
    · omega
  removal := by
    intro hremoved
    rcases h.removed hremoved with hpending | hrequesting | hdraining
    · have hcalled := h.called hpending
      exact .inr (by omega)
    · exact .inr (by omega)
    · exact .inl hdraining
  composition := fun hlatest => h.ready (h.composed hlatest)

variable [DecidableEq Source]

/-- What a step needs and what it leaves. -/
theorem step_spec {label : FrameStep Source Frame Image} (hstep : loop.step label = some loop') :
    match label with
    | .submit source frame => loop' = loop.submit source frame
    | .setPending => 0 < loop.requesting ∧ loop' = loop.setPending
    | .sendReady => 0 < loop.sending ∧ loop' =
        { loop with
          sending := loop.sending - 1
          renderReady := loop.renderReady + 1 }
    | .drain => (0 < loop.renderReady ∧ loop.draining = false) ∧ loop' = loop.drain
    | .render => loop.draining = true ∧ loop' = loop.render
    | .addSource source => ¬ loop.draining = true ∧ loop' = loop.addSource source
    | .removeSource source =>
        (source ∈ loop.scene ∧ loop.draining = false) ∧ loop' = loop.removeSource source
    | .changeScene =>
        ¬ loop.draining = true ∧ loop' = { loop with requesting := loop.requesting + 1 }
    | .composed image => loop' = loop.composed image
    | .showFrame => (0 < loop.compositionReady ∧ loop.draining = false) ∧ loop' = loop.showFrame := by
  cases label with
  | submit _ _ | composed _ => exact (Option.some.inj hstep).symm
  | addSource _ | changeScene =>
    obtain ⟨hguard, hnext⟩ := Option.ite_none_left_eq_some.mp hstep
    exact ⟨hguard, (Option.some.inj hnext).symm⟩
  | setPending | sendReady | drain | render | removeSource _ | showFrame =>
    obtain ⟨hguard, hnext⟩ := Option.ite_none_right_eq_some.mp hstep
    exact ⟨hguard, (Option.some.inj hnext).symm⟩

theorem Wakes.step {label : FrameStep Source Frame Image} (h : loop.Wakes)
    (hstep : loop.step label = some loop') : loop'.Wakes := by
  have hspec := step_spec hstep
  cases label with
  | submit source frame =>
    obtain rfl : loop' = _ := hspec
    exact h.request _ _ _ _ _
  | setPending =>
    obtain ⟨-, rfl⟩ := hspec
    exact h.setPending
  | sendReady =>
    obtain ⟨-, rfl⟩ := hspec
    exact { h with called := fun _ => Nat.lt_of_lt_of_le (Nat.succ_pos _) (Nat.le_add_right _ _) }
  | drain =>
    obtain ⟨-, rfl⟩ := hspec
    -- the removed sources and the frames wait for the request that ends the turn
    exact { h with
      called := by rintro ⟨⟩
      frames := fun _ hframe => absurd rfl hframe
      removed := fun _ => .inr (.inr rfl)
      requested := by rintro ⟨⟩
      unrequested := by rintro ⟨⟩ }
  | render =>
    obtain ⟨-, rfl⟩ := hspec
    exact { h with
      removed := fun hremoved => absurd rfl hremoved
      requested := by
        rintro - _ ⟨⟩
        exact ⟨rfl, .inl rfl⟩
      unrequested := by rintro - ⟨⟩ }
  | addSource source | removeSource source | changeScene =>
    obtain ⟨-, rfl⟩ := hspec
    exact h.request _ _ _ _ _
  | composed image =>
    obtain rfl : loop' = _ := hspec
    exact { h with
      composed := fun _ => rfl
      ready := by
        intro _
        rw [FrameLoop.composed]
        dsimp only
        split
        · rename_i hpending
          exact h.ready hpending
        · exact Nat.succ_pos _ }
  | showFrame =>
    obtain ⟨-, rfl⟩ := hspec
    exact { h with
      composed := fun hlatest => absurd rfl hlatest
      ready := by rintro ⟨⟩ }

/-! ## What the next request will have -/

/-- The frame of a source once the loop has handled what there is now. -/
def due (loop : FrameLoop Source Frame Image) (source : Source) : Option Frame :=
  if loop.draining then (loop.frames source).or (loop.keptFrames source)
  else if source ∈ loop.removedSources then none
  else (loop.frames source).or (loop.sourceFrames source)

/-- Where a frame is due, it is the newest, and none is due of a source that is gone. -/
structure Current (loop : FrameLoop Source Frame Image) : Prop where
  newest : ∀ source frame, loop.newest source = some frame →
    source ∈ loop.scene ∧ loop.due source = some frame
  gone : ∀ source ∈ loop.gone, source ∉ loop.scene ∧ loop.due source = none

/-- A frame comes for a source in the scene whose removal does not wait, or waits behind the frames that are
drained; or for one that is gone, and before the turn that drops it. -/
def SubmitFits (loop : FrameLoop Source Frame Image) : FrameStep Source Frame Image → Prop
  | .submit source _ =>
    (source ∈ loop.scene → loop.draining = true ∨ source ∉ loop.removedSources) ∧
      (source ∈ loop.gone → loop.draining = false ∧ source ∈ loop.removedSources)
  | _ => True

theorem due_submit_ne {source other : Source} {frame : Frame} (h : other ≠ source) :
    (loop.submit source frame).due other = loop.due other := by
  simp only [due, submit, keptFrames, Function.update_of_ne h]
  rfl

theorem due_drain (hidle : loop.draining = false) : loop.drain.due = loop.due := by
  funext source
  simp only [due, drain, keptFrames, hidle]
  by_cases hremoved : source ∈ loop.removedSources
  · simp [hremoved]
  · simp [hremoved]

theorem due_render (hdraining : loop.draining = true) : loop.render.due = loop.due := by
  funext source
  simp [due, render, hdraining]

/-- A step that moves frames on leaves what is due as it was. -/
theorem Current.of_due (h : loop.Current) (hscene : loop'.scene = loop.scene)
    (hnewest : loop'.newest = loop.newest) (hgone : loop'.gone = loop.gone) (hdue : loop'.due = loop.due) :
    loop'.Current := by
  constructor
  · rw [hscene, hnewest, hdue]
    exact h.newest
  · rw [hscene, hgone, hdue]
    exact h.gone

theorem Current.submit {source : Source} {frame : Frame} (h : loop.Current)
    (hfits : loop.SubmitFits (.submit source frame)) : (loop.submit source frame).Current where
  newest := by
    intro other shown hnewest
    rw [FrameLoop.submit] at hnewest
    dsimp only at hnewest
    by_cases hother : other = source
    · subst hother
      by_cases hscene : other ∈ loop.scene
      · rw [if_pos hscene, Function.update_self] at hnewest
        refine ⟨hscene, ?_⟩
        rw [← hnewest]
        rcases hfits.1 hscene with hdraining | hremoved
        · simp [due, FrameLoop.submit, hdraining]
        · simp [due, FrameLoop.submit, keptFrames, hremoved]
      · rw [if_neg hscene] at hnewest
        exact absurd (h.newest other shown hnewest).1 hscene
    · have hkept : loop.newest other = some shown := by
        split at hnewest
        · rwa [Function.update_of_ne hother] at hnewest
        · exact hnewest
      rw [due_submit_ne hother]
      exact h.newest other shown hkept
  gone := by
    intro other hgone
    obtain ⟨hscene, hdue⟩ := h.gone other hgone
    refine ⟨hscene, ?_⟩
    by_cases hother : other = source
    · subst hother
      obtain ⟨hidle, hremoved⟩ := hfits.2 hgone
      simp [due, FrameLoop.submit, hidle, hremoved]
    · rw [due_submit_ne hother]
      exact hdue

theorem Current.removeSource {source : Source} (h : loop.Current) (hidle : loop.draining = false) :
    (loop.removeSource source).Current where
  newest := by
    intro other frame hnewest
    by_cases hother : other = source
    · subst hother
      simp [FrameLoop.removeSource] at hnewest
    · rw [FrameLoop.removeSource] at hnewest
      dsimp only at hnewest
      rw [Function.update_of_ne hother] at hnewest
      obtain ⟨hscene, hdue⟩ := h.newest other frame hnewest
      refine ⟨Finset.mem_erase.mpr ⟨hother, hscene⟩, ?_⟩
      rw [← hdue]
      simp [due, FrameLoop.removeSource, hidle, hother]
  gone := by
    intro other hgone
    by_cases hother : other = source
    · subst hother
      exact ⟨Finset.notMem_erase _ _, by simp [due, FrameLoop.removeSource, hidle]⟩
    · obtain ⟨hscene, hdue⟩ := h.gone other (Finset.mem_of_mem_insert_of_ne hgone hother)
      refine ⟨fun hmem => hscene (Finset.mem_of_mem_erase hmem), ?_⟩
      rw [← hdue]
      simp [due, FrameLoop.removeSource, hidle, hother]

theorem Current.step {label : FrameStep Source Frame Image} (h : loop.Current)
    (hfits : loop.SubmitFits label) (hstep : loop.step label = some loop') : loop'.Current := by
  have hspec := step_spec hstep
  cases label with
  | submit source frame =>
    obtain rfl : loop' = _ := hspec
    exact h.submit hfits
  | setPending =>
    obtain ⟨-, rfl⟩ := hspec
    rw [setPending_eq]
    exact { h with }
  | drain =>
    obtain ⟨hready, rfl⟩ := hspec
    exact h.of_due rfl rfl rfl (due_drain hready.2)
  | render =>
    obtain ⟨hdraining, rfl⟩ := hspec
    exact h.of_due rfl rfl rfl (due_render hdraining)
  | addSource source =>
    obtain ⟨-, rfl⟩ := hspec
    -- a source that was gone is back, and nothing is due of it
    exact {
      newest := fun other frame hnewest =>
        ⟨Finset.mem_insert_of_mem (h.newest other frame hnewest).1, (h.newest other frame hnewest).2⟩
      gone := fun other hgone => by
        obtain ⟨hne, hgone⟩ := Finset.mem_erase.mp hgone
        obtain ⟨hscene, hdue⟩ := h.gone other hgone
        refine ⟨fun hmem => ?_, hdue⟩
        exact hscene (Finset.mem_of_mem_insert_of_ne hmem hne) }
  | removeSource source =>
    obtain ⟨hremoves, rfl⟩ := hspec
    exact h.removeSource hremoves.2
  | composed image =>
    obtain rfl : loop' = _ := hspec
    exact { h with }
  | sendReady | changeScene | showFrame =>
    obtain ⟨-, rfl⟩ := hspec
    exact { h with }

theorem launched_current (scene : Finset Source) : (launched Frame Image scene).Current where
  newest := by rintro _ _ ⟨⟩
  gone := by rintro _ ⟨⟩

/-! ## Every run -/

/-- Every call has sent its event, and every `RenderReady` event is handled. -/
structure Settled (loop : FrameLoop Source Frame Image) : Prop where
  requesting : loop.requesting = 0
  sending : loop.sending = 0
  renderReady : loop.renderReady = 0
  draining : loop.draining = false

/-- The frame of a source in the last render request. -/
def requestedFrame (loop : FrameLoop Source Frame Image) (source : Source) : Option Frame :=
  loop.renderRequest.bind fun request => request.2 source

structure RequestCurrent (loop : FrameLoop Source Frame Image) : Prop where
  newest : ∀ source ∈ loop.scene, ∀ frame, loop.newest source = some frame →
    loop.requestedFrame source = some frame
  gone : ∀ source ∈ loop.gone, loop.requestedFrame source = none
  scene : ∀ request ∈ loop.renderRequest, request.1 = loop.scene

theorem Settled.requestCurrent (hsettled : loop.Settled) (hwakes : loop.Wakes) (h : loop.Current) :
    loop.RequestCurrent := by
  have hrequesting := hsettled.requesting
  have hflag : ¬ loop.renderPending = true := by
    intro hpending
    have hcalled := hwakes.called hpending
    rw [hsettled.renderReady, hsettled.sending] at hcalled
    exact absurd hcalled (Nat.lt_irrefl 0)
  have hframes : ∀ source, loop.frames source = none := by
    intro source
    by_contra hframe
    rcases hwakes.frames source hframe with hpending | hpos
    · exact hflag hpending
    · omega
  have hremoved : loop.removedSources = [] := by
    by_contra hwaiting
    rcases hwakes.removed hwaiting with hpending | hpos | hdraining
    · exact hflag hpending
    · omega
    · rw [hsettled.draining] at hdraining
      cases hdraining
  -- nothing waits, so what is due is what the last request was made from
  have hdue : ∀ source, loop.requestedFrame source = loop.due source := by
    intro source
    have hnow : loop.due source = loop.sourceFrames source := by
      simp [due, hsettled.draining, hremoved, hframes source]
    rw [hnow, requestedFrame]
    cases hrequest : loop.renderRequest with
    | none => exact (hwakes.unrequested hsettled.draining hrequest source).symm
    | some request =>
      exact congrFun (hwakes.requested hsettled.draining request hrequest).1 source
  exact {
    newest := fun source _ frame hnewest => (hdue source).trans (h.newest source frame hnewest).2
    gone := fun source hgone => (hdue source).trans (h.gone source hgone).2
    scene := by
      intro request hrequest
      rcases (hwakes.requested hsettled.draining request hrequest).2 with hscene | hpending | hpos
      · exact hscene
      · exact absurd hpending hflag
      · omega }

theorem reachable_wakes (h : (frameLoop Source Frame Image).Reachable loop) : loop.Wakes := by
  refine h.invariant ?_ fun _ _ _ hwakes hstep => hwakes.step hstep
  rintro _ ⟨scene, rfl⟩
  exact launched_wakes scene

/-- In every run no event is lost; and where every frame fits, the last request is current whenever all is
handled. -/
theorem frames_requested (Source Frame Image : Type) [DecidableEq Source] :
    (∀ loop, (frameLoop Source Frame Image).Reachable loop → loop.NoLostWakeup) ∧
      ∀ loop, ((frameLoop Source Frame Image).restrict SubmitFits).Reachable loop → loop.Settled →
        loop.RequestCurrent := by
  refine ⟨fun loop h => (reachable_wakes h).noLostWakeup, fun loop h hsettled => ?_⟩
  refine hsettled.requestCurrent (reachable_wakes h.of_restrict) ?_
  refine h.invariant ?_ fun _ _ _ hcurrent hstep => hcurrent.step hstep.1 hstep.2
  rintro _ ⟨scene, rfl⟩
  exact launched_current scene

/-- One source, whose frame comes and is requested. -/
theorem frames_requested_single : ∃ loop : FrameLoop ℕ ℕ Unit, loop.newest 0 = some 7 ∧
    loop.NoLostWakeup ∧ loop.RequestCurrent := by
  have hrun : ((frameLoop ℕ ℕ Unit).restrict SubmitFits).Run (launched ℕ Unit {0})
      [.submit 0 7, .setPending, .sendReady, .drain, .render] _ :=
    .cons ⟨⟨fun _ => .inr (List.not_mem_nil), by rintro ⟨⟩⟩, rfl⟩ (.cons ⟨trivial, rfl⟩
      (.cons ⟨trivial, rfl⟩ (.cons ⟨trivial, rfl⟩ (.cons ⟨trivial, rfl⟩ (.nil _)))))
  have hreached : ((frameLoop ℕ ℕ Unit).restrict SubmitFits).Reachable _ := ⟨_, _, ⟨_, rfl⟩, hrun⟩
  exact ⟨_, rfl, (frames_requested ℕ ℕ Unit).1 _ hreached.of_restrict,
    (frames_requested ℕ ℕ Unit).2 _ hreached ⟨rfl, rfl, rfl, rfl⟩⟩

/-- A source that is added again before its removal is drained loses its frame to the removal; the frame of a
camera that starts after its removal is requested. -/
theorem removal_drained_late :
    (¬ ∀ loop : FrameLoop ℕ ℕ Unit, (frameLoop ℕ ℕ Unit).Reachable loop → loop.Settled →
      ∀ source ∈ loop.scene, ∀ frame, loop.newest source = some frame →
        loop.requestedFrame source = some frame) ∧
    ¬ ∀ loop : FrameLoop ℕ ℕ Unit, (frameLoop ℕ ℕ Unit).Reachable loop → loop.Settled →
      ∀ source ∈ loop.gone, loop.requestedFrame source = none := by
  constructor
  · intro hclaim
    have hrun : (frameLoop ℕ ℕ Unit).Run (launched ℕ Unit {0})
        [.removeSource 0, .addSource 0, .submit 0 7, .setPending, .setPending, .setPending, .sendReady,
          .drain, .render] _ :=
      .cons rfl (.cons rfl (.cons rfl (.cons rfl (.cons rfl (.cons rfl (.cons rfl (.cons rfl
        (.cons rfl (.nil _)))))))))
    have hframe := hclaim _ ⟨_, _, ⟨_, rfl⟩, hrun⟩ ⟨rfl, rfl, rfl, rfl⟩ 0
      (Finset.mem_insert_self _ _) 7 rfl
    cases hframe
  · intro hclaim
    have hrun : (frameLoop ℕ ℕ Unit).Run (launched ℕ Unit {0})
        [.removeSource 0, .setPending, .sendReady, .drain, .render, .submit 0 7, .setPending, .sendReady,
          .drain, .render] _ :=
      .cons rfl (.cons rfl (.cons rfl (.cons rfl (.cons rfl (.cons rfl (.cons rfl (.cons rfl
        (.cons rfl (.cons rfl (.nil _))))))))))
    have hframe := hclaim _ ⟨_, _, ⟨_, rfl⟩, hrun⟩ ⟨rfl, rfl, rfl, rfl⟩ 0
      (Finset.mem_insert_self _ _)
    cases hframe

end Blip.Studio.FrameLoop
