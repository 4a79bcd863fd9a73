import Blip.Capture.RecordingSessions

/-!
# Whose events, whose sender

The events carry no recording. What keeps them apart is the order: as long as a recording is started only
after the last event of the one before, and no interface is closed over a recording that awaits its stop,
every event on the way is of the newest recording, and whatever captures has its sender in the app.
-/

namespace Blip.Capture.Recordings

namespace Sessions

variable {sessions sessions' : Sessions} {recording : Recording} {app : CaptureApp} {id : ℕ}

/-- A thread writes and uploads after its stop request; it is over after that, or after its stream or its
start failed, and where its sender was dropped its stream had failed. -/
structure EndsByItself (recording : Recording) : Prop where
  stopped : recording.phase = .finishing ∨ recording.phase = .uploading → recording.stopRequested = true
  concluded : recording.phase = .done → recording.stopRequested = true ∨ recording.streamFailed = true ∨
    recording.ending = some .startFailed
  dropped : recording.ending = some .senderDropped → recording.streamFailed = true

/-- What holds when the recordings of an interface come one after the other. -/
structure Inv (sessions : Sessions) : Prop where
  interfaces : ∀ (id : ℕ) (recording : Recording), sessions.recordings[id]? = some recording →
    recording.interface ≤ sessions.interface
  closed : sessions.app = none → sessions.events = []
  events : ∀ event ∈ sessions.events, event.1 + 1 = sessions.recordings.length ∧
    (event.2 ≠ .started →
      ∀ recording, sessions.recordings[event.1]? = some recording → ¬ recording.Awaits)
  newest : sessions.app ≠ none → ∀ id recording, sessions.recordings[id]? = some recording →
    recording.interface = sessions.interface → recording.phase ≠ .done →
    id + 1 = sessions.recordings.length
  awaiting : ∀ id recording, sessions.recordings[id]? = some recording → recording.Awaits →
    id + 1 = sessions.recordings.length ∧ recording.interface = sessions.interface ∧
      ∃ app, sessions.app = some app ∧ app.status ≠ .idle ∧ app.stopSender = some id
  ends : ∀ (id : ℕ) (recording : Recording), sessions.recordings[id]? = some recording →
    EndsByItself recording

/-- A recording starts when those before it are over and have nothing more to say; a window is closed while
no recording awaits its stop. -/
def Fits (sessions : Sessions) : SessionStep → Prop
  | .record accepted => ∀ app, sessions.app = some app → app.status = .idle → accepted.isSome →
    sessions.events = [] ∧ ∀ recording ∈ sessions.recordings,
      recording.interface = sessions.interface → recording.phase = .done
  | .closeWindows => ∀ recording ∈ sessions.recordings, ¬ recording.Awaits
  | _ => True

/-! ## The threads -/

/-- What a step of a thread leaves as it was, and which events it sends. -/
structure Advances (recording next : Recording) (events : List RecordingEvent) : Prop where
  interface : next.interface = recording.interface
  live : recording.phase ≠ .done
  awaits : next.Awaits → recording.Awaits
  events : ∀ event ∈ events, event ≠ .started → ¬ next.Awaits

theorem over_not_awaits (recording : Recording) (ending : Ending) :
    ¬ (recording.concluded ending).Awaits := by
  rintro ⟨hphase | hphase, -⟩
  · cases hphase
  · cases hphase

theorem over_advances {ending : Ending} {events : List RecordingEvent} (hlive : recording.phase ≠ .done) :
    Advances recording (recording.concluded ending) events where
  interface := rfl
  live := hlive
  awaits := fun hawaits => absurd hawaits (over_not_awaits recording ending)
  events := fun _ _ _ => over_not_awaits recording ending

/-- A phase in which the recording does not await anything. -/
theorem phase_advances {phase : RecordingPhase} {events : List RecordingEvent}
    (hlive : recording.phase ≠ .done) (hstarting : phase ≠ .starting) (hcapturing : phase ≠ .capturing) :
    Advances recording { recording with phase } events where
  interface := rfl
  live := hlive
  awaits := fun hawaits => absurd hawaits.1 (not_or.mpr ⟨hstarting, hcapturing⟩)
  events := fun _ _ _ hawaits => absurd hawaits.1 (not_or.mpr ⟨hstarting, hcapturing⟩)

/-- What a step of a thread needs, what it leaves and the events it sends. -/
theorem advance_spec {senderHeld : Bool} {step : ThreadStep} {next : Recording × List RecordingEvent}
    (h : recording.advance senderHeld step = some next) :
    match step with
    | .startFail => recording.phase = .starting ∧
        next = (recording.concluded .startFailed, [.failed])
    | .start => recording.phase = .starting ∧ next = ({ recording with phase := .capturing }, [.started])
    | .streamStop =>
        ¬ (recording.phase = .done ∨ recording.phase = .uploading ∨ recording.streamFailed = true) ∧
          next = ({ recording with streamFailed := true }, [.failed])
    | .receive => (recording.phase = .capturing ∧ recording.stopRequested = true) ∧
        next = ({ recording with phase := .finishing }, [])
    | .disconnect =>
        (recording.phase = .capturing ∧ recording.stopRequested = false ∧ senderHeld = false) ∧
          next = (recording.concluded .senderDropped, [.failed])
    | .record saved => recording.phase = .finishing ∧
        next = if !saved then (recording.concluded .recordFailed, [.failed])
          else if recording.hasServer then ({ recording with phase := .uploading }, [.uploading])
          else (recording.concluded .finished, [.finished])
    | .upload uploaded => recording.phase = .uploading ∧
        next = if uploaded then (recording.concluded .finished, [.finished])
          else (recording.concluded .uploadFailed, [.failed]) := by
  cases step with
  | streamStop =>
    obtain ⟨hguard, hnext⟩ := Option.ite_none_left_eq_some.mp h
    exact ⟨hguard, (Option.some.inj hnext).symm⟩
  | startFail | start | receive | disconnect | record _ | upload _ =>
    obtain ⟨hguard, hnext⟩ := Option.ite_none_right_eq_some.mp h
    exact ⟨hguard, (Option.some.inj hnext).symm⟩

theorem advance_advances {senderHeld : Bool} {step : ThreadStep} {next : Recording × List RecordingEvent}
    (h : recording.advance senderHeld step = some next) : Advances recording next.1 next.2 := by
  have hspec := advance_spec h
  cases step with
  | startFail =>
    obtain ⟨hphase, rfl⟩ := hspec
    exact over_advances (by rw [hphase]; simp)
  | start =>
    obtain ⟨hphase, rfl⟩ := hspec
    exact {
      interface := rfl
      live := by rw [hphase]; simp
      awaits := fun hawaits => ⟨.inl hphase, hawaits.2⟩
      events := by
        intro event hevent hstarted
        exact absurd (List.mem_singleton.mp hevent) hstarted }
  | streamStop =>
    obtain ⟨hphase, rfl⟩ := hspec
    exact {
      interface := rfl
      live := fun hdone => hphase (.inl hdone)
      awaits := by rintro ⟨-, -, ⟨⟩⟩
      events := by rintro _ _ _ ⟨-, -, ⟨⟩⟩ }
  | receive =>
    obtain ⟨hphase, rfl⟩ := hspec
    exact phase_advances (by rw [hphase.1]; simp) (by simp) (by simp)
  | disconnect =>
    obtain ⟨hphase, rfl⟩ := hspec
    exact over_advances (by rw [hphase.1]; simp)
  | record saved =>
    obtain ⟨hphase, rfl⟩ := hspec
    have hlive : recording.phase ≠ .done := by rw [hphase]; simp
    split
    · exact over_advances hlive
    · split
      · exact phase_advances hlive (by simp) (by simp)
      · exact over_advances hlive
  | upload uploaded =>
    obtain ⟨hphase, rfl⟩ := hspec
    have hlive : recording.phase ≠ .done := by rw [hphase]; simp
    split
    · exact over_advances hlive
    · exact over_advances hlive

/-- After its stop request a thread may end in any way but one. -/
theorem over_ends {ending : Ending} (hstopped : recording.stopRequested = true)
    (hending : ending ≠ .senderDropped) : EndsByItself (recording.concluded ending) where
  stopped := by rintro (h | h) <;> cases h
  concluded := fun _ => .inl hstopped
  dropped := fun h => absurd (Option.some.inj h) hending

/-- A thread ends by itself, or because the app holds no sender of it. -/
theorem advance_ends {senderHeld : Bool} {step : ThreadStep} {next : Recording × List RecordingEvent}
    (hends : EndsByItself recording) (h : recording.advance senderHeld step = some next) :
    EndsByItself next.1 ∨ (recording.phase = .capturing ∧ recording.stopRequested = false ∧
      senderHeld = false ∧ next.1 = recording.concluded .senderDropped) := by
  have hspec := advance_spec h
  cases step with
  | disconnect =>
    obtain ⟨hphase, rfl⟩ := hspec
    exact .inr ⟨hphase.1, hphase.2.1, hphase.2.2, rfl⟩
  | startFail =>
    obtain ⟨-, rfl⟩ := hspec
    exact .inl {
      stopped := by rintro (h | h) <;> cases h
      concluded := fun _ => .inr (.inr rfl)
      dropped := by rintro ⟨⟩ }
  | start =>
    obtain ⟨-, rfl⟩ := hspec
    exact .inl { hends with
      stopped := by rintro (h | h) <;> cases h
      concluded := by rintro ⟨⟩ }
  | streamStop =>
    obtain ⟨-, rfl⟩ := hspec
    exact .inl { hends with
      concluded := fun _ => .inr (.inl rfl)
      dropped := fun _ => rfl }
  | receive =>
    obtain ⟨hphase, rfl⟩ := hspec
    exact .inl { hends with
      stopped := fun _ => hphase.2
      concluded := by rintro ⟨⟩ }
  | record saved =>
    obtain ⟨hphase, rfl⟩ := hspec
    -- the thread only finishes after its stop request
    have hstopped := hends.stopped (.inl hphase)
    left
    split
    · exact over_ends hstopped (by simp)
    · split
      · exact { hends with
          stopped := fun _ => hstopped
          concluded := by rintro ⟨⟩ }
      · exact over_ends hstopped (by simp)
  | upload uploaded =>
    obtain ⟨hphase, rfl⟩ := hspec
    have hstopped := hends.stopped (.inr hphase)
    left
    split
    · exact over_ends hstopped (by simp)
    · exact over_ends hstopped (by simp)

/-- What is at a place after one recording has changed. -/
theorem getElem?_set_cases {recordings : List Recording} {next other : Recording} {place : ℕ}
    (h : (recordings.set id next)[place]? = some other) :
    (place = id ∧ other = next) ∨ (place ≠ id ∧ recordings[place]? = some other) := by
  rw [List.getElem?_set] at h
  split at h
  · rename_i hplace
    split at h
    · exact .inl ⟨hplace.symm, (Option.some.inj h).symm⟩
    · cases h
  · rename_i hplace
    exact .inr ⟨fun heq => hplace heq.symm, h⟩

/-- What is at a place after one more recording. -/
theorem getElem?_concat_cases {recordings : List Recording} {last other : Recording} {place : ℕ}
    (h : (recordings ++ [last])[place]? = some other) :
    recordings[place]? = some other ∨ (place = recordings.length ∧ other = last) := by
  rw [List.getElem?_append] at h
  split at h
  · exact .inl h
  · rename_i hplace
    rw [List.getElem?_singleton] at h
    split at h
    · exact .inr ⟨by omega, (Option.some.inj h).symm⟩
    · cases h

theorem Inv.thread {step : ThreadStep} (h : sessions.Inv)
    (hstep : sessions.thread id step = some sessions') : sessions'.Inv := by
  obtain ⟨recording, hrecording, hnext⟩ := Option.bind_eq_some_iff.mp hstep
  obtain ⟨next, hadvance, rfl⟩ := Option.map_eq_some_iff.mp hnext
  have hadvances := advance_advances hadvance
  exact {
    interfaces := by
      intro place other hother
      rcases getElem?_set_cases hother with ⟨rfl, rfl⟩ | ⟨-, hother⟩
      · rw [hadvances.interface]
        exact h.interfaces _ recording hrecording
      · exact h.interfaces place other hother
    closed := by
      intro hclosed
      dsimp only at hclosed ⊢
      rw [if_neg (by simp [hclosed])]
      exact h.closed hclosed
    events := by
      intro event hevent
      rw [List.length_set]
      have hold : event ∈ sessions.events → event.1 + 1 = sessions.recordings.length ∧
          (event.2 ≠ .started → ∀ other, (sessions.recordings.set id next.1)[event.1]? = some other →
            ¬ other.Awaits) := by
        intro hevent
        obtain ⟨hnewest, hends⟩ := h.events event hevent
        refine ⟨hnewest, fun hstarted other hother => ?_⟩
        rcases getElem?_set_cases hother with ⟨hplace, rfl⟩ | ⟨-, hother⟩
        · intro hawaits
          exact hends hstarted recording (by rw [hplace]; exact hrecording) (hadvances.awaits hawaits)
        · exact hends hstarted other hother
      dsimp only at hevent
      split at hevent
      · rename_i hcurrent
        rcases List.mem_append.mp hevent with hevent | hevent
        · exact hold hevent
        · obtain ⟨sent, hsent, rfl⟩ := List.mem_map.mp hevent
          refine ⟨h.newest (by intro hnone; simp [hnone] at hcurrent) id recording hrecording hcurrent.2
            hadvances.live, fun hstarted other hother => ?_⟩
          rcases getElem?_set_cases hother with ⟨-, rfl⟩ | ⟨hplace, -⟩
          · exact hadvances.events sent hsent hstarted
          · exact absurd rfl hplace
      · exact hold hevent
    newest := by
      intro happ place other hother hinterface hlive
      rw [List.length_set]
      rcases getElem?_set_cases hother with ⟨rfl, rfl⟩ | ⟨-, hother⟩
      · exact h.newest happ _ recording hrecording (hadvances.interface ▸ hinterface) hadvances.live
      · exact h.newest happ place other hother hinterface hlive
    awaiting := by
      intro place other hother hawaits
      rw [List.length_set]
      rcases getElem?_set_cases hother with ⟨rfl, rfl⟩ | ⟨-, hother⟩
      · rw [hadvances.interface]
        exact h.awaiting _ recording hrecording (hadvances.awaits hawaits)
      · exact h.awaiting place other hother hawaits
    ends := by
      intro place other hother
      rcases getElem?_set_cases hother with ⟨rfl, rfl⟩ | ⟨-, hother⟩
      · rcases advance_ends (h.ends _ recording hrecording) hadvance with
          hends | ⟨hphase, hrequested, hnotHeld, hnext⟩
        · exact hends
        · -- the app has the sender of whatever awaits its stop, so the stream has failed
          have hstream : recording.streamFailed = true := by
            by_contra hstream
            obtain ⟨-, -, app, happ, -, hsender⟩ := h.awaiting _ recording hrecording
              ⟨.inr hphase, hrequested, Bool.eq_false_iff.mpr hstream⟩
            simp [holds, happ, hsender] at hnotHeld
          rw [hnext]
          exact {
            stopped := by rintro (h | h) <;> cases h
            concluded := fun _ => .inr (.inl hstream)
            dropped := fun _ => hstream }
      · exact h.ends place other hother }

/-! ## The app -/

/-- The app changes while nothing awaits, or keeps its sender and is not idle. -/
theorem Inv.withApp {next : CaptureApp} (h : sessions.Inv) (happ : sessions.app = some app)
    (hkeeps : app.status ≠ .idle → app.stopSender ≠ none →
      next.status ≠ .idle ∧ next.stopSender = app.stopSender) :
    Inv { sessions with app := some next } :=
  { h with
    closed := by rintro ⟨⟩
    newest := fun _ => h.newest (by simp [happ])
    awaiting := by
      intro place other hother hawaits
      obtain ⟨hnewest, hinterface, app', happ', hstatus, hsender⟩ :=
        h.awaiting place other hother hawaits
      obtain rfl : app = app' := Option.some.inj (happ.symm.trans happ')
      obtain ⟨hstatus', hsender'⟩ := hkeeps hstatus (by simp [hsender])
      exact ⟨hnewest, hinterface, next, rfl, hstatus', hsender'.trans hsender⟩ }

/-- The window is closed while nothing awaits. -/
theorem Inv.close (h : sessions.Inv) (hnone : ∀ recording ∈ sessions.recordings, ¬ recording.Awaits) :
    sessions.close.Inv :=
  { h with
    closed := fun _ => rfl
    events := by rintro _ ⟨⟩
    newest := fun happ => absurd rfl happ
    awaiting := fun place other hother hawaits =>
      absurd hawaits (hnone other (List.mem_of_getElem? hother)) }

theorem Inv.not_awaits_of_idle (h : sessions.Inv) (happ : sessions.app = some app)
    (hidle : app.status = .idle) : ∀ recording ∈ sessions.recordings, ¬ recording.Awaits := by
  intro recording hmem hawaits
  obtain ⟨place, hplace⟩ := List.mem_iff_getElem?.mp hmem
  obtain ⟨-, -, app', happ', hstatus, -⟩ := h.awaiting place recording hplace hawaits
  obtain rfl : app = app' := Option.some.inj (happ.symm.trans happ')
  exact hstatus hidle

/-- A recording after a stop message is as before, and awaits nothing if the message was for it. -/
theorem sendStop_cases {sender : Option ℕ} {place : ℕ} {other : Recording}
    (h : (sessions.sendStop sender)[place]? = some other) :
    ∃ recording, sessions.recordings[place]? = some recording ∧
      other.interface = recording.interface ∧ other.phase = recording.phase ∧
      (EndsByItself recording → EndsByItself other) ∧
      (other.Awaits → recording.Awaits ∧ sender ≠ some place) := by
  cases sender with
  | none => exact ⟨other, h, rfl, rfl, id, fun hawaits => ⟨hawaits, by simp⟩⟩
  | some id =>
    rw [sendStop, List.getElem?_modify] at h
    obtain ⟨recording, hrecording, rfl⟩ := Option.map_eq_some_iff.mp h
    refine ⟨recording, hrecording, ?_⟩
    by_cases hid : id = place
    · rw [if_pos hid]
      refine ⟨rfl, rfl, fun hends => ?_, ?_⟩
      · exact { hends with
          stopped := fun _ => rfl
          concluded := fun _ => .inl rfl }
      · rintro ⟨-, ⟨⟩, -⟩
    · rw [if_neg hid]
      exact ⟨rfl, rfl, fun hends => hends, fun hawaits => ⟨hawaits, by simpa using hid⟩⟩

theorem length_sendStop (sender : Option ℕ) :
    (sessions.sendStop sender).length = sessions.recordings.length := by
  cases sender with
  | none => rfl
  | some id => exact List.length_modify _ _ _

theorem Inv.stop (h : sessions.Inv) (happ : sessions.app = some app) :
    Inv { sessions with
      app := some app.stop
      recordings := sessions.sendStop app.stopSender } where
  interfaces := by
    intro place other hother
    obtain ⟨recording, hrecording, hinterface, -⟩ := sendStop_cases hother
    rw [hinterface]
    exact h.interfaces place recording hrecording
  closed := by rintro ⟨⟩
  events := by
    intro event hevent
    obtain ⟨hnewest, hends⟩ := h.events event hevent
    refine ⟨hnewest.trans (length_sendStop _).symm, fun hstarted other hother hawaits => ?_⟩
    obtain ⟨recording, hrecording, -, -, -, hawaits'⟩ := sendStop_cases hother
    exact hends hstarted recording hrecording (hawaits' hawaits).1
  newest := by
    intro _ place other hother hinterface hlive
    obtain ⟨recording, hrecording, hsame, hphase, -⟩ := sendStop_cases hother
    exact (h.newest (by simp [happ]) place recording hrecording (hsame ▸ hinterface)
      (hphase ▸ hlive)).trans (length_sendStop _).symm
  awaiting := by
    intro place other hother hawaits
    obtain ⟨recording, hrecording, -, -, -, hawaits'⟩ := sendStop_cases hother
    obtain ⟨hawaited, hother'⟩ := hawaits' hawaits
    obtain ⟨-, -, app', happ', -, hsender⟩ := h.awaiting place recording hrecording hawaited
    obtain rfl : app = app' := Option.some.inj (happ.symm.trans happ')
    exact absurd hsender hother'
  ends := by
    intro place other hother
    obtain ⟨recording, hrecording, -, -, hends, -⟩ := sendStop_cases hother
    exact hends (h.ends place recording hrecording)

theorem Inv.record {hasServer : Bool} (h : sessions.Inv) (happ : sessions.app = some app)
    (hidle : app.status = .idle) (hevents : sessions.events = [])
    (hdone : ∀ recording ∈ sessions.recordings, recording.interface = sessions.interface →
      recording.phase = .done) :
    Inv { sessions with
      app := some (app.record sessions.recordings.length)
      recordings := sessions.recordings ++ [{
        interface := sessions.interface
        hasServer
        phase := .starting
        stopRequested := false
        streamFailed := false
        ending := none }] } := by
  exact {
    interfaces := by
      intro place other hother
      rcases getElem?_concat_cases hother with hother | ⟨-, rfl⟩
      · exact h.interfaces place other hother
      · exact le_rfl
    closed := by rintro ⟨⟩
    events := by
      intro event hevent
      dsimp only at hevent
      rw [hevents] at hevent
      cases hevent
    newest := by
      intro _ place other hother hinterface hlive
      rw [List.length_append, List.length_singleton]
      rcases getElem?_concat_cases hother with hother | ⟨hplace, -⟩
      · exact absurd (hdone other (List.mem_of_getElem? hother) hinterface) hlive
      · rw [hplace]
    awaiting := by
      intro place other hother hawaits
      rcases getElem?_concat_cases hother with hother | ⟨hplace, rfl⟩
      · exact absurd hawaits (h.not_awaits_of_idle happ hidle other (List.mem_of_getElem? hother))
      · rw [List.length_append, List.length_singleton, hplace]
        exact ⟨rfl, rfl, _, rfl, by simp [CaptureApp.record], rfl⟩
    ends := by
      intro place other hother
      rcases getElem?_concat_cases hother with hother | ⟨-, rfl⟩
      · exact h.ends place other hother
      · exact {
          stopped := by rintro (h | h) <;> cases h
          concluded := by rintro ⟨⟩
          dropped := by rintro ⟨⟩ } }

/-- The event at the head is of the newest recording, and where it is not its start, nothing awaits. -/
theorem Inv.not_awaits_of_event {event : ℕ × RecordingEvent} {events : List (ℕ × RecordingEvent)}
    (h : sessions.Inv) (hevents : sessions.events = event :: events) (hstarted : event.2 ≠ .started) :
    ∀ recording ∈ sessions.recordings, ¬ recording.Awaits := by
  intro recording hmem hawaits
  obtain ⟨place, hplace⟩ := List.mem_iff_getElem?.mp hmem
  obtain ⟨hnewest, hends⟩ := h.events event (by rw [hevents]; exact List.mem_cons_self)
  obtain ⟨hlast, -⟩ := h.awaiting place recording hplace hawaits
  obtain rfl : event.1 = place := by omega
  exact hends hstarted recording hplace hawaits

theorem Inv.handle {event : ℕ × RecordingEvent} {events : List (ℕ × RecordingEvent)}
    (h : sessions.Inv) (happ : sessions.app = some app) (hevents : sessions.events = event :: events) :
    Inv { sessions with
      app := app.handleEvent event.2
      events := if event.2 = .finished then [] else events } := by
  by_cases hfinished : event.2 = .finished
  · rw [if_pos hfinished, hfinished]
    exact h.close (h.not_awaits_of_event hevents (by rw [hfinished]; simp))
  · rw [if_neg hfinished]
    have hrest : ∀ other ∈ events, other ∈ sessions.events := by
      intro other hother
      rw [hevents]
      exact List.mem_cons_of_mem _ hother
    have htail : Inv { sessions with events } :=
      { h with
        closed := fun hnone => absurd (happ.symm.trans hnone) (by simp)
        events := fun other hother => h.events other (hrest other hother) }
    cases hkind : event.2 with
    | started => exact htail.withApp happ fun _ _ => ⟨by simp, rfl⟩
    | uploading => exact htail.withApp happ fun _ _ => ⟨by simp, rfl⟩
    | finished => exact absurd hkind hfinished
    | failed =>
      have hnone := h.not_awaits_of_event hevents (by rw [hkind]; simp)
      exact { htail with
        closed := by rintro ⟨⟩
        newest := fun _ => h.newest (by simp [happ])
        awaiting := fun place other hother hawaits =>
          absurd hawaits (hnone other (List.mem_of_getElem? hother)) }

theorem Inv.step {label : SessionStep} (h : sessions.Inv) (hfits : sessions.Fits label)
    (hstep : sessions.step label = some sessions') : sessions'.Inv := by
  cases label with
  | openCapture =>
    rw [Sessions.step] at hstep
    split at hstep
    · cases hstep
    · rename_i hclosed
      obtain rfl := Option.some.inj hstep
      have hnone : sessions.app = none := by simpa using hclosed
      exact {
        interfaces := fun place other hother => (h.interfaces place other hother).trans (Nat.le_succ _)
        closed := by rintro ⟨⟩
        events := by
          intro event hevent
          dsimp only at hevent
          rw [h.closed hnone] at hevent
          cases hevent
        newest := by
          intro _ place other hother hinterface
          have hle := h.interfaces place other hother
          dsimp only at hinterface
          omega
        awaiting := by
          intro place other hother hawaits
          obtain ⟨-, -, app, happ, -⟩ := h.awaiting place other hother hawaits
          rw [hnone] at happ
          cases happ
        ends := h.ends }
  | setMode mode =>
    obtain ⟨app, happ, rfl⟩ := Option.map_eq_some_iff.mp hstep
    refine h.withApp happ fun hstatus _ => ?_
    rw [CaptureApp.setMode]
    split
    · exact ⟨hstatus, rfl⟩
    · split
      · exact ⟨hstatus, rfl⟩
      · exact ⟨hstatus, rfl⟩
  | record accepted =>
    obtain ⟨app, happ, rfl⟩ := Option.map_eq_some_iff.mp hstep
    cases accepted with
    | none => exact h
    | some hasServer =>
      dsimp only
      split
      · rename_i hidle
        obtain ⟨hevents, hdone⟩ := hfits app happ hidle.1 rfl
        exact h.record happ hidle.1 hevents hdone
      · exact h
  | stop =>
    obtain ⟨app, happ, rfl⟩ := Option.map_eq_some_iff.mp hstep
    split
    · exact h.stop happ
    · exact h
  | closeWindows =>
    obtain ⟨app, happ, rfl⟩ := Option.map_eq_some_iff.mp hstep
    exact h.close hfits
  | escape =>
    obtain ⟨app, happ, rfl⟩ := Option.map_eq_some_iff.mp hstep
    split
    · rename_i hidle
      split
      · exact h.withApp happ fun hstatus _ => absurd hidle hstatus
      · exact h.close (h.not_awaits_of_idle happ hidle)
    · exact h
  | handle =>
    rw [Sessions.step] at hstep
    split at hstep
    · rename_i app event events happ hevents
      obtain rfl := Option.some.inj hstep
      exact h.handle happ hevents
    · cases hstep
  | thread id step => exact h.thread hstep

/-! ## Every run -/

/-- Every event on the way is of the newest recording; the app has the sender of what awaits its stop, and is
not idle; and every recording ends by itself. -/
structure Separate (sessions : Sessions) : Prop where
  events : ∀ event ∈ sessions.events, event.1 + 1 = sessions.recordings.length
  held : ∀ (id : ℕ) (recording : Recording), sessions.recordings[id]? = some recording →
    recording.Awaits → ∃ app, sessions.app = some app ∧ app.status ≠ .idle ∧ app.stopSender = some id
  ends : ∀ recording ∈ sessions.recordings, EndsByItself recording

theorem Inv.separate (h : sessions.Inv) : sessions.Separate where
  events := fun event hevent => (h.events event hevent).1
  held := fun id recording hrecording hawaits => (h.awaiting id recording hrecording hawaits).2.2
  ends := by
    intro recording hmem
    obtain ⟨place, hplace⟩ := List.mem_iff_getElem?.mp hmem
    exact h.ends place recording hplace

/-- In a run whose recordings come one after the other, none is touched by another. -/
theorem recordings_separate (sessions : Sessions)
    (h : (captureSessions.restrict Fits).Reachable sessions) : sessions.Separate := by
  have hinv : sessions.Inv := by
    refine h.invariant ?_ fun _ _ _ hinv hstep => hinv.step hstep.1 hstep.2
    rintro sessions ⟨happ, hevents, hrecordings⟩
    exact {
      interfaces := by simp [hrecordings]
      closed := fun _ => hevents
      events := by simp [hevents]
      newest := fun hopen => absurd happ hopen
      awaiting := by simp [hrecordings]
      ends := by simp [hrecordings] }
  exact hinv.separate

def unopened : Sessions where
  interface := 0
  app := none
  events := []
  recordings := []

theorem recordings_separate_first : ∃ sessions : Sessions, sessions.events = [(0, .started)] ∧
    sessions.Separate := by
  have hrun : (captureSessions.restrict Fits).Run unopened
      [.openCapture, .setMode .display, .record (some false), .thread 0 .start] _ :=
    .cons ⟨trivial, rfl⟩ (.cons ⟨trivial, rfl⟩ (.cons ⟨fun _ _ _ _ => ⟨rfl, by rintro _ ⟨⟩⟩, rfl⟩
      (.cons ⟨trivial, rfl⟩ (.nil _))))
  exact ⟨_, rfl, recordings_separate _ ⟨unopened, _, ⟨rfl, rfl, rfl⟩, hrun⟩⟩

/-- The stream of recording 0 stops; its first failure is handled, and recording 1 starts before the second
comes. That one makes the app idle and drops the sender of recording 1, whose thread then ends. Besides, a
window that is closed over a recording drops its sender as well. -/
theorem second_failure_drops_sender :
    (∃ sessions, captureSessions.Reachable sessions ∧ sessions.recordings.length = 2 ∧
      (0, .failed) ∈ sessions.events ∧ ¬ sessions.Separate) ∧
    (∃ sessions app recording, captureSessions.Reachable sessions ∧ sessions.app = some app ∧
      app.status = .idle ∧ sessions.recordings[1]? = some recording ∧
      recording.ending = some .senderDropped ∧ recording.streamFailed = false) ∧
    ∃ sessions recording, captureSessions.Reachable sessions ∧
      sessions.recordings[0]? = some recording ∧ recording.ending = some .senderDropped ∧
      recording.streamFailed = false := by
  refine ⟨?_, ?_, ?_⟩
  · have hrun : captureSessions.Run unopened [.openCapture, .setMode .display, .record (some false),
        .thread 0 .start, .handle, .thread 0 .streamStop, .handle, .record (some false),
        .thread 0 .disconnect] _ :=
      .cons rfl (.cons rfl (.cons rfl (.cons rfl (.cons rfl (.cons rfl (.cons rfl (.cons rfl
        (.cons rfl (.nil _)))))))))
    refine ⟨_, ⟨unopened, _, ⟨rfl, rfl, rfl⟩, hrun⟩, rfl, List.mem_singleton.mpr rfl, fun h => ?_⟩
    have hnewest : 0 + 1 = 2 := h.events (0, .failed) (List.mem_singleton.mpr rfl)
    exact absurd hnewest (by decide)
  · have hrun : captureSessions.Run unopened [.openCapture, .setMode .display, .record (some false),
        .thread 0 .start, .handle, .thread 0 .streamStop, .handle, .record (some false),
        .thread 0 .disconnect, .handle, .thread 1 .start, .thread 1 .disconnect] _ :=
      .cons rfl (.cons rfl (.cons rfl (.cons rfl (.cons rfl (.cons rfl (.cons rfl (.cons rfl
        (.cons rfl (.cons rfl (.cons rfl (.cons rfl (.nil _))))))))))))
    exact ⟨_, _, _, ⟨unopened, _, ⟨rfl, rfl, rfl⟩, hrun⟩, rfl, rfl, rfl, rfl, rfl⟩
  · have hrun : captureSessions.Run unopened [.openCapture, .setMode .display, .record (some false),
        .thread 0 .start, .handle, .closeWindows, .thread 0 .disconnect] _ :=
      .cons rfl (.cons rfl (.cons rfl (.cons rfl (.cons rfl (.cons rfl (.cons rfl (.nil _)))))))
    exact ⟨_, _, ⟨unopened, _, ⟨rfl, rfl, rfl⟩, hrun⟩, rfl, rfl, rfl⟩

end Sessions

end Blip.Capture.Recordings
