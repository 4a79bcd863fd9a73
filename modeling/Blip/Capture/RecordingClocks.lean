import Blip.Capture.Recording
import Mathlib.Tactic.NormNum
import Mathlib.Tactic.Ring
import Mathlib.Algebra.Order.Ring.Abs

/-!
# The clocks of a recording

Every timestamp a writer gets is the message's own choice of clock, while the pairwise rule
(`signedSecondsSince`) uses the host clock only when both messages have it. The two agree on a pair
unless exactly one message is normalized and its two clocks read differently.
-/

namespace Blip.Capture

open Blip.Avf (Answers AudioPacket AudioWriter WriterError)

/-! ## Differences -/

/-- The pairwise rule subtracts readings of one clock: the host clock when both messages have it, the
recording's own otherwise. -/
theorem FrameTiming.signedSecondsSince_eq (later earlier : FrameTiming) :
    later.signedSecondsSince earlier =
      match later.normalized, earlier.normalized with
      | some later, some earlier =>
        secondsBetween earlier.durationSinceEpoch later.durationSinceEpoch
      | _, _ => secondsBetween earlier.fallback later.fallback := by
  unfold signedSecondsSince
  cases later.normalized <;> cases earlier.normalized <;> exact signed_saturatingSub _ _

/-- The timestamps passed for two messages are as far apart as the pairwise rule says, up to a
microsecond. -/
def Passed.Agrees (earlier later : Passed) : Prop :=
  |secondsBetween earlier.timestamp later.timestamp -
    later.timing.signedSecondsSince earlier.timing| < 1 / 1000000

/-- The two clocks read the same for the message, up to a microsecond. -/
def FrameTiming.ClocksMatch (timing : FrameTiming) : Prop :=
  |secondsBetween timing.fallback timing.writerTimestamp| < 1 / 1000000

/-- Two messages agree exactly when both or neither carry a host timestamp, or the clocks match for
the one that does. -/
theorem Passed.agrees_iff {earlier later : Passed}
    (hearlier : earlier.timestamp = earlier.timing.writerTimestamp)
    (hlater : later.timestamp = later.timing.writerTimestamp) :
    earlier.Agrees later ↔
      (earlier.timing.normalized.isSome = later.timing.normalized.isSome) ∨
      (earlier.timing.ClocksMatch ∧ later.timing.ClocksMatch) := by
  rw [Agrees, hearlier, hlater, FrameTiming.signedSecondsSince_eq]
  obtain ⟨_, ⟨earlierNormalized, earlierFallback⟩, _, _⟩ := earlier
  obtain ⟨_, ⟨laterNormalized, laterFallback⟩, _, _⟩ := later
  have hself : ∀ d : Duration, secondsBetween d d = 0 := fun d => by
    rw [secondsBetween, sub_self, zero_div]
  rcases earlierNormalized with _ | ⟨earlierHost⟩ <;> rcases laterNormalized with _ | ⟨laterHost⟩
  · simp [FrameTiming.writerTimestamp]
  · -- The later message brings the host clock into a pair that falls back.
    have hdifference : secondsBetween earlierFallback laterHost.durationSinceEpoch -
        secondsBetween earlierFallback laterFallback =
          secondsBetween laterFallback laterHost.durationSinceEpoch := by
      simp only [secondsBetween]
      ring
    simp [FrameTiming.writerTimestamp, FrameTiming.ClocksMatch, hdifference, hself]
  · have hdifference : secondsBetween earlierHost.durationSinceEpoch laterFallback -
        secondsBetween earlierFallback laterFallback =
          -secondsBetween earlierFallback earlierHost.durationSinceEpoch := by
      simp only [secondsBetween]
      ring
    simp [FrameTiming.writerTimestamp, FrameTiming.ClocksMatch, hdifference, hself]
  · simp [FrameTiming.writerTimestamp]

/-! ## What the loops pass -/

/-- Every timestamp passed is the message's own choice of clock. -/
def OwnClock (passed : List Passed) : Prop :=
  ∀ entry ∈ passed, entry.timestamp = entry.timing.writerTimestamp

/-- A first timing kept by a loop is that of a message its writer accepted. -/
def KeepsAccepted (passed : List Passed) (file : File) (first : Option FrameTiming) : Prop :=
  ∀ timing ∈ first, ∃ entry ∈ passed, entry.file = file ∧ entry.accepted ∧ entry.timing = timing

theorem OwnClock.append {passed : List Passed} (h : OwnClock passed) {entry : Passed}
    (hentry : entry.timestamp = entry.timing.writerTimestamp) : OwnClock (passed ++ [entry]) := by
  intro other hother
  rcases List.mem_append.mp hother with hother | hother
  · exact h other hother
  · rwa [List.mem_singleton.mp hother]

theorem KeepsAccepted.append {passed : List Passed} {file : File} {first : Option FrameTiming}
    (h : KeepsAccepted passed file first) (entry : Passed) :
    KeepsAccepted (passed ++ [entry]) file first := by
  intro timing htiming
  obtain ⟨other, hmem, hother⟩ := h timing htiming
  exact ⟨other, List.mem_append_left _ hmem, hother⟩

/-- The first timing after a message was accepted. -/
theorem KeepsAccepted.getD {passed : List Passed} {file : File} {first : Option FrameTiming}
    {timing : FrameTiming} {timestamp : Duration} (h : KeepsAccepted passed file first) :
    KeepsAccepted (passed ++ [⟨file, timing, timestamp, true⟩]) file (some (first.getD timing)) := by
  rintro _ ⟨⟩
  cases first with
  | none => exact ⟨_, List.mem_append_right _ (List.mem_singleton.mpr rfl), rfl, rfl, rfl⟩
  | some first => exact h.append _ first rfl

/-- What holds of the variables of `write_frames`. -/
structure WriteState.Sound (state : WriteState) : Prop where
  ownClock : OwnClock state.passed
  screen : KeepsAccepted state.passed .screen state.firstTimestamp
  systemAudio : KeepsAccepted state.passed .systemAudio state.firstAudioTimestamp
  notCamera : ∀ entry ∈ state.passed, entry.file ≠ .camera

section

variable {options : WriteOptions} {state : WriteState}

/-- Making a writer changes nothing else. -/
private theorem videoWriter_holds {answers : MessageAnswers} :
    Stateful.Holds (videoWriter options answers) state fun _ state' => state' = state := by
  unfold videoWriter
  simp only [Stateful.holds_get_bind]
  cases state.writer with
  | some writer => rfl
  | none => exact Stateful.holds_lift_bind.mpr ⟨fun _ _ => rfl, fun _ _ => rfl⟩

private theorem audioWriter_holds {answers : MessageAnswers} :
    Stateful.Holds (audioWriter answers) state fun _ state' => state' = state := by
  unfold audioWriter
  simp only [Stateful.holds_get_bind]
  cases state.audioWriter with
  | some writer => rfl
  | none => exact Stateful.holds_lift_bind.mpr ⟨fun _ _ => rfl, fun _ _ => rfl⟩

/-- The log after a timestamp was passed for a message of the screen recording. -/
private theorem passTo_holds {α : Type} (file : File) {timing : FrameTiming}
    {result : Except WriterError Bool} {f : Bool → WriteM α} (h : state.Sound)
    (hfile : file ≠ .camera) {Q : Except WriterError α → WriteState → Prop}
    (hok : ∀ appended (state' : WriteState), state'.Sound →
      state' = { state with
        passed := state.passed ++ [⟨file, timing, timing.writerTimestamp, appended⟩] } →
      Stateful.Holds (f appended) state' Q)
    (herror : ∀ e (state' : WriteState), state'.Sound → Q (.error e) state') :
    Stateful.Holds (passTo file timing timing.writerTimestamp result >>= f) state Q := by
  have hsound : ∀ appended, WriteState.Sound { state with
      passed := state.passed ++ [⟨file, timing, timing.writerTimestamp, appended⟩] } := by
    refine fun appended => ⟨h.ownClock.append rfl, h.screen.append _, h.systemAudio.append _, ?_⟩
    intro entry hentry
    rcases List.mem_append.mp hentry with hentry | hentry
    · exact h.notCamera entry hentry
    · rwa [List.mem_singleton.mp hentry]
  refine Stateful.holds_bind.mpr ?_
  cases result with
  | error e => exact herror e _ (hsound false)
  | ok appended => exact hok appended _ (hsound appended) rfl

theorem writeFrame_sound {timing : FrameTiming} {answers : MessageAnswers} (h : state.Sound) :
    Stateful.Holds (writeFrame options timing answers) state fun _ state' => state'.Sound := by
  refine videoWriter_holds.bind ?_ fun _ _ heq => heq ▸ h
  rintro writer _ rfl
  generalize writer.append timing.writerTimestamp answers.writer = outcome
  obtain ⟨result, writer⟩ := outcome
  refine Stateful.holds_modify_bind.mpr
    (passTo_holds .screen ?_ (by decide) ?_ fun _ _ h => h)
  · exact ⟨h.1, h.2, h.3, h.4⟩
  rintro (_ | _) state' hsound rfl
  · exact hsound
  · exact ⟨hsound.1, h.screen.getD, hsound.3, hsound.4⟩

theorem writeAudio_sound {packet : AudioPacket} {timing : FrameTiming} {answers : MessageAnswers}
    (h : state.Sound) :
    Stateful.Holds (writeAudio options packet timing answers) state fun _ state' => state'.Sound := by
  unfold writeAudio
  cases options.bundleAudio with
  | true =>
    refine audioWriter_holds.bind ?_ fun _ _ heq => heq ▸ h
    rintro writer _ rfl
    generalize (AudioWriter.append packet timing.writerTimestamp answers.writer).outcome
      (writer, []) = outcome
    obtain ⟨result, writer, calls⟩ := outcome
    refine Stateful.holds_modify_bind.mpr
      (passTo_holds .systemAudio ?_ (by decide) ?_ fun _ _ h => h)
    · exact ⟨h.1, h.2, h.3, h.4⟩
    rintro (_ | _) state' hsound rfl
    · exact hsound
    · exact ⟨hsound.1, hsound.2, h.systemAudio.getD, hsound.4⟩
  | false =>
    simp only [Bool.false_eq_true, ↓reduceIte, Stateful.holds_get_bind]
    cases state.writer with
    | none => exact h
    | some writer =>
      dsimp only
      generalize writer.appendAudio timing.writerTimestamp answers.writer = outcome
      obtain ⟨result, writer⟩ := outcome
      refine Stateful.holds_modify_bind.mpr
        (passTo_holds .screen ?_ (by decide) ?_ fun _ _ h => h)
      · exact ⟨h.1, h.2, h.3, h.4⟩
      · exact fun _ _ h _ => h

/-- The loop over the messages. -/
theorem writeMessages_sound {messages : List (WriterMessage × MessageAnswers)} (h : state.Sound) :
    Stateful.Holds (writeMessages options messages) state fun _ state' => state'.Sound := by
  induction messages generalizing state with
  | nil => exact h
  | cons message messages ih =>
    obtain ⟨_ | _ | _, answers⟩ := message
    · exact (writeFrame_sound h).bind (fun _ _ h => ih h) fun _ _ h => h
    · exact (writeAudio_sound h).bind (fun _ _ h => ih h) fun _ _ h => h
    · exact h

/-- `write_frames` answers the first timings it has kept. -/
theorem writeFrames_sound {messages : List (WriterMessage × MessageAnswers)}
    {finishing finishingAudio : Answers} :
    Stateful.Holds (writeFrames options messages finishing finishingAudio) .new fun result state' =>
      state'.Sound ∧ ∀ written, result = .ok written →
        KeepsAccepted state'.passed .screen (some written.screenFirst) ∧
          KeepsAccepted state'.passed .systemAudio written.audioFirst := by
  have hnew : WriteState.new.Sound := ⟨by rintro _ ⟨⟩, by rintro _ ⟨⟩, by rintro _ ⟨⟩, by rintro _ ⟨⟩⟩
  refine (writeMessages_sound hnew).bind (fun _ state h => ?_) fun _ _ h => ⟨h, by rintro _ ⟨⟩⟩
  have hfinal : ∀ final : WriteM WriteResult, (state.firstTimestamp = none → final = throw .noFrames) →
      (∀ screenFirst, state.firstTimestamp = some screenFirst → final = do
        return { screenFirst, audioFirst := (← get).firstAudioTimestamp }) →
      Stateful.Holds final state fun result state' =>
        state'.Sound ∧ ∀ written, result = .ok written →
          KeepsAccepted state'.passed .screen (some written.screenFirst) ∧
            KeepsAccepted state'.passed .systemAudio written.audioFirst := by
    intro final hnone hsome
    cases hfirst : state.firstTimestamp with
    | none =>
      rw [hnone hfirst]
      exact ⟨h, by rintro _ ⟨⟩⟩
    | some screenFirst =>
      have hkept := h.screen
      rw [hfirst] at hkept
      rw [hsome screenFirst hfirst]
      refine ⟨h, fun written hwritten => ?_⟩
      obtain rfl := Except.ok.inj hwritten
      exact ⟨hkept, h.systemAudio⟩
  simp only [Stateful.holds_get_bind]
  cases state.writer with
  | none => exact ⟨h, by rintro _ ⟨⟩⟩
  | some writer =>
    refine Stateful.holds_lift_bind.mpr ⟨fun _ _ => ?_, fun _ _ => ⟨h, by rintro _ ⟨⟩⟩⟩
    cases options.bundleAudio with
    | false =>
      simp only [Bool.false_eq_true, ↓reduceIte, Stateful.holds_get_bind]
      exact hfinal _ (fun hfirst => by rw [hfirst]) fun _ hfirst => by rw [hfirst]
    | true =>
      simp only [↓reduceIte, Stateful.holds_get_bind]
      cases state.audioWriter with
      | none => exact ⟨h, by rintro _ ⟨⟩⟩
      | some writer =>
        refine Stateful.holds_lift_bind.mpr ⟨fun _ _ => ?_, fun _ _ => ⟨h, by rintro _ ⟨⟩⟩⟩
        simp only [Stateful.holds_get_bind]
        exact hfinal _ (fun hfirst => by rw [hfirst]) fun _ hfirst => by rw [hfirst]

end

/-- What holds of the variables of `write_camera_frames`. -/
structure CameraState.Sound (state : CameraState) : Prop where
  ownClock : OwnClock state.passed
  camera : KeepsAccepted state.passed .camera state.firstTimestamp
  onlyCamera : ∀ entry ∈ state.passed, entry.file = .camera

section

variable {state : CameraState}

private theorem cameraWriter_holds {answers : MessageAnswers} :
    Stateful.Holds (cameraWriter answers) state fun _ state' => state' = state := by
  unfold cameraWriter
  simp only [Stateful.holds_get_bind]
  cases state.writer with
  | some writer => rfl
  | none => exact Stateful.holds_lift_bind.mpr ⟨fun _ _ => rfl, fun _ _ => rfl⟩

theorem writeCameraFrame_sound {timing : FrameTiming} {answers : MessageAnswers} (h : state.Sound) :
    Stateful.Holds (writeCameraFrame timing answers) state fun _ state' => state'.Sound := by
  refine cameraWriter_holds.bind ?_ fun _ _ heq => heq ▸ h
  rintro writer state rfl
  generalize (Avf.Mp4Writer.append timing.writerTimestamp answers.writer).outcome (writer, []) =
    outcome
  obtain ⟨result, writer, calls⟩ := outcome
  have honly : ∀ appended, ∀ entry ∈ state.passed ++
      [⟨.camera, timing, timing.writerTimestamp, appended⟩], entry.file = .camera := by
    intro appended entry hentry
    rcases List.mem_append.mp hentry with hentry | hentry
    · exact h.onlyCamera entry hentry
    · rw [List.mem_singleton.mp hentry]
  refine Stateful.holds_modify_bind.mpr (Stateful.holds_lift_bind.mpr ⟨?_, ?_⟩)
  · rintro (_ | _) rfl
    · exact ⟨h.ownClock.append rfl, h.camera.append _, honly false⟩
    · exact ⟨h.ownClock.append rfl, h.camera.getD, honly true⟩
  · rintro e rfl
    exact ⟨h.ownClock.append rfl, h.camera.append _, honly false⟩

theorem writeCameraMessages_sound {frames : List (CameraFrame × MessageAnswers)} (h : state.Sound) :
    Stateful.Holds (writeCameraMessages frames) state fun _ state' => state'.Sound := by
  induction frames generalizing state with
  | nil => exact h
  | cons frame frames ih =>
    obtain ⟨⟨normalized, _ | fallback⟩, answers⟩ := frame
    · exact ih h
    · exact (writeCameraFrame_sound h).bind (fun _ _ h => ih h) fun _ _ h => h

theorem writeCameraFrames_sound {frames : List (CameraFrame × MessageAnswers)} {finishing : Answers} :
    Stateful.Holds (writeCameraFrames frames finishing) .new fun result state' =>
      state'.Sound ∧ ∀ first, result = .ok first →
        KeepsAccepted state'.passed .camera (some first) := by
  have hnew : CameraState.new.Sound := ⟨by rintro _ ⟨⟩, by rintro _ ⟨⟩, by rintro _ ⟨⟩⟩
  refine (writeCameraMessages_sound hnew).bind (fun _ state h => ?_) fun _ _ h => ⟨h, by rintro _ ⟨⟩⟩
  simp only [Stateful.holds_get_bind]
  cases state.writer with
  | none => exact ⟨h, by rintro _ ⟨⟩⟩
  | some writer =>
    refine Stateful.holds_lift_bind.mpr ⟨fun _ _ => ?_, fun _ _ => ⟨h, by rintro _ ⟨⟩⟩⟩
    simp only [Stateful.holds_get_bind]
    cases hfirst : state.firstTimestamp with
    | none => exact ⟨h, by rintro _ ⟨⟩⟩
    | some first =>
      have hkept := h.camera
      rw [hfirst] at hkept
      refine ⟨h, fun other hother => ?_⟩
      obtain rfl := Except.ok.inj hother
      exact hkept

end

/-! ## The recording -/

/-- Two messages that one writer accepted. -/
def Recording.Pair (recording : Recording) (earlier later : Passed) : Prop :=
  earlier ∈ recording.passed ∧ later ∈ recording.passed ∧ earlier.file = later.file ∧
    earlier.accepted ∧ later.accepted

/-- A start offset is the pairwise difference between a message accepted into the input's file and
one accepted into the screen's. -/
def Recording.OffsetOf (recording : Recording) (file : File) (seconds : ℚ) : Prop :=
  ∃ screen ∈ recording.passed, ∃ other ∈ recording.passed, screen.file = .screen ∧
    screen.accepted ∧ other.file = file ∧ other.accepted ∧
    seconds = other.timing.signedSecondsSince screen.timing

/-- Every start offset stored is one of the input it is stored for. -/
def Recording.OffsetsPairwise (recording : Recording) : Prop :=
  ∀ entry ∈ recording.offsets, (entry.1 = "camera" ∧ recording.OffsetOf .camera entry.2) ∨
    (entry.1 = "system_audio" ∧ recording.OffsetOf .systemAudio entry.2)

theorem storeOffsets_holds {bundleAudio : Bool} {setInputStartOffset : String → Except String Unit}
    {camera : Option (Except WriterError FrameTiming)} {written : WriteResult} :
    Stateful.Holds (storeOffsets bundleAudio setInputStartOffset camera written) [] fun _ offsets =>
      ∀ entry ∈ offsets, (∃ first, camera = some (.ok first) ∧
          entry = ("camera", first.signedSecondsSince written.screenFirst)) ∨
        ∃ first, written.audioFirst = some first ∧
          entry = ("system_audio", first.signedSecondsSince written.screenFirst) := by
  set Stored : List (String × ℚ) → Prop := fun offsets =>
    ∀ entry ∈ offsets, (∃ first, camera = some (.ok first) ∧
        entry = ("camera", first.signedSecondsSince written.screenFirst)) ∨
      ∃ first, written.audioFirst = some first ∧
        entry = ("system_audio", first.signedSecondsSince written.screenFirst) with hStored
  -- the part about the system audio is the same with and without a camera
  have haudio : ∀ (offsets : List (String × ℚ)) (audio : Stateful String (List (String × ℚ)) Unit),
      (bundleAudio = false → audio = pure ()) →
      (bundleAudio = true → written.audioFirst = none →
        audio = throw "system audio recording contains no samples") →
      (bundleAudio = true → ∀ audioFirst, written.audioFirst = some audioFirst → audio = do
        setInputStartOffset "system_audio"
        modify (· ++ [("system_audio", audioFirst.signedSecondsSince written.screenFirst)])) →
      Stored offsets → Stateful.Holds audio offsets fun _ offsets => Stored offsets := by
    intro offsets audio hleft hnone hsome hoffsets
    cases hbundle : bundleAudio with
    | false =>
      rw [hleft hbundle]
      exact hoffsets
    | true =>
      cases hfirst : written.audioFirst with
      | none =>
        rw [hnone hbundle hfirst]
        exact hoffsets
      | some first =>
        rw [hsome hbundle first hfirst]
        refine Stateful.holds_lift_bind.mpr ⟨fun _ _ entry hentry => ?_, fun _ _ => hoffsets⟩
        rcases List.mem_append.mp hentry with hentry | hentry
        · exact hoffsets entry hentry
        · exact .inr ⟨first, hfirst, List.mem_singleton.mp hentry⟩
  have hstored : ∀ offsets, Stored offsets → Stateful.Holds (storeOffsets bundleAudio
      setInputStartOffset none written) offsets fun _ offsets => Stored offsets := by
    intro offsets hoffsets
    refine haudio offsets _ (fun hbundle => ?_) (fun hbundle hfirst => ?_)
      (fun hbundle audioFirst hfirst => ?_) hoffsets
    · rw [hbundle]
      rfl
    · rw [hbundle, storeOffsets, hfirst]
      rfl
    · rw [hbundle, storeOffsets, hfirst]
      rfl
  cases hcamera : camera with
  | none => exact hstored [] (by rintro _ ⟨⟩)
  | some result =>
    unfold storeOffsets
    simp only [Stateful.holds_lift_bind]
    refine ⟨fun first hfirst => ⟨fun _ _ => ?_, fun _ _ => by rintro _ ⟨⟩⟩, fun _ _ => by rintro _ ⟨⟩⟩
    cases result with
    | error e => cases hfirst
    | ok first' =>
      obtain rfl := Except.ok.inj hfirst
      refine Stateful.holds_modify_bind.mpr (hstored _ fun entry hentry => .inl ⟨first', hcamera, ?_⟩)
      simpa using hentry

theorem record_passed (options : WriteOptions) (captured : Captured) :
    OwnClock (record options captured).passed ∧ (record options captured).OffsetsPairwise := by
  have hscreen : Stateful.Holds (writeFrames options captured.messages captured.finishing
    captured.finishingAudio) .new _ := writeFrames_sound
  have hcamera : ∀ outcome ∈ captured.camera.map fun camera =>
      (writeCameraFrames camera.1 camera.2).outcome .new, outcome.2.Sound ∧
        ∀ first, outcome.1 = .ok first → KeepsAccepted outcome.2.passed .camera (some first) := by
    intro outcome houtcome
    obtain ⟨camera, -, rfl⟩ := Option.mem_map.mp houtcome
    exact writeCameraFrames_sound
  simp only [Stateful.Holds] at hscreen
  unfold record
  generalize (writeFrames options captured.messages captured.finishing
    captured.finishingAudio).outcome .new = outcome at hscreen ⊢
  rw [@Option.map_congr _ _ _ (fun camera => (writeCameraFrames camera.1 camera.2).outcome .new)
    captured.camera fun _ _ => rfl]
  generalize (captured.camera.map fun camera =>
    (writeCameraFrames camera.1 camera.2).outcome .new) = camera at hcamera ⊢
  obtain ⟨result, state⟩ := outcome
  obtain ⟨hsound, hwritten⟩ := hscreen
  -- the messages of both writers keep their own choice of clock
  have hown : OwnClock (state.passed ++ camera.elim [] (·.2.passed)) := by
    intro entry hentry
    rcases List.mem_append.mp hentry with hentry | hentry
    · exact hsound.ownClock entry hentry
    · cases camera with
      | none => exact absurd hentry List.not_mem_nil
      | some camera => exact (hcamera camera rfl).1.ownClock entry hentry
  cases result with
  | error e => exact ⟨hown, by rintro _ ⟨⟩⟩
  | ok written =>
    refine ⟨hown, fun entry hentry => ?_⟩
    obtain ⟨hscreen, haudio⟩ := hwritten written rfl
    obtain ⟨screen, hmem, hfile, haccepted, htiming⟩ := hscreen _ rfl
    have hstored : Stateful.Holds (storeOffsets options.bundleAudio captured.setInputStartOffset
      (camera.map Prod.fst) written) [] _ := storeOffsets_holds
    rcases hstored entry hentry with ⟨first, hfirst, rfl⟩ | ⟨first, hfirst, rfl⟩
    · obtain ⟨camera, rfl, hok⟩ := Option.map_eq_some_iff.mp hfirst
      obtain ⟨other, hother, hfile', haccepted', rfl⟩ := (hcamera camera rfl).2 first hok _ rfl
      exact .inl ⟨rfl, screen, List.mem_append_left _ hmem, other, List.mem_append_right _ hother,
        hfile, haccepted, hfile', haccepted', by rw [htiming]⟩
    · obtain ⟨other, hother, hfile', haccepted', rfl⟩ := haudio first hfirst
      exact .inr ⟨rfl, screen, List.mem_append_left _ hmem, other, List.mem_append_left _ hother,
        hfile, haccepted, hfile', haccepted', by rw [htiming]⟩

/-- In a recording the timestamps passed for any two messages accepted by one writer are as far apart
as the pairwise rule says, and the start offsets follow the rule, exactly when of any two such
messages both or neither carry a host timestamp, or the two clocks match for both. -/
theorem recording_differences (options : WriteOptions) (captured : Captured) :
    ((∀ earlier later, (record options captured).Pair earlier later → earlier.Agrees later) ∧
      (record options captured).OffsetsPairwise) ↔
    ∀ earlier later, (record options captured).Pair earlier later →
      earlier.timing.normalized.isSome = later.timing.normalized.isSome ∨
      (earlier.timing.ClocksMatch ∧ later.timing.ClocksMatch) := by
  obtain ⟨hown, hoffsets⟩ := record_passed options captured
  rw [and_iff_left hoffsets]
  refine forall₃_congr fun earlier later hpair => ?_
  exact Passed.agrees_iff (hown earlier hpair.1) (hown later hpair.2.1)

/-! ## A frame without a host timestamp -/

private def willing : MessageAnswers where
  newWriter := .ok ()
  newAudioWriter := .ok ()
  writer :=
    { ready := true
      accepts := true
      writerError := ""
      audioSampleBuffer := .ok ()
      errorBefore := .ok ()
      errorAfter := .ok ()
      finishAssetWriter := .ok ()
      finishPlaylist := .ok () }

private def mixedOptions : WriteOptions where
  format := .mp4
  systemAudio := false
  bundleAudio := false

/-- A frame at 10 s by the host clock and 1 s into the recording, then one at 1.1 s without a host
timestamp. -/
private def mixed : Captured where
  messages := [(.frame ⟨some ⟨⟨10000000000⟩⟩, ⟨1000000000⟩⟩, willing),
    (.frame ⟨none, ⟨1100000000⟩⟩, willing), (.finish, willing)]
  finishing := willing.writer
  finishingAudio := willing.writer
  camera := none
  setInputStartOffset := fun _ => .ok ()

/-- The writer gets 10 s and then 1.1 s, while the pairwise rule says the frames are 0.1 s apart. -/
theorem mixed_clocks_disagree :
    ∃ earlier later, (record mixedOptions mixed).Pair earlier later ∧ ¬ earlier.Agrees later ∧
      secondsBetween earlier.timestamp later.timestamp = -89 / 10 ∧
      later.timing.signedSecondsSince earlier.timing = 1 / 10 := by
  have hpassed : (record mixedOptions mixed).passed =
      [⟨.screen, ⟨some ⟨⟨10000000000⟩⟩, ⟨1000000000⟩⟩, ⟨10000000000⟩, true⟩,
        ⟨.screen, ⟨none, ⟨1100000000⟩⟩, ⟨1100000000⟩, true⟩] := rfl
  refine ⟨⟨.screen, ⟨some ⟨⟨10000000000⟩⟩, ⟨1000000000⟩⟩, ⟨10000000000⟩, true⟩,
    ⟨.screen, ⟨none, ⟨1100000000⟩⟩, ⟨1100000000⟩, true⟩, ⟨?_, ?_, rfl, rfl, rfl⟩, ?_, ?_, ?_⟩
  · simp [hpassed]
  · simp [hpassed]
  · rw [Passed.Agrees, FrameTiming.signedSecondsSince_eq]
    norm_num [secondsBetween, abs_of_neg]
  · norm_num [secondsBetween]
  · rw [FrameTiming.signedSecondsSince_eq]
    norm_num [secondsBetween]

end Blip.Capture
