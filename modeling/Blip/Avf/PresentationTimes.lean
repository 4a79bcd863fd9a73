import Blip.Avf.Timeline

/-!
# Presentation times over whole runs

A run of a writer is any sequence of its calls with any answers of the environment. What it hands to
AVFoundation is the clock's rule applied to the samples in order, which gives the order of the
presentation times, the frames that keep their offset, the session end, and the agreement of the two
writers.
-/

namespace Blip.Avf

/-! ## Runs -/

inductive WriterCall
  | append (timestamp : Duration)
  | appendAudio (timestamp : Duration)
  | finish
deriving DecidableEq, Repr

/-- The source timestamp of a call's sample, in microseconds. -/
def WriterCall.source : WriterCall → ℤ
  | append timestamp => timestamp.asMicros
  | appendAudio timestamp => timestamp.asMicros
  | finish => 0

/-- A call with its answers, its result and what it asked of AVFoundation. -/
structure WriterStep where
  call : WriterCall
  answers : Answers
  result : Except WriterError Bool
  calls : List AvCall

def Mp4Writer.perform (answers : Answers) : WriterCall → WriterM Bool
  | .append timestamp => append timestamp answers
  | .appendAudio timestamp => appendAudio timestamp answers
  | .finish => (fun _ => true) <$> finish answers

def HlsWriter.perform (answers : Answers) : WriterCall → WriterM Bool
  | .append timestamp => append timestamp answers
  | .appendAudio timestamp => appendAudio timestamp answers
  | .finish => (fun _ => true) <$> finish answers

/-- The runs of a new writer. -/
def writerSystem (perform : Answers → WriterCall → WriterM Bool) (audioInput : Bool)
    (frameDuration : Duration) : System Writer WriterStep where
  init writer := writer = .new audioInput frameDuration
  step writer step writer' :=
    Stateful.outcome (perform step.answers step.call) (writer, []) =
      (step.result, writer', step.calls)

/-- The samples handed over in a call, with their presentation times. -/
def WriterStep.handed (step : WriterStep) : List (Sample × ℤ) :=
  step.calls.filterMap fun
    | .appendPixelBuffer time accepted => some (⟨.video, step.call.source, accepted⟩, time)
    | .appendSampleBuffer time accepted => some (⟨.audio, step.call.source, accepted⟩, time)
    | _ => none

def WriterStep.sessionStarts (step : WriterStep) : List ℤ :=
  step.calls.filterMap fun
    | .startSessionAtSourceTime time => some time
    | _ => none

/-- The samples handed over in a run, in order. -/
def handed (steps : List WriterStep) : List (Sample × ℤ) := steps.flatMap WriterStep.handed

def sessionStarts (steps : List WriterStep) : List ℤ := steps.flatMap WriterStep.sessionStarts

/-- The presentation times of the frames taken. -/
def frameTimes (samples : List (Sample × ℤ)) : List ℤ :=
  (samples.filter (·.1.IsFrame)).map Prod.snd

/-! ## What a run has handed over -/

/-- The writer's methods keep to the clock's rule. -/
def KeepsClock (perform : Answers → WriterCall → WriterM Bool) (origin : ℤ → ℤ) : Prop :=
  ∀ answers call writer clock, writer.Shows clock →
    Stateful.Holds (perform answers call) (writer, []) (writer.Follows origin clock call.source)

theorem Mp4Writer.keepsClock : KeepsClock Mp4Writer.perform id := by
  intro answers call writer clock hclock
  cases call with
  | append timestamp => exact append_holds hclock
  | appendAudio timestamp => exact appendAudio_holds hclock
  | finish => exact Stateful.holds_map.mpr (finish_holds hclock)

theorem HlsWriter.keepsClock : KeepsClock HlsWriter.perform fun _ => 0 := by
  intro answers call writer clock hclock
  cases call with
  | append timestamp => exact append_holds hclock
  | appendAudio timestamp => exact appendAudio_holds hclock
  | finish => exact Stateful.holds_map.mpr (finish_holds hclock)

/-- Samples presented from `origin` on. -/
def presentedFrom (origin : ℤ) (samples : List (Sample × ℤ)) : List (Sample × ℤ) :=
  samples.map fun entry => (entry.1, origin + entry.2)

theorem presentedFrom_append {origin : ℤ} (before after : List (Sample × ℤ)) :
    presentedFrom origin (before ++ after) =
      presentedFrom origin before ++ presentedFrom origin after :=
  List.map_append

/-- What the clock shows about the calls so far. -/
def Recorded (origin : ℤ → ℤ) (steps : List WriterStep) : Clock → Prop
  | .idle => handed steps = [] ∧ sessionStarts steps = []
  | .running start _ last => ∃ first rest, first.track = .video ∧ first.source = start ∧
      handed steps = presentedFrom (origin start) (placed start (first :: rest)) ∧
      last = lastOffset start (first :: rest) ∧ sessionStarts steps = [origin start]

section

variable {origin : ℤ → ℤ} {steps : List WriterStep} {step : WriterStep} {clock clock' : Clock}
  {frameDuration start : ℤ} {nonneg : 0 ≤ start} {last : Option ℤ}

@[simp] theorem handed_append_singleton : handed (steps ++ [step]) = handed steps ++ step.handed := by
  simp [handed]

@[simp] theorem sessionStarts_append_singleton :
    sessionStarts (steps ++ [step]) = sessionStarts steps ++ step.sessionStarts := by
  simp [sessionStarts]

/-- A call that hands nothing over. -/
private theorem Recorded.idle (h : Recorded origin steps clock) (hhanded : step.handed = [])
    (hstarts : step.sessionStarts = []) : Recorded origin (steps ++ [step]) clock := by
  have hhanded' : handed (steps ++ [step]) = handed steps := by simp [hhanded]
  have hstarts' : sessionStarts (steps ++ [step]) = sessionStarts steps := by simp [hstarts]
  cases clock with
  | idle => exact ⟨hhanded'.trans h.1, hstarts'.trans h.2⟩
  | running start nonneg last =>
    obtain ⟨first, rest, hvideo, hfirst, hplaced, hlast, hsession⟩ := h
    exact ⟨first, rest, hvideo, hfirst, hhanded'.trans hplaced, hlast, hstarts'.trans hsession⟩

/-- A sample handed over to a running writer is placed after the earlier ones. -/
private theorem Recorded.hand (h : Recorded origin steps (.running start nonneg last))
    (sample : Sample) {time : ℤ} (hhanded : step.handed = [(sample, origin start + time)])
    (htime : time = match sample.track with
      | .video => raise last (distance start sample.source)
      | .audio => distance start sample.source)
    (hstarts : step.sessionStarts = []) :
    Recorded origin (steps ++ [step]) (.running start nonneg
      (if sample.IsFrame then some (raise last (distance start sample.source)) else last)) := by
  obtain ⟨first, rest, hvideo, hfirst, hplaced, rfl, hsession⟩ := h
  refine ⟨first, rest ++ [sample], hvideo, hfirst, ?_, ?_, ?_⟩
  · rw [handed_append_singleton, hplaced, hhanded, ← List.cons_append, placed_append_singleton,
      presentedFrom_append, htime]
    rfl
  · rw [← List.cons_append, lastOffset_append_singleton]
  · rw [sessionStarts_append_singleton, hsession, hstarts, List.append_nil]

/-- Every call extends the record. -/
theorem Recorded.extend (h : Recorded origin steps clock)
    (hperforms : clock.Performs origin frameDuration step.call.source step.calls clock') :
    Recorded origin (steps ++ [step]) clock' := by
  obtain ⟨call, answers, result, calls⟩ := step
  dsimp only at hperforms
  cases hperforms with
  | nothing => exact h.idle rfl rfl
  | first nonneg accepted =>
    refine ⟨⟨.video, call.source, accepted⟩, [], rfl, rfl, ?_, ?_, ?_⟩
    · rw [handed_append_singleton, h.1]
      simp [WriterStep.handed, presentedFrom, placed, place, lastOffset, frames, distance, raise]
    · cases accepted <;> simp [lastOffset, frames, Sample.IsFrame, distance, raise]
    · rw [sessionStarts_append_singleton, h.2]
      rfl
  | frame start nonneg last accepted =>
    cases accepted with
    | false => exact h.hand ⟨.video, call.source, false⟩ rfl rfl rfl
    | true => exact h.hand ⟨.video, call.source, true⟩ rfl rfl rfl
  | audio start nonneg last accepted =>
    exact h.hand ⟨.audio, call.source, accepted⟩ rfl rfl rfl
  | ending start nonneg last => exact h.idle rfl rfl

/-- What a run's calls did is what its clock shows. -/
theorem run_recorded {perform : Answers → WriterCall → WriterM Bool} (hkeeps : KeepsClock perform origin)
    {audioInput : Bool} {duration : Duration} {writer : Writer}
    (hrun : (writerSystem perform audioInput duration).Run (.new audioInput duration) steps writer) :
    ∃ clock, writer.Shows clock ∧ Recorded origin steps clock ∧ writer.frameDuration = duration := by
  have hnew : ∃ clock, (Writer.new audioInput duration).Shows clock ∧ Recorded origin [] clock ∧
      (Writer.new audioInput duration).frameDuration = duration :=
    ⟨.idle, ⟨rfl, rfl, rfl⟩, ⟨rfl, rfl⟩, rfl⟩
  refine hrun.history (P := fun steps writer => ∃ clock, writer.Shows clock ∧
    Recorded origin steps clock ∧ writer.frameDuration = duration) ?_ hnew
  rintro past writer step writer' ⟨clock, hshows, hrecorded, hduration⟩ hstep
  have hfollows := hkeeps step.answers step.call writer clock hshows
  rw [Stateful.Holds, hstep] at hfollows
  obtain ⟨⟨clock', hshows', hperforms⟩, hduration', -⟩ := hfollows
  exact ⟨clock', hshows', hrecorded.extend hperforms, hduration'.trans hduration⟩

end

/-! ## The results -/

/-- What holds of the presentation times of a run; `origin` is the session start for the first
frame's timestamp. -/
structure TimesSound (origin : ℤ → ℤ) (frameDuration : Duration) (steps : List WriterStep) : Prop where
  /-- The frames taken are presented in strictly increasing order. -/
  increasing : (frameTimes (handed steps)).Pairwise (· < ·)
  /-- A frame handed over, taken or not, comes after every frame taken. -/
  after : ∀ earlier sample time later, handed steps = earlier ++ (sample, time) :: later →
    sample.track = .video → ∀ t ∈ frameTimes earlier, t < time
  /-- Once a sample is handed over the session has started, once, no later than the sample. -/
  session : ∀ entry ∈ handed steps, ∃ start, sessionStarts steps = [start] ∧ start ≤ entry.2
  /-- A frame keeps its offset from the first one exactly when it is ahead of the first one and of
  every frame taken by as many microseconds as there are frames from that one on. -/
  exact : ∀ first firstTime rest earlier sample time later, handed steps = (first, firstTime) :: rest →
    handed steps = earlier ++ (sample, time) :: later → sample.track = .video →
    (time - firstTime = sample.source - first.source ↔ first.source ≤ sample.source ∧
      ∀ before z between, frames (earlier.map Prod.fst) = before ++ z :: between →
        max first.source z + (between.length + 1) ≤ sample.source)
  /-- The session ends one frame, or a microsecond, after the last frame taken. -/
  ending : ∀ before step later, steps = before ++ step :: later →
    ∀ time, .endSessionAtSourceTime time ∈ step.calls →
      ∃ last, (frameTimes (handed before)).getLast? = some last ∧
        time = last + max (frameDuration.asMicros : ℤ) 1

section

variable {origin : ℤ} {samples : List Sample} {start : ℤ}

theorem presentedFrom_eq_append {samples earlier later : List (Sample × ℤ)} {sample : Sample}
    {time : ℤ} (h : presentedFrom origin samples = earlier ++ (sample, time) :: later) :
    ∃ earlier' later' offset, samples = earlier' ++ (sample, offset) :: later' ∧
      earlier = presentedFrom origin earlier' ∧ time = origin + offset := by
  obtain ⟨earlier', rest, rfl, rfl, hrest⟩ := List.map_eq_append_iff.mp h
  obtain ⟨⟨sample', offset⟩, later', rfl, hentry, -⟩ := List.map_eq_cons_iff.mp hrest
  obtain ⟨rfl, rfl⟩ := Prod.mk.inj hentry
  exact ⟨earlier', later', offset, rfl, rfl, rfl⟩

theorem frameTimes_presentedFrom (samples : List (Sample × ℤ)) :
    frameTimes (presentedFrom origin samples) = (frameTimes samples).map (origin + ·) := by
  simp [frameTimes, presentedFrom, List.filter_map, Function.comp_def]

theorem frameTimes_placed :
    frameTimes (placed start samples) = raisedFrom none ((frames samples).map (distance start)) :=
  frameOffsets

/-- Every field but the last follows from where the samples were placed. -/
theorem timesSound_of_placed {origin : ℤ → ℤ} {frameDuration : Duration} {steps : List WriterStep}
    {first : Sample} {rest : List Sample} (hvideo : first.track = .video)
    (hhanded : handed steps = presentedFrom (origin first.source) (placed first.source (first :: rest)))
    (hsession : sessionStarts steps = [origin first.source])
    (hending : ∀ before step later, steps = before ++ step :: later →
      ∀ time, .endSessionAtSourceTime time ∈ step.calls →
        ∃ last, (frameTimes (handed before)).getLast? = some last ∧
          time = last + max (frameDuration.asMicros : ℤ) 1) :
    TimesSound origin frameDuration steps where
  increasing := by
    rw [hhanded, frameTimes_presentedFrom, frameTimes_placed, List.pairwise_map]
    exact raisedFrom_pairwise.imp fun h => by omega
  after earlier sample time later heq htrack t ht := by
    obtain ⟨earlier', later', offset, hplaced, rfl, rfl⟩ :=
      presentedFrom_eq_append (hhanded.symm.trans heq)
    obtain ⟨hearlier, rfl⟩ := placed_split hplaced
    rw [frameTimes_presentedFrom] at ht
    obtain ⟨t', ht', rfl⟩ := List.mem_map.mp ht
    obtain ⟨entry, hentry, rfl⟩ := List.mem_map.mp ht'
    rw [hearlier] at hentry
    have hlt := lt_place htrack hentry
    omega
  session entry hentry := by
    refine ⟨_, hsession, ?_⟩
    obtain ⟨earlier, later, heq⟩ := List.append_of_mem hentry
    obtain ⟨sample, time⟩ := entry
    obtain ⟨earlier', later', offset, hplaced, -, rfl⟩ :=
      presentedFrom_eq_append (hhanded.symm.trans heq)
    obtain ⟨-, rfl⟩ := placed_split hplaced
    have hnonneg : 0 ≤ place first.source (earlier'.map Prod.fst) sample := place_nonneg
    dsimp only
    omega
  exact first' firstTime rest' earlier sample time later hfirst heq htrack := by
    obtain ⟨earlier', later', offset, hplaced, rfl, rfl⟩ :=
      presentedFrom_eq_append (hhanded.symm.trans heq)
    obtain ⟨-, rfl⟩ := placed_split hplaced
    obtain ⟨_ | ⟨_, _⟩, later'', offset, hplaced', hnil, rfl⟩ :=
      presentedFrom_eq_append (hhanded.symm.trans (hfirst.trans (List.nil_append _).symm))
    swap
    · cases hnil
    obtain ⟨-, rfl⟩ := placed_split hplaced'
    have hsame : first' = first := by
      have := congrArg (List.map Prod.fst) hplaced'
      rw [placed_map_fst] at this
      exact (List.cons.inj this).1.symm
    subst hsame
    -- the first sample was placed at the origin
    have hzero : place first'.source [] first' = 0 := by
      simp [place, hvideo, lastOffset, frames, distance, raise]
    have hmap : (presentedFrom (origin first'.source) earlier').map Prod.fst =
        earlier'.map Prod.fst := by simp [presentedFrom, Function.comp_def]
    rw [hmap, ← place_eq_iff htrack, List.map_nil, hzero]
    omega
  ending := hending

/-- The session end is given once the clock runs, after the last frame taken. -/
theorem Recorded.ending {origin : ℤ → ℤ} {steps : List WriterStep} {clock clock' : Clock}
    {frameDuration source time : ℤ} {calls : List AvCall} (h : Recorded origin steps clock)
    (hperforms : clock.Performs origin frameDuration source calls clock')
    (htime : .endSessionAtSourceTime time ∈ calls) :
    ∃ last, (frameTimes (handed steps)).getLast? = some last ∧ time = last + max frameDuration 1 := by
  cases hperforms with
  | ending start nonneg last =>
    obtain ⟨first, rest, -, -, hhanded, hlast, -⟩ := h
    refine ⟨origin start + last, ?_, by simpa using htime⟩
    rw [hhanded, frameTimes_presentedFrom, frameTimes_placed, List.getLast?_map]
    rw [lastOffset, lastRaised, Option.or_none] at hlast
    rw [← hlast, Option.map_some]
  | _ => simp at htime

/-- A writer that keeps to the clock's rule presents its samples soundly in every run. -/
theorem run_timesSound {origin : ℤ → ℤ} {perform : Answers → WriterCall → WriterM Bool}
    (hkeeps : KeepsClock perform origin) {audioInput : Bool} {frameDuration : Duration}
    {steps : List WriterStep} {writer : Writer}
    (hrun : (writerSystem perform audioInput frameDuration).Run (.new audioInput frameDuration)
      steps writer) : TimesSound origin frameDuration steps := by
  have hending : ∀ before step later, steps = before ++ step :: later →
      ∀ time, .endSessionAtSourceTime time ∈ step.calls →
        ∃ last, (frameTimes (handed before)).getLast? = some last ∧
          time = last + max (frameDuration.asMicros : ℤ) 1 := by
    rintro before step later rfl time htime
    obtain ⟨middle, hbefore, hafter⟩ := System.run_append.mp hrun
    cases hafter with
    | cons hstep _ =>
      obtain ⟨clock, hshows, hrecorded, rfl⟩ := run_recorded hkeeps hbefore
      have hfollows := hkeeps step.answers step.call middle clock hshows
      rw [Stateful.Holds, hstep] at hfollows
      obtain ⟨⟨clock', -, hperforms⟩, -, -⟩ := hfollows
      exact hrecorded.ending hperforms htime
  obtain ⟨clock, -, hrecorded, -⟩ := run_recorded hkeeps hrun
  cases clock with
  | idle =>
    obtain ⟨hhanded, -⟩ := hrecorded
    refine ⟨?_, ?_, ?_, ?_, hending⟩ <;> rw [hhanded]
    · exact .nil
    · exact fun _ _ _ _ heq => absurd heq (by simp)
    · exact fun _ hentry => absurd hentry List.not_mem_nil
    · exact fun _ _ _ _ _ _ _ heq => absurd heq (by simp)
  | running start nonneg last =>
    obtain ⟨first, rest, hvideo, rfl, hhanded, -, hsession⟩ := hrecorded
    exact timesSound_of_placed hvideo hhanded hsession hending

/-- A call that is refused changes nothing and hands nothing over. -/
theorem refused_unchanged {origin : ℤ → ℤ} {perform : Answers → WriterCall → WriterM Bool}
    (hkeeps : KeepsClock perform origin) {audioInput : Bool} {frameDuration : Duration}
    {writer writer' : Writer} {step : WriterStep}
    (hreach : (writerSystem perform audioInput frameDuration).Reachable writer)
    (hstep : (writerSystem perform audioInput frameDuration).step writer step writer')
    (hrefused : step.result = .ok false) : writer' = writer ∧ step.calls = [] := by
  obtain ⟨_, past, rfl, hrun⟩ := hreach
  obtain ⟨clock, hshows, -, -⟩ := run_recorded hkeeps hrun
  have hfollows := hkeeps step.answers step.call writer clock hshows
  rw [Stateful.Holds, hstep] at hfollows
  exact Prod.mk.inj (hfollows.2.2 hrefused)

end

abbrev mp4System := writerSystem Mp4Writer.perform

abbrev hlsSystem := writerSystem HlsWriter.perform

/-- In every run of either writer the presentation times are sound and a refused call changes
nothing; and where both hand over the same samples, the MP4 times minus the MP4 start are the HLS
times. -/
theorem writers_keep_time {audioInput audioInput' : Bool} {frameDuration frameDuration' : Duration}
    {mp4Steps hlsSteps : List WriterStep} {mp4 hls : Writer}
    (hmp4 : (mp4System audioInput frameDuration).Run (.new audioInput frameDuration) mp4Steps mp4)
    (hhls : (hlsSystem audioInput' frameDuration').Run (.new audioInput' frameDuration') hlsSteps hls) :
    (TimesSound id frameDuration mp4Steps ∧
      ∀ step mp4', (mp4System audioInput frameDuration).step mp4 step mp4' →
        step.result = .ok false → mp4' = mp4 ∧ step.calls = []) ∧
    (TimesSound (fun _ => 0) frameDuration' hlsSteps ∧
      ∀ step hls', (hlsSystem audioInput' frameDuration').step hls step hls' →
        step.result = .ok false → hls' = hls ∧ step.calls = []) ∧
    ((handed mp4Steps).map Prod.fst = (handed hlsSteps).map Prod.fst →
      ∀ start ∈ sessionStarts mp4Steps,
        handed hlsSteps = (handed mp4Steps).map fun entry => (entry.1, entry.2 - start)) := by
  refine ⟨⟨run_timesSound Mp4Writer.keepsClock hmp4, fun _ _ hstep hrefused =>
      refused_unchanged Mp4Writer.keepsClock ⟨_, _, rfl, hmp4⟩ hstep hrefused⟩,
    ⟨run_timesSound HlsWriter.keepsClock hhls, fun _ _ hstep hrefused =>
      refused_unchanged HlsWriter.keepsClock ⟨_, _, rfl, hhls⟩ hstep hrefused⟩, ?_⟩
  intro hsame start hstart
  obtain ⟨mp4Clock, -, hmp4Recorded, -⟩ := run_recorded Mp4Writer.keepsClock hmp4
  obtain ⟨hlsClock, -, hhlsRecorded, -⟩ := run_recorded HlsWriter.keepsClock hhls
  cases mp4Clock with
  | idle =>
    rw [hmp4Recorded.2] at hstart
    exact absurd hstart List.not_mem_nil
  | running mp4Start _ _ =>
    obtain ⟨first, rest, -, rfl, hmp4Handed, -, hsession⟩ := hmp4Recorded
    rw [hsession] at hstart
    obtain rfl := List.mem_singleton.mp hstart
    cases hlsClock with
    | idle =>
      rw [hhlsRecorded.1, hmp4Handed] at hsame
      simp [presentedFrom, placed] at hsame
    | running hlsStart _ _ =>
      obtain ⟨first', rest', -, rfl, hhlsHanded, -, -⟩ := hhlsRecorded
      have hmap : ∀ origin start samples,
          (presentedFrom origin (placed start samples)).map Prod.fst = samples := by
        simp [presentedFrom, Function.comp_def]
      rw [hmp4Handed, hhlsHanded, hmap, hmap] at hsame
      obtain ⟨rfl, rfl⟩ := List.cons.inj hsame
      rw [hmp4Handed, hhlsHanded]
      simp [presentedFrom, Function.comp_def]

/-! ## Runs on both writers -/

/-- AVFoundation ready and taking every sample. -/
private def willing : Answers where
  ready := true
  accepts := true
  writerError := ""
  audioSampleBuffer := .ok ()
  errorBefore := .ok ()
  errorAfter := .ok ()
  finishAssetWriter := .ok ()
  finishPlaylist := .ok ()

private def micros (count : ℕ) : Duration := ⟨count * 1000⟩

/-- Frames at 10, 10, 10 and 11 microseconds. -/
private def crowded (times : List (ℕ × List AvCall)) : List WriterStep :=
  times.map fun entry => ⟨.append (micros entry.1), willing, .ok true, entry.2⟩

private def crowdedMp4 : List WriterStep :=
  crowded [(10, [.startSessionAtSourceTime 10, .appendPixelBuffer 10 true]),
    (10, [.appendPixelBuffer 11 true]), (10, [.appendPixelBuffer 12 true]),
    (11, [.appendPixelBuffer 13 true])]

private def crowdedHls : List WriterStep :=
  crowded [(10, [.startSessionAtSourceTime 0, .appendPixelBuffer 0 true]),
    (10, [.appendPixelBuffer 1 true]), (10, [.appendPixelBuffer 2 true]),
    (11, [.appendPixelBuffer 3 true])]

private theorem crowdedMp4_run : ∃ writer,
    (mp4System false (micros 1)).Run (.new false (micros 1)) crowdedMp4 writer :=
  ⟨_, .cons rfl (.cons rfl (.cons rfl (.cons rfl (.nil _))))⟩

private theorem crowdedHls_run : ∃ writer,
    (hlsSystem false (micros 1)).Run (.new false (micros 1)) crowdedHls writer :=
  ⟨_, .cons rfl (.cons rfl (.cons rfl (.cons rfl (.nil _))))⟩

/-- After three frames at 10 the frame at 11, later than all of them, is presented 3 after the first
one and not 1. -/
theorem later_frame_moves :
    (∃ steps writer earlier sample time, (mp4System false (micros 1)).Run (.new false (micros 1))
        steps writer ∧ handed steps = (⟨.video, 10, true⟩, 10) :: earlier ++ [(sample, time)] ∧
      sample.track = .video ∧
      (∀ z ∈ frames (((⟨.video, 10, true⟩, 10) :: earlier).map Prod.fst), z < sample.source) ∧
      time - 10 ≠ sample.source - 10) ∧
    (∃ steps writer earlier sample time, (hlsSystem false (micros 1)).Run (.new false (micros 1))
        steps writer ∧ handed steps = (⟨.video, 10, true⟩, 0) :: earlier ++ [(sample, time)] ∧
      sample.track = .video ∧
      (∀ z ∈ frames (((⟨.video, 10, true⟩, 0) :: earlier).map Prod.fst), z < sample.source) ∧
      time - 0 ≠ sample.source - 10) := by
  obtain ⟨mp4, hmp4⟩ := crowdedMp4_run
  obtain ⟨hls, hhls⟩ := crowdedHls_run
  refine ⟨⟨crowdedMp4, mp4, [(⟨.video, 10, true⟩, 11), (⟨.video, 10, true⟩, 12)],
    ⟨.video, 11, true⟩, 13, hmp4, rfl, rfl, ?_, by decide⟩,
    ⟨crowdedHls, hls, [(⟨.video, 10, true⟩, 1), (⟨.video, 10, true⟩, 2)],
    ⟨.video, 11, true⟩, 3, hhls, rfl, rfl, ?_, by decide⟩⟩
  · decide
  · decide

/-- The results at the crowded runs. -/
theorem writers_keep_time_crowded :
    handed crowdedHls = (handed crowdedMp4).map fun entry => (entry.1, entry.2 - 10) := by
  obtain ⟨mp4, hmp4⟩ := crowdedMp4_run
  obtain ⟨hls, hhls⟩ := crowdedHls_run
  exact (writers_keep_time hmp4 hhls).2.2 rfl 10 (List.mem_singleton.mpr rfl)

end Blip.Avf
