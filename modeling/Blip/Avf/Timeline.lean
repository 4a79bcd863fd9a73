import Blip.Avf.Writer
import Blip.Common.Raise
import Blip.Common.Stateful
import Blip.Common.System

/-!
# Presentation times

Both writers keep a clock: the timestamp of the first frame handed to AVFoundation and the offset of
the last frame it took. The clock's own rule (`place`) says where a sample is presented, as an offset
from the first frame; the MP4 writer presents it at the start plus the offset, the HLS writer at the
offset. The results about presentation times are about the rule, and both writers follow it.
-/

namespace Blip.Avf

/-! ## The rule -/

inductive Track
  | video
  | audio
deriving DecidableEq, Repr

/-- A sample handed to AVFoundation: its source timestamp in microseconds, and the answer. -/
structure Sample where
  track : Track
  source : ℤ
  accepted : Bool
deriving DecidableEq, Repr

/-- Frames that AVFoundation took. -/
def Sample.IsFrame (sample : Sample) : Prop := sample.track = .video ∧ sample.accepted = true

instance (sample : Sample) : Decidable sample.IsFrame :=
  inferInstanceAs (Decidable (_ ∧ _))

/-- How far a timestamp is after the start; earlier ones count as the start. -/
def distance (start source : ℤ) : ℤ := max (source - start) 0

/-- The source timestamps of the frames taken. -/
def frames (samples : List Sample) : List ℤ :=
  (samples.filter Sample.IsFrame).map Sample.source

/-- The offset of the last of the frames taken. -/
def lastOffset (start : ℤ) (samples : List Sample) : Option ℤ :=
  lastRaised none ((frames samples).map (distance start))

/-- Where a sample is presented after the samples before: a frame after every frame taken. -/
def place (start : ℤ) (before : List Sample) (sample : Sample) : ℤ :=
  match sample.track with
  | .video => raise (lastOffset start before) (distance start sample.source)
  | .audio => distance start sample.source

/-- The samples with their offsets. -/
def placed (start : ℤ) (samples : List Sample) : List (Sample × ℤ) :=
  samples.zipIdx.map fun entry => (entry.1, place start (samples.take entry.2) entry.1)

section

variable {start : ℤ} {samples before after : List Sample} {sample : Sample}

@[simp] theorem frames_append :
    frames (before ++ after) = frames before ++ frames after := by
  simp [frames]

theorem placed_append_singleton :
    placed start (samples ++ [sample]) =
      placed start samples ++ [(sample, place start samples sample)] := by
  rw [placed, List.zipIdx_append, List.map_append, placed]
  congr 1
  · refine List.map_congr_left fun entry hentry => ?_
    have hlt := List.snd_lt_of_mem_zipIdx hentry
    rw [List.take_append_of_le_length (by omega)]
  · simp

theorem placed_append (start : ℤ) (before after : List Sample) :
    ∃ tail, placed start (before ++ after) = placed start before ++ tail := by
  induction after using List.reverseRecOn with
  | nil => exact ⟨[], by simp⟩
  | append_singleton after sample ih =>
    obtain ⟨tail, htail⟩ := ih
    rw [← List.append_assoc, placed_append_singleton, htail, List.append_assoc]
    exact ⟨_, rfl⟩

@[simp] theorem placed_map_fst (start : ℤ) (samples : List Sample) :
    (placed start samples).map Prod.fst = samples := by
  simp [placed, List.map_map, Function.comp_def]

/-- Each offset is the rule's, for the samples before. -/
theorem placed_split {earlier later : List (Sample × ℤ)} {offset : ℤ}
    (h : placed start samples = earlier ++ (sample, offset) :: later) :
    earlier = placed start (earlier.map Prod.fst) ∧
      offset = place start (earlier.map Prod.fst) sample := by
  have hsamples : samples = earlier.map Prod.fst ++ [sample] ++ later.map Prod.fst := by
    rw [← placed_map_fst start samples, h]
    simp
  obtain ⟨tail, htail⟩ := placed_append start (earlier.map Prod.fst ++ [sample])
    (later.map Prod.fst)
  rw [← hsamples, h, placed_append_singleton, List.append_assoc] at htail
  have hlength := congrArg List.length (placed_map_fst start (earlier.map Prod.fst))
  rw [List.length_map, List.length_map] at hlength
  obtain ⟨hearlier, hrest⟩ := List.append_inj htail hlength.symm
  exact ⟨hearlier, congrArg Prod.snd (List.cons.inj hrest).1⟩

theorem lastOffset_append_singleton : lastOffset start (samples ++ [sample]) =
    if sample.IsFrame then some (raise (lastOffset start samples) (distance start sample.source))
    else lastOffset start samples := by
  rw [lastOffset, frames_append, List.map_append, lastRaised_append]
  by_cases h : sample.IsFrame <;> simp [frames, h, lastOffset]

/-- The offsets of the frames taken are their distances raised. -/
theorem frameOffsets : ((placed start samples).filter (·.1.IsFrame)).map Prod.snd =
    raisedFrom none ((frames samples).map (distance start)) := by
  induction samples using List.reverseRecOn with
  | nil => rfl
  | append_singleton samples sample ih =>
    rw [placed_append_singleton, List.filter_append, List.map_append, ih, frames_append,
      List.map_append, raisedFrom_append]
    congr 1
    by_cases h : sample.IsFrame
    · simp [frames, h, raisedFrom, place, h.1, lastOffset]
    · simp [frames, h, raisedFrom]

/-- No frame is placed before its distance. -/
theorem distance_le_frameOffsets : List.Forall₂ (· ≤ ·) ((frames samples).map (distance start))
    (((placed start samples).filter (·.1.IsFrame)).map Prod.snd) := by
  rw [frameOffsets]
  exact le_raisedFrom

/-- And none later than a strictly increasing timeline that keeps the distances forces it to. -/
theorem frameOffsets_le {offsets : List ℤ}
    (hdistances : List.Forall₂ (· ≤ ·) ((frames samples).map (distance start)) offsets)
    (hincreasing : offsets.Pairwise (· < ·)) :
    List.Forall₂ (· ≤ ·) (((placed start samples).filter (·.1.IsFrame)).map Prod.snd) offsets := by
  rw [frameOffsets]
  exact raisedFrom_le hdistances hincreasing (by simp)

theorem place_nonneg : 0 ≤ place start before sample := by
  have h : 0 ≤ distance start sample.source := le_max_right _ _
  unfold place
  split
  · exact h.trans le_raise
  · exact h

/-- A frame is placed after every frame taken. -/
theorem lt_place (hvideo : sample.track = .video) {entry : Sample × ℤ}
    (hentry : entry ∈ (placed start before).filter (·.1.IsFrame)) :
    entry.2 < place start before sample := by
  have hmem : entry.2 ∈ raisedFrom none ((frames before).map (distance start)) := by
    rw [← frameOffsets]
    exact List.mem_map_of_mem hentry
  simp only [place, hvideo, lastOffset]
  cases hlast : lastRaised none ((frames before).map (distance start)) with
  | none =>
    rw [lastRaised, Option.or_none, List.getLast?_eq_none_iff] at hlast
    rw [hlast] at hmem
    exact absurd hmem List.not_mem_nil
  | some l => exact (le_of_mem_lastRaised hmem hlast).trans_lt lt_raise

/-- A frame keeps its offset exactly when it is not before the start, and ahead of every frame taken
by as many microseconds as there are frames from that one on. -/
theorem place_eq_iff (hvideo : sample.track = .video) :
    place start before sample = sample.source - start ↔ start ≤ sample.source ∧
      ∀ earlier z later, frames before = earlier ++ z :: later →
        max start z + (later.length + 1) ≤ sample.source := by
  by_cases hstart : start ≤ sample.source
  swap
  · have hnonneg : 0 ≤ place start before sample := place_nonneg
    exact ⟨fun h => absurd (h ▸ hnonneg) (by omega), fun h => absurd h.1 hstart⟩
  rw [and_iff_right hstart]
  have hdistance : distance start sample.source = sample.source - start :=
    max_eq_left (by omega)
  have hahead : place start before sample = sample.source - start ↔
      ∀ l ∈ lastOffset start before, l < sample.source - start := by
    simp only [place, hvideo, hdistance]
    cases lastOffset start before with
    | none => simp [raise]
    | some l => rw [raise_eq_self]; simp
  rw [hahead, lastOffset, lastRaised_lt]
  constructor
  · intro h earlier z later heq
    have := h (earlier.map (distance start)) (distance start z) (later.map (distance start))
      (by rw [heq, List.map_append, List.map_cons])
    simp only [distance, List.length_map] at this
    omega
  · intro h earlier z later heq
    obtain ⟨earlier', rest, hframes, rfl, hrest⟩ := List.map_eq_append_iff.mp heq
    obtain ⟨z', later', rfl, rfl, rfl⟩ := List.map_eq_cons_iff.mp hrest
    have := h earlier' z' later' hframes
    simp only [distance, List.length_map]
    omega

end

/-! ## One call of a writer -/

/-- What the writers' three clock fields can hold. -/
inductive Clock
  | idle
  | running (start : ℤ) (nonneg : 0 ≤ start) (last : Option ℤ)

namespace Clock

@[simp] def startTimestampMicros : Clock → Option ℤ
  | idle => none
  | running start _ _ => some start

@[simp] def lastRelativeTimestampMicros : Clock → Option ℤ
  | idle => none
  | running _ _ last => last

@[simp] def started : Clock → Bool
  | idle => false
  | running _ _ _ => true

end Clock

def Writer.Shows (writer : Writer) (clock : Clock) : Prop :=
  writer.startTimestampMicros = clock.startTimestampMicros ∧
    writer.lastRelativeTimestampMicros = clock.lastRelativeTimestampMicros ∧
    writer.started = clock.started

/-- What a call can do to the clock, and what it hands to AVFoundation on the way: presentation
times are offsets from `origin` of the start. -/
inductive Clock.Performs (origin : ℤ → ℤ) (frameDuration source : ℤ) :
    Clock → List AvCall → Clock → Prop
  | nothing (clock : Clock) : Performs origin frameDuration source clock [] clock
  | first (nonneg : 0 ≤ source) (accepted : Bool) :
      Performs origin frameDuration source .idle
        [.startSessionAtSourceTime (origin source), .appendPixelBuffer (origin source) accepted]
        (.running source nonneg (if accepted then some 0 else none))
  | frame (start : ℤ) (nonneg : 0 ≤ start) (last : Option ℤ) (accepted : Bool) :
      Performs origin frameDuration source (.running start nonneg last)
        [.appendPixelBuffer (origin start + raise last (distance start source)) accepted]
        (.running start nonneg
          (if accepted then some (raise last (distance start source)) else last))
  | audio (start : ℤ) (nonneg : 0 ≤ start) (last : Option ℤ) (accepted : Bool) :
      Performs origin frameDuration source (.running start nonneg last)
        [.appendSampleBuffer (origin start + distance start source) accepted]
        (.running start nonneg last)
  | ending (start : ℤ) (nonneg : 0 ≤ start) (last : ℤ) :
      Performs origin frameDuration source (.running start nonneg (some last))
        [.endSessionAtSourceTime (origin start + last + max frameDuration 1)]
        (.running start nonneg (some last))

section

variable {timestamp : Duration} {answers : Answers} {clock : Clock}

@[simp] theorem checkedI64_zero : checkedI64 0 = .ok 0 := by decide

theorem checkedI64_eq_ok {value result : ℤ} :
    checkedI64 value = .ok result ↔ IsI64 value ∧ result = value := by
  unfold checkedI64
  split <;> simp_all [eq_comm]

theorem afterLast_eq_ok {last : Option ℤ} {relative result : ℤ}
    (h : afterLast last relative = .ok result) : result = raise last relative := by
  unfold afterLast at h
  split at h
  · exact (Except.ok.inj h).symm
  · rw [raise]
    split at h
    · rw [(checkedI64_eq_ok.mp h).2]
      omega
    · rw [← Except.ok.inj h]
      omega

variable {α : Type} {s : Writer × List AvCall} {Q : Except WriterError α → Writer × List AvCall → Prop}

@[simp] private theorem holds_self_bind {f : Writer → WriterM α} :
    Stateful.Holds (WriterM.self >>= f) s Q ↔ Stateful.Holds (f s.1) s Q := Iff.rfl

@[simp] private theorem holds_setSelf_bind {writer : Writer} {f : Unit → WriterM α} :
    Stateful.Holds (WriterM.setSelf writer >>= f) s Q ↔ Stateful.Holds (f ()) (writer, s.2) Q :=
  Iff.rfl

@[simp] private theorem holds_call_bind {c : AvCall} {f : Unit → WriterM α} :
    Stateful.Holds (WriterM.call c >>= f) s Q ↔ Stateful.Holds (f ()) (s.1, s.2 ++ [c]) Q :=
  Iff.rfl

variable {writer : Writer} {origin : ℤ → ℤ} {source : ℤ} {result : Except WriterError Bool}

/-- What a method of a writer does: the clock follows the rule, and a refusal does nothing. -/
def Writer.Follows (writer : Writer) (origin : ℤ → ℤ) (clock : Clock) (source : ℤ)
    (result : Except WriterError Bool) (s' : Writer × List AvCall) : Prop :=
  (∃ clock', s'.1.Shows clock' ∧
    clock.Performs origin writer.frameDuration.asMicros source s'.2 clock') ∧
  s'.1.frameDuration = writer.frameDuration ∧
  (result = .ok false → s' = (writer, []))

private theorem follows_nothing (hclock : writer.Shows clock) :
    writer.Follows origin clock source result (writer, []) :=
  ⟨⟨clock, hclock, .nothing _⟩, rfl, fun _ => rfl⟩

/-! ### Mp4Writer -/

theorem Mp4Writer.append_holds (hclock : writer.Shows clock) :
    Stateful.Holds (append timestamp answers) (writer, [])
      (writer.Follows id clock timestamp.asMicros) := by
  unfold append
  cases hready : answers.ready with
  | false => exact follows_nothing hclock
  | true =>
    obtain ⟨audioInput, frameDuration, _, _, _, finished⟩ := writer
    obtain ⟨rfl, rfl, rfl⟩ := hclock
    simp only [not_true_eq_false, ↓reduceIte, Bool.not_eq_true, ExceptT.bind_throw,
      Stateful.holds_lift_bind, holds_self_bind, holds_setSelf_bind]
    refine ⟨fun micros hmicros => ?_, fun _ _ => follows_nothing ⟨rfl, rfl, rfl⟩⟩
    obtain ⟨-, rfl⟩ := checkedI64_eq_ok.mp hmicros
    cases clock with
    | idle =>
      -- The first frame is its own start, so no later check can fail.
      simp only [Clock.startTimestampMicros, Clock.lastRelativeTimestampMicros, Clock.started,
        Option.getD_none, sub_self, checkedI64_zero, max_self, afterLast, add_zero, hmicros,
        Except.ok.injEq, forall_eq', reduceCtorEq, false_implies, implies_true, and_true,
        ↓reduceIte, holds_call_bind, holds_self_bind, holds_setSelf_bind]
      cases answers.accepts with
      | false => exact ⟨⟨_, ⟨rfl, rfl, rfl⟩, .first (Int.natCast_nonneg _) false⟩, rfl, by rintro ⟨⟩⟩
      | true => exact ⟨⟨_, ⟨rfl, rfl, rfl⟩, .first (Int.natCast_nonneg _) true⟩, rfl, by rintro ⟨⟩⟩
    | running start nonneg last =>
      simp only [Clock.startTimestampMicros, Clock.lastRelativeTimestampMicros, Clock.started,
        Option.getD_some, Bool.true_eq_false, ↓reduceIte, holds_call_bind]
      refine ⟨fun relative hrelative => ⟨fun offset hoffset => ⟨fun presented hpresented => ?_, ?_⟩,
        ?_⟩, ?_⟩
      · obtain ⟨-, rfl⟩ := checkedI64_eq_ok.mp hrelative
        obtain rfl := afterLast_eq_ok hoffset
        obtain ⟨-, rfl⟩ := checkedI64_eq_ok.mp hpresented
        cases answers.accepts with
        | false => exact ⟨⟨_, ⟨rfl, rfl, rfl⟩, .frame start nonneg last false⟩, rfl, by rintro ⟨⟩⟩
        | true => exact ⟨⟨_, ⟨rfl, rfl, rfl⟩, .frame start nonneg last true⟩, rfl, by rintro ⟨⟩⟩
      all_goals exact fun _ _ => follows_nothing ⟨rfl, rfl, rfl⟩

theorem Mp4Writer.appendAudio_holds (hclock : writer.Shows clock) :
    Stateful.Holds (appendAudio timestamp answers) (writer, [])
      (writer.Follows id clock timestamp.asMicros) := by
  unfold appendAudio
  obtain ⟨_ | _, frameDuration, _, _, _, finished⟩ := writer
  · exact follows_nothing hclock
  cases hready : answers.ready with
  | false => exact follows_nothing hclock
  | true =>
    obtain ⟨rfl, rfl, rfl⟩ := hclock
    simp only [not_true_eq_false, ↓reduceIte, Bool.not_eq_true, Bool.true_eq_false,
      Stateful.holds_lift_bind, holds_self_bind]
    refine ⟨fun micros hmicros => ?_, fun _ _ => follows_nothing ⟨rfl, rfl, rfl⟩⟩
    obtain ⟨-, rfl⟩ := checkedI64_eq_ok.mp hmicros
    cases clock with
    | idle => exact follows_nothing ⟨rfl, rfl, rfl⟩
    | running start nonneg last =>
      simp only [Clock.startTimestampMicros, Stateful.holds_lift_bind, holds_call_bind]
      refine ⟨fun _ _ => ?_, fun _ _ => follows_nothing ⟨rfl, rfl, rfl⟩⟩
      have htime : max (timestamp.asMicros : ℤ) start =
          id start + distance start timestamp.asMicros := by
        simp only [distance, id]
        omega
      rw [htime]
      cases answers.accepts with
      | false => exact ⟨⟨_, ⟨rfl, rfl, rfl⟩, .audio start nonneg last false⟩, rfl, by rintro ⟨⟩⟩
      | true => exact ⟨⟨_, ⟨rfl, rfl, rfl⟩, .audio start nonneg last true⟩, rfl, by rintro ⟨⟩⟩

theorem Mp4Writer.finish_holds (hclock : writer.Shows clock) :
    Stateful.Holds (finish answers) (writer, []) fun result =>
      writer.Follows id clock source (result.map fun _ => true) := by
  unfold finish
  obtain ⟨audioInput, frameDuration, _, _, _, _ | _⟩ := writer
  swap
  · exact follows_nothing hclock
  obtain ⟨rfl, rfl, rfl⟩ := hclock
  rcases clock with _ | ⟨start, nonneg, _ | last⟩
  · exact follows_nothing ⟨rfl, rfl, rfl⟩
  · exact follows_nothing ⟨rfl, rfl, rfl⟩
  · simp only [holds_self_bind, Bool.false_eq_true, ↓reduceIte, Clock.startTimestampMicros,
      Clock.lastRelativeTimestampMicros, Stateful.holds_lift_bind, holds_call_bind]
    refine ⟨fun micros hmicros => ⟨fun lastTime hlastTime => ⟨fun endTime hendTime => ?_, ?_⟩, ?_⟩, ?_⟩
    · obtain ⟨-, rfl⟩ := checkedI64_eq_ok.mp hmicros
      obtain ⟨-, rfl⟩ := checkedI64_eq_ok.mp hlastTime
      obtain ⟨-, rfl⟩ := checkedI64_eq_ok.mp hendTime
      refine ⟨fun _ _ => ?_, fun _ _ => ?_⟩
      · exact ⟨⟨_, ⟨rfl, rfl, rfl⟩, .ending start nonneg last⟩, rfl, by rintro ⟨⟩⟩
      · exact ⟨⟨_, ⟨rfl, rfl, rfl⟩, .ending start nonneg last⟩, rfl, by rintro ⟨⟩⟩
    all_goals exact fun _ _ => follows_nothing ⟨rfl, rfl, rfl⟩

/-! ### HlsWriter -/

theorem HlsWriter.append_holds (hclock : writer.Shows clock) :
    Stateful.Holds (append timestamp answers) (writer, [])
      (writer.Follows (fun _ => 0) clock timestamp.asMicros) := by
  unfold append
  refine Stateful.holds_lift_bind.mpr ⟨fun _ _ => ?_, fun _ _ => follows_nothing hclock⟩
  cases hready : answers.ready with
  | false => exact follows_nothing hclock
  | true =>
    obtain ⟨audioInput, frameDuration, _, _, _, finished⟩ := writer
    obtain ⟨rfl, rfl, rfl⟩ := hclock
    simp only [not_true_eq_false, ↓reduceIte, Bool.not_eq_true, ExceptT.bind_throw,
      Stateful.holds_lift_bind, holds_self_bind, holds_setSelf_bind]
    refine ⟨fun micros hmicros => ?_, fun _ _ => follows_nothing ⟨rfl, rfl, rfl⟩⟩
    obtain ⟨-, rfl⟩ := checkedI64_eq_ok.mp hmicros
    cases clock with
    | idle =>
      simp only [Clock.startTimestampMicros, Clock.lastRelativeTimestampMicros, Clock.started,
        Option.getD_none, sub_self, checkedI64_zero, max_self, afterLast, Except.ok.injEq,
        forall_eq', reduceCtorEq, false_implies, implies_true, and_true, ↓reduceIte,
        holds_call_bind, holds_self_bind, holds_setSelf_bind]
      cases answers.accepts with
      | false =>
        exact ⟨⟨_, ⟨rfl, rfl, rfl⟩, .first (Int.natCast_nonneg _) false⟩, rfl, by rintro ⟨⟩⟩
      | true =>
        simp only [Bool.true_eq_false, ↓reduceIte, holds_self_bind, holds_setSelf_bind,
          Stateful.holds_lift_bind]
        refine ⟨fun _ _ => ?_, fun _ _ => ?_⟩
        all_goals exact ⟨⟨_, ⟨rfl, rfl, rfl⟩, .first (Int.natCast_nonneg _) true⟩, rfl, by rintro ⟨⟩⟩
    | running start nonneg last =>
      simp only [Clock.startTimestampMicros, Clock.lastRelativeTimestampMicros, Clock.started,
        Option.getD_some, Bool.true_eq_false, ↓reduceIte, holds_call_bind]
      refine ⟨fun relative hrelative => ⟨fun offset hoffset => ?_, ?_⟩, ?_⟩
      · obtain ⟨-, rfl⟩ := checkedI64_eq_ok.mp hrelative
        obtain rfl := afterLast_eq_ok hoffset
        have hcall : AvCall.appendPixelBuffer (raise last (distance start timestamp.asMicros))
            answers.accepts = .appendPixelBuffer (0 + raise last (distance start timestamp.asMicros))
              answers.accepts := by rw [zero_add]
        rw [distance] at hcall
        rw [hcall]
        cases answers.accepts with
        | false => exact ⟨⟨_, ⟨rfl, rfl, rfl⟩, .frame start nonneg last false⟩, rfl, by rintro ⟨⟩⟩
        | true =>
          simp only [Bool.true_eq_false, ↓reduceIte, holds_self_bind, holds_setSelf_bind,
            Stateful.holds_lift_bind]
          refine ⟨fun _ _ => ?_, fun _ _ => ?_⟩
          all_goals exact ⟨⟨_, ⟨rfl, rfl, rfl⟩, .frame start nonneg last true⟩, rfl, by rintro ⟨⟩⟩
      all_goals exact fun _ _ => follows_nothing ⟨rfl, rfl, rfl⟩

theorem HlsWriter.appendAudio_holds (hclock : writer.Shows clock) :
    Stateful.Holds (appendAudio timestamp answers) (writer, [])
      (writer.Follows (fun _ => 0) clock timestamp.asMicros) := by
  unfold appendAudio
  obtain ⟨_ | _, frameDuration, _, _, _, finished⟩ := writer
  · exact follows_nothing hclock
  cases hready : answers.ready with
  | false => exact follows_nothing hclock
  | true =>
    obtain ⟨rfl, rfl, rfl⟩ := hclock
    simp only [not_true_eq_false, ↓reduceIte, Bool.not_eq_true, Bool.true_eq_false,
      Stateful.holds_lift_bind, holds_self_bind]
    refine ⟨fun micros hmicros => ?_, fun _ _ => follows_nothing ⟨rfl, rfl, rfl⟩⟩
    obtain ⟨hrange, rfl⟩ := checkedI64_eq_ok.mp hmicros
    cases clock with
    | idle => exact follows_nothing ⟨rfl, rfl, rfl⟩
    | running start nonneg last =>
      simp only [Clock.startTimestampMicros, Stateful.holds_lift_bind, holds_call_bind]
      refine ⟨fun _ _ => ?_, fun _ _ => follows_nothing ⟨rfl, rfl, rfl⟩⟩
      -- Both are timestamps, so their difference cannot saturate upwards.
      have htime : max (saturatingSub timestamp.asMicros start) 0 =
          0 + distance start timestamp.asMicros := by
        simp only [distance, saturatingSub, i64Min, i64Max, IsI64] at hrange ⊢
        omega
      rw [htime]
      cases answers.accepts with
      | false => exact ⟨⟨_, ⟨rfl, rfl, rfl⟩, .audio start nonneg last false⟩, rfl, by rintro ⟨⟩⟩
      | true =>
        refine Stateful.holds_lift_bind.mpr ⟨fun _ _ => ?_, fun _ _ => ?_⟩
        all_goals exact ⟨⟨_, ⟨rfl, rfl, rfl⟩, .audio start nonneg last true⟩, rfl, by rintro ⟨⟩⟩

theorem HlsWriter.finish_holds (hclock : writer.Shows clock) :
    Stateful.Holds (finish answers) (writer, []) fun result =>
      writer.Follows (fun _ => 0) clock source (result.map fun _ => true) := by
  unfold finish
  obtain ⟨audioInput, frameDuration, _, _, _, _ | _⟩ := writer
  swap
  · exact follows_nothing hclock
  obtain ⟨rfl, rfl, rfl⟩ := hclock
  rcases clock with _ | ⟨start, nonneg, _ | last⟩
  · exact follows_nothing ⟨rfl, rfl, rfl⟩
  · exact follows_nothing ⟨rfl, rfl, rfl⟩
  · simp only [holds_self_bind, Bool.false_eq_true, ↓reduceIte,
      Clock.lastRelativeTimestampMicros, Stateful.holds_lift_bind, holds_call_bind]
    refine ⟨fun micros hmicros => ⟨fun endTime hendTime => ?_, ?_⟩, ?_⟩
    · obtain ⟨-, rfl⟩ := checkedI64_eq_ok.mp hmicros
      obtain ⟨-, rfl⟩ := checkedI64_eq_ok.mp hendTime
      have hcall : AvCall.endSessionAtSourceTime (last + max (frameDuration.asMicros : ℤ) 1) =
          .endSessionAtSourceTime (0 + last + max (frameDuration.asMicros : ℤ) 1) := by rw [zero_add]
      rw [hcall]
      refine ⟨fun _ _ => ⟨fun _ _ => ⟨fun _ _ => ?_, fun _ _ => ?_⟩, fun _ _ => ?_⟩, fun _ _ => ?_⟩
      all_goals exact ⟨⟨_, ⟨rfl, rfl, rfl⟩, .ending start nonneg last⟩, rfl, by rintro ⟨⟩⟩
    all_goals exact fun _ _ => follows_nothing ⟨rfl, rfl, rfl⟩

end

end Blip.Avf
