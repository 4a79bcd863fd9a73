import Blip.Studio.Headless

/-!
# Runs of the headless pipeline

Every frame that a camera has delivered is counted once, and is in the end composed, overwritten or still
there; every picture is of the newest frames at the moment the pipeline took them; and the pipeline ends
after its deadline.
-/

namespace Blip

namespace Duration

variable {left right : Duration}

theorem max_nanos : (Max.max left right).nanos = Max.max left.nanos right.nanos := by
  rcases le_total left right with h | h
  · rw [max_eq_right h, max_eq_right (le_def.1 h)]
  · rw [max_eq_left h, max_eq_left (le_def.1 h)]

theorem saturatingAdd_le : (left.saturatingAdd right).nanos ≤ left.nanos + right.nanos := min_le_left _ _

theorem saturatingAdd_mono {left' right' : Duration} (hleft : left ≤ left') (hright : right ≤ right') :
    left.saturatingAdd right ≤ left'.saturatingAdd right' :=
  min_le_min_right _ (Nat.add_le_add hleft hright)

end Duration

namespace Studio.Exact

open Compositor (PixelBuffer)

/-! ## What is counted -/

/-- What the values of one report have in common. The counts and the durations saturate; below `u64::MAX`
no duration is longer than its maximum allows. -/
structure MetricValues.Sound (values : MetricValues) : Prop where
  captured : values.captured ≤ u64Max
  composeTime : values.composed < u64Max →
    values.composeTime.nanos ≤ values.composed * values.maximumComposeTime.nanos
  pipelineLatency : values.composed < u64Max →
    values.pipelineLatency.nanos ≤ values.composed * values.maximumPipelineLatency.nanos
  times : values.composeTime ≤ values.pipelineLatency
  maxima : values.maximumComposeTime ≤ values.maximumPipelineLatency
  mediaIntervals : values.mediaIntervals ≤ values.captured
  mediaDuration : values.mediaIntervals < u64Max →
    values.mediaDuration.nanos ≤ values.mediaIntervals * 999999999

theorem saturatingSucc_of_lt {count : ℕ} (h : count < u64Max) : saturatingSucc count = count + 1 :=
  min_eq_left h

theorem saturatingSucc_mono {left right : ℕ} (h : left ≤ right) :
    saturatingSucc left ≤ saturatingSucc right :=
  min_le_min_right _ (Nat.succ_le_succ h)

theorem lt_of_saturatingSucc_lt {count : ℕ} (h : saturatingSucc count < u64Max) : count < u64Max := by
  unfold saturatingSucc at h
  omega

theorem sound_default : MetricValues.default.Sound where
  captured := Nat.zero_le _
  composeTime _ := Nat.zero_le _
  pipelineLatency _ := Nat.zero_le _
  times := le_rfl
  maxima := le_rfl
  mediaIntervals := le_rfl
  mediaDuration _ := Nat.zero_le _

/-- A total that is at most its count times a maximum, with one more. -/
theorem saturatingAdd_le_mul {total more maximum : Duration} {count : ℕ}
    (h : count < u64Max → total.nanos ≤ count * maximum.nanos) (hcount : saturatingSucc count < u64Max) :
    (total.saturatingAdd more).nanos ≤ saturatingSucc count * (max maximum more).nanos := by
  have hbefore := lt_of_saturatingSucc_lt hcount
  have hsum := @Duration.saturatingAdd_le total more
  have hold := (h hbefore).trans (Nat.mul_le_mul_left count (le_max_left maximum.nanos more.nanos))
  have hnew := le_max_right maximum.nanos more.nanos
  rw [Duration.max_nanos, saturatingSucc_of_lt hbefore, Nat.succ_mul]
  omega

namespace Metrics

variable {metrics : Metrics}

theorem interval_le {presentationTimestamp : Option Duration} {interval : Duration}
    (h : metrics.interval presentationTimestamp = some interval) : interval.nanos ≤ 999999999 := by
  obtain ⟨timestamp, -, h⟩ := Option.bind_eq_some_iff.1 h
  obtain ⟨previous, -, h⟩ := Option.bind_eq_some_iff.1 h
  split at h
  · rename_i hle
    obtain rfl := Option.some.inj h
    exact Nat.le_of_lt_succ hle.2
  · cases h

theorem sound_recordCapture (h : metrics.inner.Sound) (presentationTimestamp : Option Duration) :
    (metrics.recordCapture presentationTimestamp).inner.Sound := by
  have hcaptured : metrics.inner.captured ≤ saturatingSucc metrics.inner.captured :=
    le_min (Nat.le_succ _) h.captured
  unfold recordCapture
  cases hinterval : metrics.interval presentationTimestamp with
  | none =>
    exact
      { h with
        captured := min_le_right _ _
        mediaIntervals := h.mediaIntervals.trans hcaptured }
  | some interval =>
    exact
      { h with
        captured := min_le_right _ _
        mediaIntervals := saturatingSucc_mono h.mediaIntervals
        mediaDuration := fun hlt => by
          have hbefore := lt_of_saturatingSucc_lt hlt
          calc (metrics.inner.mediaDuration.saturatingAdd interval).nanos
              ≤ metrics.inner.mediaDuration.nanos + interval.nanos := Duration.saturatingAdd_le
            _ ≤ metrics.inner.mediaIntervals * 999999999 + 999999999 :=
                Nat.add_le_add (h.mediaDuration hbefore) (interval_le hinterval)
            _ = saturatingSucc metrics.inner.mediaIntervals * 999999999 := by
                rw [saturatingSucc_of_lt hbefore, Nat.succ_mul] }

theorem recordCapture_counts (metrics : Metrics) (presentationTimestamp : Option Duration) :
    let values := (metrics.recordCapture presentationTimestamp).inner
    values.captured = saturatingSucc metrics.inner.captured ∧
      values.overwritten = metrics.inner.overwritten ∧ values.dropped = metrics.inner.dropped ∧
      values.composed = metrics.inner.composed := by
  unfold recordCapture
  cases metrics.interval presentationTimestamp <;> exact ⟨rfl, rfl, rfl, rfl⟩

theorem sound_recordComposition (h : metrics.inner.Sound) {composeTime pipelineLatency : Duration}
    (hle : composeTime ≤ pipelineLatency) :
    (metrics.recordComposition composeTime pipelineLatency).inner.Sound :=
  { h with
    composeTime := saturatingAdd_le_mul h.composeTime
    pipelineLatency := saturatingAdd_le_mul h.pipelineLatency
    times := Duration.saturatingAdd_mono h.times hle
    maxima := max_le_max h.maxima hle }

end Metrics

/-- The averages of a report are at most its maxima, and composing takes no longer than the latency that
it is a part of; the intervals between frames are shorter than a second on average. -/
structure MetricValues.Consistent (values : MetricValues) : Prop where
  composeTime : averageDuration values.composeTime values.composed ≤ values.maximumComposeTime
  pipelineLatency : averageDuration values.pipelineLatency values.composed ≤
    values.maximumPipelineLatency
  times : averageDuration values.composeTime values.composed ≤
    averageDuration values.pipelineLatency values.composed
  maxima : values.maximumComposeTime ≤ values.maximumPipelineLatency
  mediaIntervals : values.mediaIntervals ≤ values.captured
  mediaDuration : (averageDuration values.mediaDuration values.mediaIntervals).nanos < 1000000000

theorem averageDuration_le {total maximum : Duration} {count : ℕ}
    (h : count < u64Max → total.nanos ≤ count * maximum.nanos) :
    averageDuration total count ≤ maximum := by
  unfold averageDuration
  split
  · rename_i hcount
    have hlt : count < u64Max := hcount.1.trans (by decide)
    exact Nat.div_le_of_le_mul (h hlt)
  · exact Nat.zero_le _

theorem averageDuration_mono {left right : Duration} (h : left ≤ right) (count : ℕ) :
    averageDuration left count ≤ averageDuration right count := by
  unfold averageDuration
  split
  · exact Nat.div_le_div_right h
  · exact le_rfl

theorem MetricValues.Sound.consistent {values : MetricValues} (h : values.Sound) :
    values.Consistent where
  composeTime := averageDuration_le h.composeTime
  pipelineLatency := averageDuration_le h.pipelineLatency
  times := averageDuration_mono h.times _
  maxima := h.maxima
  mediaIntervals := h.mediaIntervals
  mediaDuration := Nat.lt_succ_of_le (@averageDuration_le _ ⟨999999999⟩ _ h.mediaDuration)

/-! ## The times of a run -/

/-- The times that the loop has read are in order, none before the last report or after the clock. -/
def PipelinePhase.Times (lastReport clock : ℕ) : PipelinePhase → Prop
  | .waiting since => since ≤ clock
  | .choosing now | .reporting now => lastReport ≤ now ∧ now ≤ clock
  | .starting now newestCapture => lastReport ≤ now ∧ now ≤ clock ∧ newestCapture ≤ clock
  | .composing now newestCapture composeStarted =>
    lastReport ≤ now ∧ now ≤ clock ∧ newestCapture ≤ composeStarted ∧ composeStarted ≤ clock
  | .checking | .drained _ | .finishing | .finished | .failed _ => True

theorem PipelinePhase.Times.tick {lastReport clock time : ℕ} (hle : clock ≤ time) :
    {phase : PipelinePhase} → phase.Times lastReport clock → phase.Times lastReport time
  | .waiting _, h => h.trans hle
  | .choosing _, h | .reporting _, h => ⟨h.1, h.2.trans hle⟩
  | .starting _ _, h => ⟨h.1, h.2.1.trans hle, h.2.2.trans hle⟩
  | .composing _ _ _, h => ⟨h.1, h.2.1.trans hle, h.2.2.1, h.2.2.2.trans hle⟩
  | .checking, _ | .drained _, _ | .finishing, _ | .finished, _ | .failed _, _ => trivial

namespace Pipeline

variable {Frame : Type} {inputs : PipelineInputs Frame} {s s' : Pipeline inputs.graph Frame}

/-- No frame is of a later time than the clock. -/
def Past (clock : ℕ) (frames : FrameMap inputs.graph Frame) : Prop :=
  ∀ camera frame, frames.lookup camera = some frame → frame.capturedAt ≤ clock

theorem past_empty {clock : ℕ} : Past clock (∅ : FrameMap inputs.graph Frame) := fun _ _ => nofun

theorem Past.union {clock : ℕ} {left right : FrameMap inputs.graph Frame} (hleft : Past clock left)
    (hright : Past clock right) : Past clock (left ∪ right) := fun camera frame hframe => by
  rcases AList.lookup_union_eq_some.1 hframe with h | ⟨-, h⟩
  · exact hleft camera frame h
  · exact hright camera frame h

theorem Past.insert {clock time : ℕ} {frames : FrameMap inputs.graph Frame} (h : Past clock frames)
    (camera : Camera inputs.graph) (pixelBuffer : PixelBuffer Frame) (hle : time ≤ clock) :
    Past clock (frames.insert camera { pixelBuffer, capturedAt := time }) := fun other frame hframe => by
  by_cases hsame : other = camera
  · rw [hsame, AList.lookup_insert] at hframe
    obtain rfl := Option.some.inj hframe
    exact hle
  · rw [AList.lookup_insert_ne hsame] at hframe
    exact h other frame hframe

/-- The reports follow on one another from the start, and each is sound. -/
structure Inv (s : Pipeline inputs.graph Frame) : Prop where
  latest : Past s.now s.latest
  frames : Past s.now s.frames
  lastReport : s.lastReport ≤ s.now
  times : s.phase.Times s.lastReport s.now
  intervals : (s.reports.map fun report => report.interval.nanos).sum + inputs.started = s.lastReport
  metrics : s.metrics.inner.Sound
  reports : ∀ report ∈ s.reports, report.values.Sound

theorem newestCapture_le (inv : s.Inv) : s.newestCapture inputs ≤ s.now := by
  unfold newestCapture
  cases hmax : (s.captureTimes inputs).max? with
  | none => exact le_rfl
  | some newest =>
    obtain ⟨element, -, helement⟩ := List.mem_filterMap.1 (List.max?_mem hmax)
    split at helement
    · obtain ⟨frame, hframe, rfl⟩ := Option.map_eq_some_iff.1 helement
      exact inv.frames _ frame hframe
    · cases helement

/-- A report ends at the time that it was made for. -/
theorem Inv.report {now : ℕ} {phase : PipelinePhase} (inv : s.Inv) (hlast : s.lastReport ≤ now)
    (hnow : now ≤ s.now) (hphase : phase.Times now s.now) :
    Inv { s.report inputs now with phase } where
  latest := inv.latest
  frames := inv.frames
  lastReport := hnow
  times := hphase
  intervals := by
    have hintervals := inv.intervals
    change ((s.reports ++ [({ values := _, interval := ⟨now - s.lastReport⟩ } : Report)]).map
      fun report => report.interval.nanos).sum + inputs.started = now
    rw [List.map_append, List.sum_append, List.map_singleton, List.sum_singleton]
    dsimp only
    omega
  metrics := sound_default
  reports := fun report hreport => by
    rcases List.mem_append.1 hreport with h | h
    · exact inv.reports report h
    · rw [List.mem_singleton.1 h]
      exact inv.metrics

theorem Inv.step {label : PipelineStep inputs.graph Frame} (inv : s.Inv)
    (h : s.step inputs label = some s') : s'.Inv := by
  cases label with
  | tick time =>
    dsimp only [Pipeline.step] at h
    split at h
    · rename_i hle
      obtain rfl := Option.some.inj h
      exact
        { inv with
          latest := fun camera frame hframe => (inv.latest camera frame hframe).trans hle
          frames := fun camera frame hframe => (inv.frames camera frame hframe).trans hle
          lastReport := inv.lastReport.trans hle
          times := inv.times.tick hle }
    · cases h
  | submit camera pixelBuffer presentationTimestamp =>
    dsimp only [Pipeline.step] at h
    split at h
    · obtain rfl := Option.some.inj h
      exact { inv with latest := inv.latest.insert camera pixelBuffer le_rfl }
    · cases h
  | countOverwrite =>
    dsimp only [Pipeline.step] at h
    split at h
    · obtain rfl := Option.some.inj h
      exact { inv with metrics := { inv.metrics with } }
    · cases h
  | countCapture =>
    dsimp only [Pipeline.step] at h
    split at h
    · obtain rfl := Option.some.inj h
      exact { inv with metrics := Metrics.sound_recordCapture inv.metrics _ }
    · cases h
  | drop =>
    obtain rfl := Option.some.inj h
    exact { inv with metrics := { inv.metrics with } }
  | check =>
    dsimp only [Pipeline.step] at h
    split at h
    · obtain rfl := Option.some.inj h
      refine { inv with times := ?_ }
      dsimp only
      split
      · exact le_rfl
      · trivial
    · cases h
  | drain =>
    dsimp only [Pipeline.step, Pipeline.drain] at h
    repeat' split at h
    · obtain rfl := Option.some.inj h
      exact { inv with times := trivial }
    · cases h
    · obtain rfl := Option.some.inj h
      exact
        { inv with
          latest := past_empty
          frames := inv.latest.union inv.frames
          times := trivial }
    · cases h
    · cases h
  | readClock =>
    dsimp only [Pipeline.step] at h
    split at h
    · obtain rfl := Option.some.inj h
      refine { inv with times := ?_ }
      dsimp only
      split
      · exact ⟨inv.lastReport, le_rfl⟩
      · exact ⟨inv.lastReport, le_rfl⟩
    · cases h
  | choose =>
    dsimp only [Pipeline.step] at h
    split at h
    · rename_i now hphase
      obtain rfl := Option.some.inj h
      have htimes := inv.times
      rw [hphase] at htimes
      exact { inv with times := ⟨htimes.1, htimes.2, newestCapture_le inv⟩ }
    · cases h
  | start =>
    dsimp only [Pipeline.step] at h
    split at h
    · rename_i now newestCapture hphase
      obtain rfl := Option.some.inj h
      have htimes := inv.times
      rw [hphase] at htimes
      exact { inv with times := ⟨htimes.1, htimes.2.1, htimes.2.2, le_rfl⟩ }
    · cases h
  | compose =>
    dsimp only [Pipeline.step] at h
    split at h
    · rename_i now newestCapture composeStarted hphase
      obtain rfl := Option.some.inj h
      have htimes := inv.times
      rw [hphase] at htimes
      unfold Pipeline.compose
      split
      · exact { inv with times := trivial }
      · exact
          { inv with
            times := ⟨htimes.1, htimes.2.1⟩
            metrics := Metrics.sound_recordComposition inv.metrics
              (Nat.sub_le_sub_left htimes.2.2.1 s.now) }
    · cases h
  | report =>
    dsimp only [Pipeline.step] at h
    split at h
    · rename_i now hphase
      obtain rfl := Option.some.inj h
      have htimes := inv.times
      rw [hphase] at htimes
      split
      · exact inv.report htimes.1 htimes.2 trivial
      · exact { inv with times := trivial }
    · cases h
  | finish =>
    dsimp only [Pipeline.step] at h
    split at h
    · obtain rfl := Option.some.inj h
      exact inv.report inv.lastReport le_rfl trivial
    · cases h

theorem inv_initial (inputs : PipelineInputs Frame) : (initial inputs).Inv where
  latest := past_empty
  frames := past_empty
  lastReport := le_rfl
  times := trivial
  intervals := Nat.zero_add _
  metrics := sound_default
  reports := nofun

end Pipeline

/-! ## Every frame once -/

namespace PipelineStep

variable {graph : SceneGraph} {Frame : Type}

def isSubmit : PipelineStep graph Frame → Bool
  | .submit _ _ _ => true
  | _ => false

def isDrop : PipelineStep graph Frame → Bool
  | .drop => true
  | _ => false

end PipelineStep

namespace Pipeline

variable {Frame : Type} {inputs : PipelineInputs Frame} {s s' : Pipeline inputs.graph Frame}

/-- A count over all reports and since the last. -/
def total (count : MetricValues → ℕ) (s : Pipeline inputs.graph Frame) : ℕ :=
  (s.reports.map fun report => count report.values).sum + count s.metrics.inner

/-- The frames that have replaced another and are not counted for it yet. -/
def overwriting (s : Pipeline inputs.graph Frame) : ℕ :=
  match s.submitting with
  | some (.overwriting _) => 1
  | _ => 0

theorem le_total (count : MetricValues → ℕ) (s : Pipeline inputs.graph Frame) :
    count s.metrics.inner ≤ s.total count :=
  Nat.le_add_left _ _

/-- One more is counted, as long as the count does not saturate. -/
theorem total_succ {count : MetricValues → ℕ} (s : Pipeline inputs.graph Frame)
    (hreports : s'.reports = s.reports)
    (hlt : s.total count < u64Max)
    (hcount : count s'.metrics.inner = saturatingSucc (count s.metrics.inner)) :
    s'.total count = s.total count + 1 := by
  unfold total at hlt ⊢
  rw [hreports, hcount, saturatingSucc_of_lt (by omega), Nat.add_assoc]

theorem total_report {count : MetricValues → ℕ} (hcount : count .default = 0) (now : ℕ) :
    (s.report inputs now).total count = s.total count := by
  unfold total
  change ((s.reports ++ [({ values := s.metrics.inner, interval := _ } : Report)]).map
    fun report => count report.values).sum + count .default = _
  rw [List.map_append, List.sum_append, List.map_singleton, List.sum_singleton, hcount, Nat.add_zero]

/-- Each frame that was delivered is counted as captured, once its callback has come to it; and it is
taken, overwritten or still there. -/
structure Counted (past : List (PipelineStep inputs.graph Frame)) (s : Pipeline inputs.graph Frame) :
    Prop where
  captured : s.total MetricValues.captured + s.submitting.toList.length =
    past.countP PipelineStep.isSubmit
  overwritten : s.total MetricValues.overwritten + s.overwriting + s.taken + s.latest.entries.length =
    past.countP PipelineStep.isSubmit
  dropped : s.total MetricValues.dropped = past.countP PipelineStep.isDrop
  composed : s.total MetricValues.composed = s.pictures.length
  pictures : s.pictures.length ≤ past.length

theorem length_insert (frames : FrameMap inputs.graph Frame) (camera : Camera inputs.graph)
    (frame : TimedFrame Frame) : (frames.insert camera frame).entries.length =
      frames.entries.length + if (frames.lookup camera).isSome then 0 else 1 := by
  have hlength : ∀ frames : FrameMap inputs.graph Frame, frames.entries.length = frames.keys.length :=
    fun _ => (List.length_map _).symm
  rw [hlength, hlength, AList.keys_insert, List.length_cons, List.length_erase]
  by_cases hmem : camera ∈ frames.keys
  · have hpos := List.length_pos_of_mem hmem
    rw [if_pos hmem, if_pos (AList.lookup_isSome.2 hmem)]
    omega
  · rw [if_neg hmem, if_neg fun h => hmem (AList.lookup_isSome.1 h)]

/-- A step that counts nothing. -/
theorem Counted.skip {past : List (PipelineStep inputs.graph Frame)}
    {label : PipelineStep inputs.graph Frame} (counted : Counted past s)
    (hlabel : label.isSubmit = false ∧ label.isDrop = false)
    (htotal : ∀ count : MetricValues → ℕ, count .default = 0 → s'.total count = s.total count)
    (hsubmitting : s'.submitting = s.submitting) (hpictures : s'.pictures = s.pictures)
    (htaken : s'.taken + s'.latest.entries.length = s.taken + s.latest.entries.length) :
    Counted (past ++ [label]) s' where
  captured := by
    rw [htotal _ rfl, hsubmitting, counted.captured]
    simp [List.countP_append, hlabel.1]
  overwritten := by
    have hoverwritten := counted.overwritten
    have hsame : s'.overwriting = s.overwriting := by
      unfold overwriting
      rw [hsubmitting]
    rw [htotal _ rfl, hsame, List.countP_append, List.countP_singleton, hlabel.1, if_neg nofun]
    omega
  dropped := by
    rw [htotal _ rfl, counted.dropped]
    simp [List.countP_append, hlabel.2]
  composed := by
    rw [htotal _ rfl, hpictures, counted.composed]
  pictures := by
    rw [hpictures, List.length_append]
    exact counted.pictures.trans (Nat.le_add_right _ _)

theorem Counted.step {past : List (PipelineStep inputs.graph Frame)}
    {label : PipelineStep inputs.graph Frame} (counted : Counted past s) (hpast : past.length < u64Max)
    (h : s.step inputs label = some s') : Counted (past ++ [label]) s' := by
  have hcaptured := counted.captured
  have hoverwritten := counted.overwritten
  have hdropped := counted.dropped
  have hcomposed := counted.composed
  have hpictures := counted.pictures
  have hsubmits := List.countP_le_length (p := PipelineStep.isSubmit) (l := past)
  have hdrops := List.countP_le_length (p := PipelineStep.isDrop) (l := past)
  cases label with
  | tick time =>
    dsimp only [Pipeline.step] at h
    split at h
    · obtain rfl := Option.some.inj h
      exact counted.skip ⟨rfl, rfl⟩ (fun _ _ => rfl) rfl rfl rfl
    · cases h
  | submit camera pixelBuffer presentationTimestamp =>
    dsimp only [Pipeline.step] at h
    split at h
    · rename_i hfree
      obtain rfl := Option.some.inj h
      have hnone := Option.isNone_iff_eq_none.1 hfree
      have hlength := length_insert s.latest camera { pixelBuffer, capturedAt := s.now }
      have hbefore : s.overwriting = 0 := by
        unfold overwriting
        rw [hnone]
      have hafter : (s.submit inputs camera pixelBuffer presentationTimestamp).overwriting =
          if (s.latest.lookup camera).isSome then 1 else 0 := by
        unfold overwriting Pipeline.submit
        cases (s.latest.lookup camera).isSome <;> rfl
      rw [hnone] at hcaptured
      constructor
      · rw [List.countP_append]
        exact congrArg (· + 1) hcaptured
      · rw [List.countP_append, hafter]
        change s.total _ + _ + s.taken +
          (s.latest.insert camera { pixelBuffer, capturedAt := s.now }).entries.length = _ + 1
        rw [hlength]
        split <;> omega
      · rw [List.countP_append]
        exact hdropped
      · exact hcomposed
      · rw [List.length_append]
        exact hpictures.trans (Nat.le_add_right _ _)
    · cases h
  | countOverwrite =>
    dsimp only [Pipeline.step] at h
    split at h
    · rename_i presentationTimestamp hsubmitting
      obtain rfl := Option.some.inj h
      have hbefore : s.overwriting = 1 := by
        unfold overwriting
        rw [hsubmitting]
      rw [hsubmitting] at hcaptured
      constructor
      · rw [List.countP_append]
        exact hcaptured
      · have htotal : Pipeline.total MetricValues.overwritten { s with
            metrics := s.metrics.recordOverwrite
            submitting := some (.capturing presentationTimestamp) } = _ :=
          total_succ s rfl (by omega) rfl
        rw [List.countP_append, htotal]
        change _ + 1 + 0 + s.taken + s.latest.entries.length = _ + 0
        omega
      · rw [List.countP_append]
        exact hdropped
      · exact hcomposed
      · rw [List.length_append]
        exact hpictures.trans (Nat.le_add_right _ _)
    · cases h
  | countCapture =>
    dsimp only [Pipeline.step] at h
    split at h
    · rename_i presentationTimestamp hsubmitting
      obtain rfl := Option.some.inj h
      have hbefore : s.overwriting = 0 := by
        unfold overwriting
        rw [hsubmitting]
      have hsame : ∀ count : MetricValues → ℕ,
          count (s.metrics.recordCapture presentationTimestamp).inner = count s.metrics.inner →
          Pipeline.total count { s with
            metrics := s.metrics.recordCapture presentationTimestamp
            submitting := none } = s.total count := fun count hcount => congrArg (_ + ·) hcount
      obtain ⟨hfirst, hsecond, hthird, hfourth⟩ :=
        Metrics.recordCapture_counts s.metrics presentationTimestamp
      rw [hsubmitting] at hcaptured
      constructor
      · rw [List.countP_append]
        exact Eq.trans (total_succ s rfl (by omega) hfirst) hcaptured
      · rw [List.countP_append, hsame MetricValues.overwritten hsecond]
        change _ + 0 + s.taken + s.latest.entries.length = _ + 0
        omega
      · rw [List.countP_append, hsame MetricValues.dropped hthird]
        exact hdropped
      · rw [hsame MetricValues.composed hfourth]
        exact hcomposed
      · rw [List.length_append]
        exact hpictures.trans (Nat.le_add_right _ _)
    · cases h
  | drop =>
    obtain rfl := Option.some.inj h
    constructor
    · rw [List.countP_append]
      exact hcaptured
    · rw [List.countP_append]
      exact hoverwritten
    · rw [List.countP_append]
      exact Eq.trans (total_succ s rfl (by omega) rfl) (congrArg (· + 1) hdropped)
    · exact hcomposed
    · rw [List.length_append]
      exact hpictures.trans (Nat.le_add_right _ _)
  | check =>
    dsimp only [Pipeline.step] at h
    split at h
    · obtain rfl := Option.some.inj h
      exact counted.skip ⟨rfl, rfl⟩ (fun _ _ => rfl) rfl rfl rfl
    · cases h
  | drain =>
    dsimp only [Pipeline.step, Pipeline.drain] at h
    repeat' split at h
    · obtain rfl := Option.some.inj h
      exact counted.skip ⟨rfl, rfl⟩ (fun _ _ => rfl) rfl rfl rfl
    · cases h
    · obtain rfl := Option.some.inj h
      exact counted.skip ⟨rfl, rfl⟩ (fun _ _ => rfl) rfl rfl rfl
    · cases h
    · cases h
  | readClock =>
    dsimp only [Pipeline.step] at h
    split at h
    · obtain rfl := Option.some.inj h
      exact counted.skip ⟨rfl, rfl⟩ (fun _ _ => rfl) rfl rfl rfl
    · cases h
  | choose =>
    dsimp only [Pipeline.step] at h
    split at h
    · obtain rfl := Option.some.inj h
      exact counted.skip ⟨rfl, rfl⟩ (fun _ _ => rfl) rfl rfl rfl
    · cases h
  | start =>
    dsimp only [Pipeline.step] at h
    split at h
    · obtain rfl := Option.some.inj h
      exact counted.skip ⟨rfl, rfl⟩ (fun _ _ => rfl) rfl rfl rfl
    · cases h
  | compose =>
    dsimp only [Pipeline.step] at h
    split at h
    · rename_i now newestCapture composeStarted hphase
      obtain rfl := Option.some.inj h
      unfold Pipeline.compose
      split
      · exact counted.skip ⟨rfl, rfl⟩ (fun _ _ => rfl) rfl rfl rfl
      · constructor
        · rw [List.countP_append]
          exact hcaptured
        · rw [List.countP_append]
          exact hoverwritten
        · rw [List.countP_append]
          exact hdropped
        · rw [List.length_append]
          exact Eq.trans (total_succ s rfl (by omega) rfl) (congrArg (· + 1) hcomposed)
        · rw [List.length_append, List.length_append]
          exact Nat.succ_le_succ hpictures
    · cases h
  | report =>
    dsimp only [Pipeline.step] at h
    split at h
    · rename_i now hphase
      obtain rfl := Option.some.inj h
      split
      · exact counted.skip ⟨rfl, rfl⟩ (fun _ hcount => total_report hcount now) rfl rfl rfl
      · exact counted.skip ⟨rfl, rfl⟩ (fun _ _ => rfl) rfl rfl rfl
    · cases h
  | finish =>
    dsimp only [Pipeline.step] at h
    split at h
    · obtain rfl := Option.some.inj h
      exact counted.skip ⟨rfl, rfl⟩ (fun _ hcount => total_report hcount s.now) rfl rfl rfl
    · cases h

/-- In every interleaving each frame that a camera has delivered is counted once: of those delivered,
the ones not taken and no longer there have been counted as overwritten, and what is composed is counted
as composed, as long as the counts do not saturate. The reports follow on one another without a gap, and
each is consistent. -/
theorem pipeline_accounts {labels : List (PipelineStep inputs.graph Frame)}
    (h : (headlessPipeline inputs).Run (.initial inputs) labels s) :
    (labels.length ≤ u64Max → Counted labels s) ∧
      (s.reports.map fun report => report.interval.nanos).sum + inputs.started = s.lastReport ∧
      s.lastReport ≤ s.now ∧ ∀ report ∈ s.reports, report.values.Consistent := by
  have inv : s.Inv := h.invariant (P := Inv) (fun _ _ _ inv hstep => inv.step hstep) (inv_initial inputs)
  refine ⟨?_, inv.intervals, inv.lastReport, fun report hreport =>
    (inv.reports report hreport).consistent⟩
  refine h.history (P := fun past s => past.length ≤ u64Max → Counted past s)
    (fun past _ _ _ hcounted hstep hlength => ?_) fun _ => ⟨rfl, rfl, rfl, rfl, le_rfl⟩
  rw [List.length_append, List.length_singleton] at hlength
  exact (hcounted (by omega)).step hlength hstep

/-- One camera that fills the canvas, for a second. -/
def oneCamera : PipelineInputs Unit where
  gpu := ⟨fun _ => none, fun _ _ => none, fun _ => none⟩
  graph :=
    { canvas := (4, 2)
      sources := fun source => if source = "desk" then some .camera else none
      elements := [⟨"desk", (1 / 2, 1 / 2), (1, 1), 0⟩] }
  captureOnly := false
  started := 0
  duration := ⟨1000000000⟩

def deskFrame (width : ℕ) : PixelBuffer Unit where
  pixels := .frame ()
  pixelFormat := Compositor.kCVPixelFormatType_32BGRA
  width := width
  height := 2
  planes := []

/-- The second frame of the camera replaces the first, and is composed. -/
def deskLabels : List (PipelineStep oneCamera.graph Unit) :=
  [.submit ⟨"desk", rfl⟩ (deskFrame 2) none, .countCapture, .check, .tick 5,
    .submit ⟨"desk", rfl⟩ (deskFrame 4) (some ⟨5⟩), .countOverwrite, .countCapture, .drain, .readClock,
    .choose, .start, .tick 8, .compose, .tick 2000000000, .report, .check, .finish]

theorem run_desk : ∃ s, (headlessPipeline oneCamera).Run (.initial oneCamera) deskLabels s ∧
    s.pictures.length = 1 ∧ s.now = 2000000000 := by
  have hruns : (deskLabels.foldlM (Pipeline.step oneCamera) (.initial oneCamera)).map
      (fun s => (s.pictures.length, s.now)) = some (1, 2000000000) := by decide +kernel
  obtain ⟨s, hs, hpictures⟩ := Option.map_eq_some_iff.1 hruns
  obtain ⟨hlength, hnow⟩ := Prod.mk.inj hpictures
  exact ⟨s, System.run_foldlM hs, hlength, hnow⟩

theorem pipeline_accounts_desk : ∃ s, s.pictures.length = 1 ∧ Counted deskLabels s := by
  obtain ⟨s, hrun, hlength, -⟩ := run_desk
  exact ⟨s, hlength, (pipeline_accounts hrun).1 (by decide)⟩

end Pipeline

/-! ## The newest frames -/

/-- The frame of a camera that a step delivers. -/
def PipelineStep.delivered {graph : SceneGraph} {Frame : Type} (camera : Camera graph) :
    PipelineStep graph Frame → Option (PixelBuffer Frame)
  | .submit other pixelBuffer _ => if other = camera then some pixelBuffer else none
  | _ => none

/-- The frame that each camera has delivered last. -/
def newestFrames {graph : SceneGraph} {Frame : Type} (past : List (PipelineStep graph Frame))
    (camera : Camera graph) : Option (PixelBuffer Frame) :=
  (past.filterMap (PipelineStep.delivered camera)).getLast?

theorem newestFrames_append {graph : SceneGraph} {Frame : Type} (past : List (PipelineStep graph Frame))
    (label : PipelineStep graph Frame) (camera : Camera graph) :
    newestFrames (past ++ [label]) camera = (label.delivered camera).or (newestFrames past camera) := by
  unfold newestFrames
  rw [List.filterMap_append]
  cases hlabel : label.delivered camera with
  | none => simp [hlabel]
  | some frame => simp [hlabel]

/-- The pipeline has frames to compose. -/
def PipelinePhase.Received : PipelinePhase → Prop
  | .drained receivedFrame => receivedFrame = true
  | .choosing _ | .starting _ _ | .composing _ _ _ => True
  | .checking | .waiting _ | .reporting _ | .finishing | .finished | .failed _ => False

namespace Pipeline

variable {Frame : Type} {inputs : PipelineInputs Frame} {s s' : Pipeline inputs.graph Frame}

/-- Every picture is composed of the newest frames before a drain of its own, in their order. -/
structure Batches (past : List (PipelineStep inputs.graph Frame))
    (befores : List (List (PipelineStep inputs.graph Frame))) (pictures : List (PixelBuffer Frame)) :
    Prop where
  pictures : List.Forall₂ (fun before picture =>
    Exact.compose inputs.gpu inputs.graph (cameraFrames (newestFrames before)) = .ok picture)
      befores pictures
  order : befores.Pairwise fun first second => first.length < second.length
  drains : ∀ before ∈ befores, before ++ [PipelineStep.drain] <+: past

/-- The loop has the newest frames before a drain that no picture is of yet. -/
def Drained (past : List (PipelineStep inputs.graph Frame))
    (befores : List (List (PipelineStep inputs.graph Frame)))
    (frames : FrameMap inputs.graph Frame) : Prop :=
  ∃ before, before ++ [PipelineStep.drain] <+: past ∧
    (∀ earlier ∈ befores, earlier.length < before.length) ∧
    ∀ camera, (frames.lookup camera).map TimedFrame.pixelBuffer = newestFrames before camera

structure Newest (past : List (PipelineStep inputs.graph Frame)) (s : Pipeline inputs.graph Frame) :
    Prop where
  current : ∀ camera, ((s.latest.lookup camera).or (s.frames.lookup camera)).map TimedFrame.pixelBuffer =
    newestFrames past camera
  batches : ∃ befores, Batches past befores s.pictures ∧
    (s.phase.Received → Drained past befores s.frames)

section

variable {past : List (PipelineStep inputs.graph Frame)} {label : PipelineStep inputs.graph Frame}

theorem Batches.later {befores : List (List (PipelineStep inputs.graph Frame))}
    {pictures : List (PixelBuffer Frame)} (batches : Batches past befores pictures) :
    Batches (past ++ [label]) befores pictures :=
  { batches with
    drains := fun before hbefore => (batches.drains before hbefore).trans (List.prefix_append _ _) }

theorem Drained.later {befores : List (List (PipelineStep inputs.graph Frame))}
    {frames : FrameMap inputs.graph Frame} : Drained past befores frames →
      Drained (past ++ [label]) befores frames
  | ⟨before, hdrain, hlater, hframes⟩ =>
    ⟨before, hdrain.trans (List.prefix_append _ _), hlater, hframes⟩

/-- A step that neither delivers nor takes frames, nor composes. -/
theorem Newest.skip (newest : Newest past s) (hlabel : ∀ camera, label.delivered camera = none)
    (hlatest : s'.latest = s.latest) (hframes : s'.frames = s.frames)
    (hpictures : s'.pictures = s.pictures)
    (hreceived : s'.phase.Received → s.phase.Received) : Newest (past ++ [label]) s' where
  current camera := by
    rw [newestFrames_append, hlabel, hlatest, hframes, newest.current]
    rfl
  batches := by
    obtain ⟨befores, batches, hdrained⟩ := newest.batches
    rw [hpictures, hframes]
    exact ⟨befores, batches.later, fun h => (hdrained (hreceived h)).later⟩

theorem Newest.submit (newest : Newest past s) (camera : Camera inputs.graph)
    (pixelBuffer : PixelBuffer Frame) (presentationTimestamp : Option Duration) :
    Newest (past ++ [.submit camera pixelBuffer presentationTimestamp])
      (s.submit inputs camera pixelBuffer presentationTimestamp) where
  current other := by
    rw [newestFrames_append, ← newest.current]
    by_cases hsame : camera = other
    · subst hsame
      change (((s.latest.insert camera _).lookup camera).or _).map _ = _
      rw [AList.lookup_insert, PipelineStep.delivered, if_pos rfl]
      rfl
    · change (((s.latest.insert camera _).lookup other).or _).map _ = _
      rw [AList.lookup_insert_ne fun h => hsame h.symm, PipelineStep.delivered, if_neg hsame]
      rfl
  batches := by
    obtain ⟨befores, batches, hdrained⟩ := newest.batches
    exact ⟨befores, batches.later, fun h => (hdrained h).later⟩

/-- The frames that are taken are the newest, with those that the loop has of the other cameras. -/
theorem Newest.drain (newest : Newest past s) :
    Newest (past ++ [.drain])
      { s with
        latest := ∅
        frames := s.latest ∪ s.frames
        phase := .drained true
        taken := s.taken + s.latest.entries.length } := by
  have hunion : ∀ camera, ((s.latest ∪ s.frames).lookup camera).map TimedFrame.pixelBuffer =
      newestFrames past camera := by
    intro camera
    rw [← newest.current]
    by_cases hmem : camera ∈ s.latest
    · rw [AList.lookup_union_left hmem]
      obtain ⟨frame, hframe⟩ := Option.isSome_iff_exists.1 (AList.lookup_isSome.2 hmem)
      rw [hframe]
      rfl
    · rw [AList.lookup_union_right hmem, AList.lookup_eq_none.2 hmem]
      rfl
  refine ⟨fun camera => ?_, ?_⟩
  · rw [newestFrames_append]
    exact hunion camera
  · obtain ⟨befores, batches, -⟩ := newest.batches
    refine ⟨befores, batches.later, fun _ => ⟨past, List.prefix_rfl, fun earlier hearlier => ?_, hunion⟩⟩
    have hlength := (batches.drains earlier hearlier).length_le
    rw [List.length_append, List.length_singleton] at hlength
    exact hlength

theorem Newest.compose (newest : Newest past s) (hreceived : s.phase.Received)
    (now newestCapture composeStarted : ℕ) :
    Newest (past ++ [.compose]) (s.compose inputs now newestCapture composeStarted) := by
  unfold Pipeline.compose
  split
  · exact newest.skip (fun _ => rfl) rfl rfl rfl False.elim
  · rename_i picture hpicture
    refine ⟨fun camera => ?_, ?_⟩
    · rw [newestFrames_append]
      exact newest.current camera
    · obtain ⟨befores, batches, hdrained⟩ := newest.batches
      obtain ⟨before, hdrain, hlater, hframes⟩ := hdrained hreceived
      have hcomposed : s.composed inputs = cameraFrames (newestFrames before) :=
        congrArg cameraFrames (funext hframes)
      rw [hcomposed] at hpicture
      refine ⟨befores ++ [before], ⟨List.rel_append batches.pictures (.cons hpicture .nil), ?_, ?_⟩,
        False.elim⟩
      · refine List.pairwise_append.2 ⟨batches.order, List.pairwise_singleton _ _, ?_⟩
        rintro earlier hearlier _ hlast
        rw [List.mem_singleton.1 hlast]
        exact hlater earlier hearlier
      · intro earlier hearlier
        rcases List.mem_append.1 hearlier with h | h
        · exact batches.later.drains earlier h
        · rw [List.mem_singleton.1 h]
          exact hdrain.trans (List.prefix_append _ _)

theorem Newest.step (newest : Newest past s) (h : s.step inputs label = some s') :
    Newest (past ++ [label]) s' := by
  cases label with
  | submit camera pixelBuffer presentationTimestamp =>
    dsimp only [Pipeline.step] at h
    split at h
    · obtain rfl := Option.some.inj h
      exact newest.submit camera pixelBuffer presentationTimestamp
    · cases h
  | drain =>
    dsimp only [Pipeline.step, Pipeline.drain] at h
    repeat' split at h
    · obtain rfl := Option.some.inj h
      exact newest.skip (fun _ => rfl) rfl rfl rfl nofun
    · cases h
    · obtain rfl := Option.some.inj h
      exact newest.drain
    · cases h
    · cases h
  | compose =>
    dsimp only [Pipeline.step] at h
    split at h
    · rename_i now newestCapture composeStarted hphase
      obtain rfl := Option.some.inj h
      exact newest.compose (by rw [hphase]; trivial) now newestCapture composeStarted
    · cases h
  | readClock =>
    dsimp only [Pipeline.step] at h
    split at h
    · rename_i receivedFrame hphase
      obtain rfl := Option.some.inj h
      refine newest.skip (fun _ => rfl) rfl rfl rfl fun hreceived => ?_
      dsimp only at hreceived
      rw [hphase]
      split at hreceived
      · rename_i hcompose
        exact hcompose.2
      · exact hreceived.elim
    · cases h
  | check =>
    dsimp only [Pipeline.step] at h
    split at h
    · obtain rfl := Option.some.inj h
      refine newest.skip (fun _ => rfl) rfl rfl rfl fun hreceived => ?_
      dsimp only at hreceived
      split at hreceived <;> exact hreceived.elim
    · cases h
  | choose | start =>
    dsimp only [Pipeline.step] at h
    split at h
    · rename_i hphase
      obtain rfl := Option.some.inj h
      exact newest.skip (fun _ => rfl) rfl rfl rfl fun _ => by rw [hphase]; trivial
    · cases h
  | report =>
    dsimp only [Pipeline.step] at h
    split at h
    · obtain rfl := Option.some.inj h
      split <;> exact newest.skip (fun _ => rfl) rfl rfl rfl False.elim
    · cases h
  | finish =>
    dsimp only [Pipeline.step] at h
    split at h
    · obtain rfl := Option.some.inj h
      exact newest.skip (fun _ => rfl) rfl rfl rfl False.elim
    · cases h
  | drop =>
    obtain rfl := Option.some.inj h
    exact newest.skip (fun _ => rfl) rfl rfl rfl id
  | tick | countOverwrite | countCapture =>
    dsimp only [Pipeline.step] at h
    split at h
    · obtain rfl := Option.some.inj h
      exact newest.skip (fun _ => rfl) rfl rfl rfl id
    · cases h

end

/-- In every interleaving each picture is composed of the frames that every camera had delivered last
when the pipeline took frames, and no two pictures are of the same drain. -/
theorem pipeline_composes {labels : List (PipelineStep inputs.graph Frame)}
    (h : (headlessPipeline inputs).Run (.initial inputs) labels s) :
    ∃ befores : List (List (PipelineStep inputs.graph Frame)),
      List.Forall₂ (fun before picture =>
        Exact.compose inputs.gpu inputs.graph (cameraFrames (newestFrames before)) = .ok picture)
        befores s.pictures ∧
      befores.Pairwise (fun first second => first.length < second.length) ∧
      ∀ before ∈ befores, before ++ [PipelineStep.drain] <+: labels := by
  have newest : Newest labels s := h.history (P := Newest)
    (fun _ _ _ _ newest hstep => newest.step hstep)
    ⟨fun _ => rfl, [], ⟨.nil, .nil, nofun⟩, False.elim⟩
  obtain ⟨befores, batches, -⟩ := newest.batches
  exact ⟨befores, batches.pictures, batches.order, batches.drains⟩

theorem pipeline_composes_desk : ∃ (before : List (PipelineStep oneCamera.graph Unit))
    (picture : PixelBuffer Unit), before ++ [PipelineStep.drain] <+: deskLabels ∧
      Exact.compose oneCamera.gpu oneCamera.graph
        (cameraFrames (newestFrames before)) = .ok picture := by
  obtain ⟨s, hrun, hlength, -⟩ := run_desk
  obtain ⟨befores, hpictures, -, hdrains⟩ := pipeline_composes hrun
  obtain ⟨picture, hpicture⟩ := List.length_eq_one_iff.1 hlength
  rw [hpicture] at hpictures
  obtain ⟨before, rest, hbefore, -, rfl⟩ := List.forall₂_cons_right_iff.1 hpictures
  exact ⟨before, picture, hdrains before List.mem_cons_self, hbefore⟩

end Pipeline

/-! ## The end -/

namespace PipelineStep

variable {graph : SceneGraph} {Frame : Type}

/-- The steps of the pipeline itself. -/
def isOwn : PipelineStep graph Frame → Bool
  | .check | .drain | .readClock | .choose | .start | .compose | .report | .finish => true
  | .tick _ | .submit _ _ _ | .countOverwrite | .countCapture | .drop => false

/-- The steps of a callback that holds the frames. -/
def isCount : PipelineStep graph Frame → Bool
  | .countOverwrite | .countCapture => true
  | _ => false

end PipelineStep

/-- How many steps are left after the deadline. -/
def PipelinePhase.left : PipelinePhase → ℕ
  | .waiting _ => 8
  | .drained _ => 7
  | .choosing _ => 6
  | .starting _ _ => 5
  | .composing _ _ _ => 4
  | .reporting _ => 3
  | .checking => 2
  | .finishing => 1
  | .finished | .failed _ => 0

namespace Pipeline

variable {Frame : Type} {inputs : PipelineInputs Frame} {s s' : Pipeline inputs.graph Frame}

theorem left_step {label : PipelineStep inputs.graph Frame}
    (hdeadline : inputs.started + inputs.duration.nanos ≤ s.now) (h : s.step inputs label = some s') :
    inputs.started + inputs.duration.nanos ≤ s'.now ∧
      s'.phase.left + (if label.isOwn then 1 else 0) ≤ s.phase.left := by
  cases label with
  | tick time =>
    dsimp only [Pipeline.step] at h
    split at h
    · rename_i hle
      obtain rfl := Option.some.inj h
      exact ⟨hdeadline.trans hle, le_rfl⟩
    · cases h
  | submit | countOverwrite | countCapture =>
    dsimp only [Pipeline.step] at h
    split at h
    · obtain rfl := Option.some.inj h
      exact ⟨hdeadline, le_rfl⟩
    · cases h
  | drop =>
    obtain rfl := Option.some.inj h
    exact ⟨hdeadline, le_rfl⟩
  | check =>
    dsimp only [Pipeline.step] at h
    split at h
    · rename_i hphase
      obtain rfl := Option.some.inj h
      rw [hphase, if_neg (Nat.not_lt.2 hdeadline)]
      exact ⟨hdeadline, le_rfl⟩
    · cases h
  | drain =>
    dsimp only [Pipeline.step, Pipeline.drain] at h
    split at h
    · rename_i hphase
      rw [hphase]
      repeat' split at h
      · obtain rfl := Option.some.inj h
        exact ⟨hdeadline, le_rfl⟩
      · cases h
      · obtain rfl := Option.some.inj h
        exact ⟨hdeadline, le_rfl⟩
      · cases h
    · cases h
  | readClock =>
    dsimp only [Pipeline.step] at h
    split at h
    · rename_i hphase
      obtain rfl := Option.some.inj h
      rw [hphase]
      refine ⟨hdeadline, ?_⟩
      dsimp only
      split
      · exact le_rfl
      · exact Nat.le_of_ble_eq_true rfl
    · cases h
  | choose | start =>
    dsimp only [Pipeline.step] at h
    split at h
    · rename_i hphase
      obtain rfl := Option.some.inj h
      rw [hphase]
      exact ⟨hdeadline, le_rfl⟩
    · cases h
  | compose =>
    dsimp only [Pipeline.step] at h
    split at h
    · rename_i hphase
      obtain rfl := Option.some.inj h
      rw [hphase]
      unfold Pipeline.compose
      split
      · exact ⟨hdeadline, Nat.le_of_ble_eq_true rfl⟩
      · exact ⟨hdeadline, le_rfl⟩
    · cases h
  | report =>
    dsimp only [Pipeline.step] at h
    split at h
    · rename_i hphase
      obtain rfl := Option.some.inj h
      rw [hphase]
      split <;> exact ⟨hdeadline, le_rfl⟩
    · cases h
  | finish =>
    dsimp only [Pipeline.step] at h
    split at h
    · rename_i hphase
      obtain rfl := Option.some.inj h
      rw [hphase]
      exact ⟨hdeadline, le_rfl⟩
    · cases h

/-- A wait begins before the deadline. -/
theorem waiting_step {label : PipelineStep inputs.graph Frame} {since : ℕ}
    (h : s.step inputs label = some s') (hphase : s'.phase = .waiting since) :
    s.phase = .waiting since ∨ since < inputs.started + inputs.duration.nanos := by
  cases label with
  | check =>
    dsimp only [Pipeline.step] at h
    split at h
    · obtain rfl := Option.some.inj h
      dsimp only at hphase
      split at hphase
      · rename_i hlt
        obtain rfl := PipelinePhase.waiting.inj hphase
        exact .inr hlt
      · cases hphase
    · cases h
  | tick | submit | countOverwrite | countCapture =>
    dsimp only [Pipeline.step] at h
    split at h
    · obtain rfl := Option.some.inj h
      exact .inl hphase
    · cases h
  | drop =>
    obtain rfl := Option.some.inj h
    exact .inl hphase
  | drain =>
    dsimp only [Pipeline.step, Pipeline.drain] at h
    repeat' split at h
    all_goals first
      | obtain rfl := Option.some.inj h
        cases hphase
      | cases h
  | readClock =>
    dsimp only [Pipeline.step] at h
    split at h
    · obtain rfl := Option.some.inj h
      dsimp only at hphase
      split at hphase <;> cases hphase
    · cases h
  | choose | start | report | finish =>
    dsimp only [Pipeline.step] at h
    split at h
    · obtain rfl := Option.some.inj h
      cases hphase
    · cases h
  | compose =>
    dsimp only [Pipeline.step] at h
    split at h
    · obtain rfl := Option.some.inj h
      unfold Pipeline.compose at hphase
      split at hphase <;> cases hphase
    · cases h

/-- After its deadline the pipeline takes at most eight steps, whatever the cameras deliver meanwhile;
and once its last wait is over, it or a callback that holds the frames can step until it has ended. -/
theorem pipeline_ends {labels : List (PipelineStep inputs.graph Frame)}
    (h : (headlessPipeline inputs).Run (.initial inputs) labels s) :
    (inputs.started + inputs.duration.nanos ≤ s.now → ∀ later s',
      (headlessPipeline inputs).Run s later s' → later.countP PipelineStep.isOwn ≤ 8) ∧
    (inputs.started + inputs.duration.nanos + drainTimeout.nanos ≤ s.now →
      (∃ label s', (label.isOwn || label.isCount) = true ∧ s.step inputs label = some s') ∨
        s.phase.left = 0) := by
  constructor
  · intro hdeadline later s' hlater
    have hleft : s'.phase.left + later.countP PipelineStep.isOwn ≤ s.phase.left := by
      clear h
      induction hlater with
      | nil => exact le_rfl
      | cons hstep _ ih =>
        obtain ⟨hnext, hle⟩ := left_step hdeadline hstep
        have hrest := ih hnext
        rw [List.countP_cons]
        omega
    have hbound : s.phase.left ≤ 8 := by
      cases s.phase <;> exact Nat.le_of_ble_eq_true rfl
    omega
  · intro hover
    have hwaits : ∀ since, s.phase = .waiting since →
      since < inputs.started + inputs.duration.nanos := by
      refine h.invariant (P := fun s => ∀ since, s.phase = .waiting since →
        since < inputs.started + inputs.duration.nanos) ?_ nofun
      intro _ _ _ hwaits hstep since hphase
      exact (waiting_step hstep hphase).elim (hwaits since) id
    cases hphase : s.phase with
    | checking => exact .inl ⟨.check, _, rfl, by rw [Pipeline.step, hphase]⟩
    | drained => exact .inl ⟨.readClock, _, rfl, by rw [Pipeline.step, hphase]⟩
    | choosing => exact .inl ⟨.choose, _, rfl, by rw [Pipeline.step, hphase]⟩
    | starting => exact .inl ⟨.start, _, rfl, by rw [Pipeline.step, hphase]⟩
    | composing => exact .inl ⟨.compose, _, rfl, by rw [Pipeline.step, hphase]⟩
    | reporting => exact .inl ⟨.report, _, rfl, by rw [Pipeline.step, hphase]⟩
    | finishing => exact .inl ⟨.finish, _, rfl, by rw [Pipeline.step, hphase]⟩
    | finished | failed => exact .inr rfl
    | waiting since =>
      left
      cases hsubmitting : s.submitting with
      | none =>
        have hsince := hwaits since hphase
        have hdrain : ∃ s', s.step inputs .drain = some s' := by
          rw [Pipeline.step, hphase]
          dsimp only
          rw [hsubmitting, if_pos Option.isNone_none, Pipeline.drain]
          split
          · rw [if_pos (by omega)]
            exact ⟨_, rfl⟩
          · exact ⟨_, rfl⟩
        obtain ⟨s', hs'⟩ := hdrain
        exact ⟨.drain, s', rfl, hs'⟩
      | some submitting =>
        -- the callback counts its frame, and lets go of the frames
        cases submitting with
        | overwriting => exact ⟨.countOverwrite, _, rfl, by rw [Pipeline.step, hsubmitting]⟩
        | capturing => exact ⟨.countCapture, _, rfl, by rw [Pipeline.step, hsubmitting]⟩

/-- The pipeline has reported after its deadline, and nothing is left to do. -/
theorem pipeline_ends_desk : ∃ s : Pipeline oneCamera.graph Unit, s.pictures.length = 1 ∧
    ∀ later s', (headlessPipeline oneCamera).Run s later s' → later.countP PipelineStep.isOwn ≤ 8 := by
  obtain ⟨s, hrun, hlength, hnow⟩ := run_desk
  exact ⟨s, hlength, (pipeline_ends hrun).1 (hnow ▸ by decide)⟩

end Pipeline

end Studio.Exact

end Blip
