import Blip.Common.Duration
import Blip.Common.System
import Blip.Studio.Compose
import Mathlib.Data.List.AList

/-!
# The headless pipeline

`run_pipeline` of the headless program beside the callbacks of its cameras. A callback leaves its frame
in `LatestFrames`, which it holds until the frame is counted; the pipeline takes all frames that are
there, composes them with those it has of the other cameras, and reports what was counted since its last
report.

An `Instant` is a number of nanoseconds, and every step reads the clock as it is. What a report prints
is left out but for its averages.
-/

namespace Blip

namespace Duration

/-- `Duration::MAX`. -/
def max : Duration := ⟨2 ^ 64 * 1000000000 - 1⟩

/-- `Duration::saturating_add`. -/
def saturatingAdd (left right : Duration) : Duration := ⟨min (left.nanos + right.nanos) max.nanos⟩

end Duration

namespace Studio.Exact

open Compositor (Gpu PixelBuffer RenderFailure)

/-! ## Metrics -/

structure MetricValues where
  captured : ℕ
  dropped : ℕ
  overwritten : ℕ
  composed : ℕ
  composeTime : Duration
  pipelineLatency : Duration
  maximumComposeTime : Duration
  maximumPipelineLatency : Duration
  mediaIntervals : ℕ
  mediaDuration : Duration
deriving DecidableEq, Repr

/-- `MetricValues::default`. -/
def MetricValues.default : MetricValues where
  captured := 0
  dropped := 0
  overwritten := 0
  composed := 0
  composeTime := ⟨0⟩
  pipelineLatency := ⟨0⟩
  maximumComposeTime := ⟨0⟩
  maximumPipelineLatency := ⟨0⟩
  mediaIntervals := 0
  mediaDuration := ⟨0⟩

structure Metrics where
  inner : MetricValues
  lastPresentationTimestamp : Option Duration
deriving DecidableEq, Repr

namespace Metrics

variable (metrics : Metrics)

/-- The interval that a frame ends, if it is shorter than a second. -/
def interval (presentationTimestamp : Option Duration) : Option Duration := do
  let timestamp ← presentationTimestamp
  let previous ← metrics.lastPresentationTimestamp
  if previous.nanos ≤ timestamp.nanos ∧ timestamp.nanos - previous.nanos < 1000000000 then
    return ⟨timestamp.nanos - previous.nanos⟩
  else none

/-- `record_capture`. -/
def recordCapture (presentationTimestamp : Option Duration) : Metrics :=
  let values := { metrics.inner with captured := saturatingSucc metrics.inner.captured }
  { inner :=
      match metrics.interval presentationTimestamp with
      | none => values
      | some interval =>
        { values with
          mediaIntervals := saturatingSucc values.mediaIntervals
          mediaDuration := values.mediaDuration.saturatingAdd interval }
    lastPresentationTimestamp := presentationTimestamp.or metrics.lastPresentationTimestamp }

/-- `record_drop`. -/
def recordDrop : Metrics :=
  { metrics with inner := { metrics.inner with dropped := saturatingSucc metrics.inner.dropped } }

/-- `record_overwrite`. -/
def recordOverwrite : Metrics :=
  { metrics with
    inner := { metrics.inner with overwritten := saturatingSucc metrics.inner.overwritten } }

/-- `record_composition`. -/
def recordComposition (composeTime pipelineLatency : Duration) : Metrics :=
  let values := metrics.inner
  { metrics with
    inner :=
      { values with
        composed := saturatingSucc values.composed
        composeTime := values.composeTime.saturatingAdd composeTime
        pipelineLatency := values.pipelineLatency.saturatingAdd pipelineLatency
        maximumComposeTime := Max.max values.maximumComposeTime composeTime
        maximumPipelineLatency := Max.max values.maximumPipelineLatency pipelineLatency } }

/-- `take`. -/
def take : MetricValues × Metrics := (metrics.inner, { metrics with inner := .default })

end Metrics

/-- `average_duration`. -/
def averageDuration (total : Duration) (count : ℕ) : Duration :=
  if count < 2 ^ 32 ∧ 0 < count then ⟨total.nanos / count⟩ else ⟨0⟩

/-! ## The pipeline -/

/-- The cameras of a scene. -/
def Camera (graph : SceneGraph) := { source : String // graph.sources source = some .camera }

instance (graph : SceneGraph) : DecidableEq (Camera graph) :=
  inferInstanceAs (DecidableEq { source : String // graph.sources source = some .camera })

/-- `TimedFrame`, and `SourceFrame`. -/
structure TimedFrame (Frame : Type) where
  pixelBuffer : PixelBuffer Frame
  capturedAt : ℕ

abbrev FrameMap (graph : SceneGraph) (Frame : Type) := AList fun _ : Camera graph => TimedFrame Frame

/-- Frames by the names of their sources. -/
def cameraFrames {graph : SceneGraph} {Frame : Type}
    (frame : Camera graph → Option (PixelBuffer Frame)) :
    CameraFrames graph Frame where
  frame source :=
    match h : graph.sources source with
    | some .camera => frame ⟨source, h⟩
    | _ => none
  camera source h := by
    split at h
    · assumption
    · cases h

/-- What a callback that holds the frames has still to count. -/
inductive Submitting
  | overwriting (presentationTimestamp : Option Duration)
  | capturing (presentationTimestamp : Option Duration)
deriving DecidableEq, Repr

inductive PipelinePhase
  | checking
  | waiting (since : ℕ)
  | drained (receivedFrame : Bool)
  | choosing (now : ℕ)
  | starting (now newestCapture : ℕ)
  | composing (now newestCapture composeStarted : ℕ)
  | reporting (now : ℕ)
  | finishing
  | finished
  | failed (failure : RenderFailure)

structure Report where
  values : MetricValues
  interval : Duration
deriving DecidableEq, Repr

/-- What the pipeline is started with. -/
structure PipelineInputs (Frame : Type) where
  gpu : Gpu Frame
  graph : SceneGraph
  captureOnly : Bool
  started : ℕ
  duration : Duration

/-- The clock, `LatestFrames` with the callback that holds them, `Metrics`, and the loop with its frames
and its reports. Beside them: how many frames it has taken, and the pictures it has composed. -/
structure Pipeline (graph : SceneGraph) (Frame : Type) where
  now : ℕ
  latest : FrameMap graph Frame
  submitting : Option Submitting
  metrics : Metrics
  phase : PipelinePhase
  frames : FrameMap graph Frame
  lastReport : ℕ
  nextReport : ℕ
  reports : List Report
  taken : ℕ
  pictures : List (PixelBuffer Frame)

/-- `REPORT_INTERVAL`. -/
def reportInterval : Duration := ⟨1000000000⟩

/-- How long `wait_and_drain` waits for a frame. -/
def drainTimeout : Duration := ⟨100000000⟩

inductive PipelineStep (graph : SceneGraph) (Frame : Type)
  | tick (time : ℕ)
  | submit (camera : Camera graph) (pixelBuffer : PixelBuffer Frame)
    (presentationTimestamp : Option Duration)
  | countOverwrite
  | countCapture
  | drop
  | check
  | drain
  | readClock
  | choose
  | start
  | compose
  | report
  | finish

namespace Pipeline

variable {Frame : Type} (inputs : PipelineInputs Frame) (s : Pipeline inputs.graph Frame)

def initial : Pipeline inputs.graph Frame where
  now := inputs.started
  latest := ∅
  submitting := none
  metrics := { inner := .default, lastPresentationTimestamp := none }
  phase := .checking
  frames := ∅
  lastReport := inputs.started
  nextReport := inputs.started + reportInterval.nanos
  reports := []
  taken := 0
  pictures := []

/-- The frames as `compose` is given them. -/
def composed : CameraFrames inputs.graph Frame :=
  cameraFrames fun camera => (s.frames.lookup camera).map TimedFrame.pixelBuffer

/-- `submit` up to the counting. -/
def submit (camera : Camera inputs.graph) (pixelBuffer : PixelBuffer Frame)
    (presentationTimestamp : Option Duration) : Pipeline inputs.graph Frame :=
  { s with
    latest := s.latest.insert camera { pixelBuffer, capturedAt := s.now }
    submitting := some (if (s.latest.lookup camera).isSome then .overwriting presentationTimestamp
      else .capturing presentationTimestamp) }

/-- `wait_and_drain`, once there is a frame or the wait is over. -/
def drain (since : ℕ) : Option (Pipeline inputs.graph Frame) :=
  if s.latest.entries = [] then
    if since + drainTimeout.nanos ≤ s.now then some { s with phase := .drained false } else none
  else
    some
      { s with
        latest := ∅
        frames := s.latest ∪ s.frames
        phase := .drained true
        taken := s.taken + s.latest.entries.length }

/-- The times of the frames that the scene shows. -/
def captureTimes : List ℕ :=
  inputs.graph.elements.filterMap fun element =>
    match h : inputs.graph.sources element.source with
    | some .camera => (s.frames.lookup ⟨element.source, h⟩).map TimedFrame.capturedAt
    | _ => none

def newestCapture : ℕ := (s.captureTimes inputs).max?.getD s.now

/-- The composition, when it is over. -/
def compose (now newestCapture composeStarted : ℕ) : Pipeline inputs.graph Frame :=
  match Exact.compose inputs.gpu inputs.graph (s.composed inputs) with
  | .error failure => { s with phase := .failed failure }
  | .ok picture =>
    { s with
      metrics := s.metrics.recordComposition ⟨s.now - composeStarted⟩ ⟨s.now - newestCapture⟩
      phase := .reporting now
      pictures := s.pictures ++ [picture] }

/-- What was counted since the last report, up to a time. -/
def report (now : ℕ) : Pipeline inputs.graph Frame :=
  let (values, metrics) := s.metrics.take
  { s with
    metrics
    lastReport := now
    nextReport := now + reportInterval.nanos
    reports := s.reports ++ [{ values, interval := ⟨now - s.lastReport⟩ }] }

def step : PipelineStep inputs.graph Frame → Option (Pipeline inputs.graph Frame)
  | .tick time => if s.now ≤ time then some { s with now := time } else none
  | .submit camera pixelBuffer presentationTimestamp =>
    if s.submitting.isNone then some (s.submit inputs camera pixelBuffer presentationTimestamp) else none
  | .countOverwrite =>
    match s.submitting with
    | some (.overwriting presentationTimestamp) =>
      some
        { s with
          metrics := s.metrics.recordOverwrite
          submitting := some (.capturing presentationTimestamp) }
    | _ => none
  | .countCapture =>
    match s.submitting with
    | some (.capturing presentationTimestamp) =>
      some
        { s with
          metrics := s.metrics.recordCapture presentationTimestamp
          submitting := none }
    | _ => none
  | .drop => some { s with metrics := s.metrics.recordDrop }
  | .check =>
    match s.phase with
    | .checking =>
      some
        { s with
          phase :=
            if s.now < inputs.started + inputs.duration.nanos then .waiting s.now else .finishing }
    | _ => none
  | .drain =>
    match s.phase with
    | .waiting since => if s.submitting.isNone then s.drain inputs since else none
    | _ => none
  | .readClock =>
    match s.phase with
    | .drained receivedFrame =>
      some
        { s with
          phase := if inputs.captureOnly = false ∧ receivedFrame = true then .choosing s.now
            else .reporting s.now }
    | _ => none
  | .choose =>
    match s.phase with
    | .choosing now => some { s with phase := .starting now (s.newestCapture inputs) }
    | _ => none
  | .start =>
    match s.phase with
    | .starting now newestCapture => some { s with phase := .composing now newestCapture s.now }
    | _ => none
  | .compose =>
    match s.phase with
    | .composing now newestCapture composeStarted =>
      some (s.compose inputs now newestCapture composeStarted)
    | _ => none
  | .report =>
    match s.phase with
    | .reporting now =>
      some { (if s.nextReport ≤ now then s.report inputs now else s) with phase := .checking }
    | _ => none
  | .finish =>
    match s.phase with
    | .finishing => some { s.report inputs s.now with phase := .finished }
    | _ => none

end Pipeline

/-- The pipeline with the callbacks of its cameras. -/
def headlessPipeline {Frame : Type} (inputs : PipelineInputs Frame) :
    System (Pipeline inputs.graph Frame) (PipelineStep inputs.graph Frame) where
  init := fun s => s = .initial inputs
  step := fun s label s' => s.step inputs label = some s'

end Studio.Exact

end Blip
