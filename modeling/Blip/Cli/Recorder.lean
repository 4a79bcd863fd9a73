import Blip.Avf.Writer
import Blip.Common.System

/-!
# Recording from the command line

`record` and `write_frames` of `apps/blip-cli/src/recording.rs`. The capture callback and the thread of
the writer meet in a channel of frames; the interrupt, the stop key, the capturer's stop callback and a
writer that fails meet `record` in a channel with room for one end. Only `record` ever waits to send,
for its last message.

What the capturer and the writer answer is in the labels. Beside the program's state the recorder keeps
every frame captured, every message sent and received, what became of each frame written, and every end
reported.
-/

namespace Blip.Cli

open Avf (WriterError)

inductive RecordEnd
  | interrupt
  | captureError (message : String)
  | writerError
deriving DecidableEq, Repr

inductive WriterMessage (Frame : Type)
  | frame (frame : Frame) (timestamp : ℕ)
  | finish

structure WriterStats where
  appended : ℕ
  backpressureDrops : ℕ
deriving DecidableEq, Repr

/-- What `record` prints before it returns. -/
structure Recorded extends WriterStats where
  queueDrops : ℕ
deriving DecidableEq, Repr

inductive RecordError
  | capturer (message : String)
  | writer (error : WriterError)
deriving DecidableEq, Repr

/-- Where `record` is. -/
inductive RecordPhase
  | starting
  | waiting
  | stopping (ending : RecordEnd)
  | finishing (ending : RecordEnd) (stopped : Except String Unit)
  | joining (ending : RecordEnd) (stopped : Except String Unit)
  | returned (result : Except RecordError Recorded)

def RecordPhase.hasReturned : RecordPhase → Bool
  | .returned _ => true
  | _ => false

/-- The writer's thread. It reports an error before it lets go of its receiver. -/
inductive WorkerPhase
  | receiving
  | reporting (error : WriterError)
  | closing (result : Except WriterError WriterStats)
  | ended (result : Except WriterError WriterStats)

/-- The thread still holds its end of the channel. -/
def WorkerPhase.hasReceiver : WorkerPhase → Bool
  | .ended _ => false
  | .receiving | .reporting _ | .closing _ => true

def frameQueueDepth : ℕ := 8

/-- `u64::saturating_add(1)`. -/
def saturatingSucc (count : ℕ) : ℕ := min (count + 1) (2 ^ 64 - 1)

/-- `record` with its two channels and the writer's thread; then what has happened so far: the frames
that were captured, those for which the channel had no room (`refused`) or no receiver (`unreceived`),
the messages sent and received, the frames that went to the writer with whether it took them, and the
ends reported. -/
structure Recorder (Frame : Type) where
  phase : RecordPhase
  ends : Option RecordEnd
  messages : List (WriterMessage Frame)
  worker : WorkerPhase
  writer : Bool
  appended : ℕ
  backpressureDrops : ℕ
  queueDrops : ℕ
  clock : ℕ
  captured : List (Frame × ℕ)
  refused : ℕ
  unreceived : ℕ
  sent : List (WriterMessage Frame)
  taken : List (WriterMessage Frame)
  written : List ((Frame × ℕ) × Bool)
  reported : List RecordEnd

inductive RecordStep (Frame : Type)
  | start (started : Except String Unit)
  | interrupt
  | captureStopped (message : String)
  | deliver (frame : Frame) (elapsed : ℕ)
  | receiveEnd
  | stop (stopped : Except String Unit)
  | finish
  | join
  | write (outcome : Except WriterError Bool)
  | reportError
  | closeReceiver

/-- The end of `record`, once the writer's thread is joined. -/
def recordResult (ending : RecordEnd) (stopped : Except String Unit)
    (written : Except WriterError WriterStats) (queueDrops : ℕ) : Except RecordError Recorded :=
  match stopped with
  | .error message => .error (.capturer message)
  | .ok () =>
    match ending with
    | .captureError message => .error (.capturer message)
    | .interrupt | .writerError =>
      match written with
      | .error error => .error (.writer error)
      | .ok stats => .ok { toWriterStats := stats, queueDrops }

namespace Recorder

variable {Frame : Type} (recorder : Recorder Frame)

/-! ## The capture callbacks -/

/-- A message that finds room. -/
def push (message : WriterMessage Frame) : Recorder Frame :=
  { recorder with
    messages := recorder.messages ++ [message]
    sent := recorder.sent ++ [message] }

/-- The frame callback, with the time since the recording started. -/
def deliver (frame : Frame) (elapsed : ℕ) : Recorder Frame :=
  let captured : Recorder Frame :=
    { recorder with
      clock := elapsed
      captured := recorder.captured ++ [(frame, elapsed)] }
  if recorder.worker.hasReceiver then
    if recorder.messages.length < frameQueueDepth then captured.push (.frame frame elapsed)
    else
      { captured with
        queueDrops := (recorder.queueDrops + 1) % 2 ^ 64
        refused := recorder.refused + 1 }
  else { captured with unreceived := recorder.unreceived + 1 }

/-- An end is offered to `record`; the channel keeps the first. -/
def reportEnd (ending : RecordEnd) : Recorder Frame :=
  { recorder with
    ends := recorder.ends.or (some ending)
    reported := recorder.reported ++ [ending] }

/-! ## The writer's thread -/

/-- A frame goes to the writer, which is opened by the first. -/
def writeFrame (frame : Frame × ℕ) : Except WriterError Bool → Recorder Frame
  | .error error => { recorder with worker := .reporting error }
  | .ok true =>
    { recorder with
      writer := true
      appended := saturatingSucc recorder.appended
      written := recorder.written ++ [(frame, true)] }
  | .ok false =>
    { recorder with
      writer := true
      backpressureDrops := saturatingSucc recorder.backpressureDrops
      written := recorder.written ++ [(frame, false)] }

/-- How `write_frames` ends after the loop. -/
def finishWriter (outcome : Except WriterError Bool) : WorkerPhase :=
  if recorder.writer then
    match outcome with
    | .error error => .reporting error
    | .ok _ => .closing (.ok
      { appended := recorder.appended
        backpressureDrops := recorder.backpressureDrops })
  else .reporting .noFrames

/-- A turn of the loop of `write_frames`; `record` holds a sender, so the channel stays open. -/
def write (outcome : Except WriterError Bool) : Option (Recorder Frame) :=
  match recorder.worker, recorder.messages with
  | .receiving, message :: messages =>
    let received : Recorder Frame :=
      { recorder with
        messages
        taken := recorder.taken ++ [message] }
    match message with
    | .frame frame timestamp => some (received.writeFrame (frame, timestamp) outcome)
    | .finish => some { received with worker := recorder.finishWriter outcome }
  | _, _ => none

/-! ## `record` -/

/-- `record` sends its last message; a channel that is full makes it wait, one without a receiver does
not. -/
def finish (ending : RecordEnd) (stopped : Except String Unit) : Option (Recorder Frame) :=
  if recorder.worker.hasReceiver then
    if recorder.messages.length < frameQueueDepth then
      some { recorder.push .finish with phase := .joining ending stopped }
    else none
  else some { recorder with phase := .joining ending stopped }

/-- The next step of `record` itself. -/
def proceed : RecordStep Frame → Option (Recorder Frame)
  | .start started =>
    match recorder.phase, started with
    | .starting, .ok () => some { recorder with phase := .waiting }
    | .starting, .error message =>
      some { recorder with phase := .returned (.error (.capturer message)) }
    | _, _ => none
  | .receiveEnd =>
    match recorder.phase, recorder.ends with
    | .waiting, some ending =>
      some
        { recorder with
          phase := .stopping ending
          ends := none }
    | _, _ => none
  | .stop stopped =>
    match recorder.phase with
    | .stopping (.captureError message) =>
      some { recorder with phase := .finishing (.captureError message) (.ok ()) }
    | .stopping ending => some { recorder with phase := .finishing ending stopped }
    | _ => none
  | .finish =>
    match recorder.phase with
    | .finishing ending stopped => recorder.finish ending stopped
    | _ => none
  | .join =>
    match recorder.phase, recorder.worker with
    | .joining ending stopped, .ended result =>
      some
        { recorder with
          phase := .returned (recordResult ending stopped result recorder.queueDrops) }
    | _, _ => none
  | _ => none

/-- Every step; nothing happens after `record` has returned, for the process ends. -/
def step (label : RecordStep Frame) : Option (Recorder Frame) :=
  if recorder.phase.hasReturned then none
  else
    match label with
    | .interrupt => some (recorder.reportEnd .interrupt)
    | .captureStopped message => some (recorder.reportEnd (.captureError message))
    | .deliver frame elapsed =>
      if recorder.clock ≤ elapsed then some (recorder.deliver frame elapsed) else none
    | .write outcome => recorder.write outcome
    | .reportError =>
      match recorder.worker with
      | .reporting error =>
        some { recorder.reportEnd .writerError with worker := .closing (.error error) }
      | _ => none
    | .closeReceiver =>
      match recorder.worker with
      | .closing result =>
        some
          { recorder with
            worker := .ended result
            messages := [] }
      | _ => none
    | label => recorder.proceed label

/-- The recorder before the capturer is started. -/
def launched (Frame : Type) : Recorder Frame where
  phase := .starting
  ends := none
  messages := []
  worker := .receiving
  writer := false
  appended := 0
  backpressureDrops := 0
  queueDrops := 0
  clock := 0
  captured := []
  refused := 0
  unreceived := 0
  sent := []
  taken := []
  written := []
  reported := []

end Recorder

def recorder (Frame : Type) : System (Recorder Frame) (RecordStep Frame) where
  init := fun s => s = .launched Frame
  step := fun s label s' => s.step label = some s'

end Blip.Cli
