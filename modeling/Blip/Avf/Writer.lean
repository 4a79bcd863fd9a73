import Blip.Common.Duration
import Blip.Common.Stateful

/-!
# The AVFoundation writers

`Mp4Writer` and `HlsWriter` of `crates/blip-avfoundation` (`lib.rs`, `hls.rs`): the timestamps they
keep and what they hand to AVFoundation. AVFoundation, the disk and the segment delegate are
the environment: `Answers` is what they answer during one call.
-/

namespace Blip.Avf

inductive WriterError
  | append (message : String)
  | appendAudio (message : String)
  | hlsOutput (message : String)
  | output (message : String)
  | noFrames
  | timestampOverflow
  | finishTimeout
  | finish (message : String)
deriving DecidableEq, Repr

/-- The text of a `WriterError`. -/
def WriterError.toString : WriterError → String
  | append message => "failed to append video frame: " ++ message
  | appendAudio message => "failed to append audio samples: " ++ message
  | hlsOutput message => "failed to write HLS output: " ++ message
  | output message => "failed to prepare output: " ++ message
  | noFrames => "recording contains no video frames"
  | timestampOverflow => "video timestamp exceeds AVFoundation's range"
  | finishTimeout => "timed out while finishing the MP4 file"
  | finish message => "failed to finish MP4 file: " ++ message

/-! ## `i64` -/

def i64Min : ℤ := -2 ^ 63

def i64Max : ℤ := 2 ^ 63 - 1

def IsI64 (value : ℤ) : Prop := i64Min ≤ value ∧ value ≤ i64Max

instance (value : ℤ) : Decidable (IsI64 value) := inferInstanceAs (Decidable (_ ∧ _))

/-- An integer as an `i64`, when it is one. -/
def checkedI64 (value : ℤ) : Except WriterError ℤ :=
  if IsI64 value then .ok value else .error .timestampOverflow

/-- `i64::saturating_sub`. -/
def saturatingSub (left right : ℤ) : ℤ := max i64Min (min i64Max (left - right))

/-- A relative timestamp moved past the last one. -/
def afterLast (lastTimestamp : Option ℤ) (relativeTimestamp : ℤ) : Except WriterError ℤ :=
  match lastTimestamp with
  | none => .ok relativeTimestamp
  | some lastTimestamp =>
    if relativeTimestamp ≤ lastTimestamp then checkedI64 (lastTimestamp + 1)
    else .ok relativeTimestamp

/-! ## Calls -/

/-- What a writer asks of AVFoundation about time, with the answer to each appended sample. -/
inductive AvCall
  | startSessionAtSourceTime (time : ℤ)
  | appendPixelBuffer (time : ℤ) (accepted : Bool)
  | appendSampleBuffer (time : ℤ) (accepted : Bool)
  | endSessionAtSourceTime (time : ℤ)
deriving DecidableEq, Repr

/-- What the environment answers during one call of a writer. -/
structure Answers where
  /-- `isReadyForMoreMediaData`. -/
  ready : Bool
  /-- Whether AVFoundation takes the sample. -/
  accepts : Bool
  /-- The writer's error text. -/
  writerError : String
  /-- `audio_sample_buffer`, for the packet. -/
  audioSampleBuffer : Except WriterError Unit
  /-- The delegate's `check_error` before the sample, and after it or after finishing. -/
  errorBefore : Except WriterError Unit
  errorAfter : Except WriterError Unit
  /-- `finish_asset_writer`. -/
  finishAssetWriter : Except WriterError Unit
  /-- The delegate's `finish_playlist`. -/
  finishPlaylist : Except WriterError Unit

/-- The fields of an `Mp4Writer` and of an `HlsWriter`, AVFoundation's objects apart; `audioInput`
tells whether there is one. -/
structure Writer where
  audioInput : Bool
  frameDuration : Duration
  startTimestampMicros : Option ℤ
  lastRelativeTimestampMicros : Option ℤ
  started : Bool
  finished : Bool
deriving DecidableEq, Repr

/-- The writer that `new` returns. -/
def Writer.new (audioInput : Bool) (frameDuration : Duration) : Writer where
  audioInput
  frameDuration
  startTimestampMicros := none
  lastRelativeTimestampMicros := none
  started := false
  finished := false

/-- A writer's method: it may fail half-way, and what it did until then stays done. -/
abbrev WriterM (α : Type) := Stateful WriterError (Writer × List AvCall) α

namespace WriterM

def self : WriterM Writer := do return (← get).1

def setSelf (writer : Writer) : WriterM Unit := modify fun state => (writer, state.2)

/-- A call of AVFoundation. -/
def call (c : AvCall) : WriterM Unit := modify fun state => (state.1, state.2 ++ [c])

end WriterM

open WriterM

namespace Mp4Writer

def append (timestamp : Duration) (answers : Answers) : WriterM Bool := do
  if ¬ answers.ready then return false
  let timestampMicros ← checkedI64 timestamp.asMicros
  let startTimestamp := (← self).startTimestampMicros.getD timestampMicros
  setSelf { ← self with startTimestampMicros := some startTimestamp }
  let relativeTimestamp := max (← checkedI64 (timestampMicros - startTimestamp)) 0
  let relativeTimestamp ← afterLast (← self).lastRelativeTimestampMicros relativeTimestamp
  let sourceTimestamp ← checkedI64 (startTimestamp + relativeTimestamp)
  if ¬ (← self).started then
    call (.startSessionAtSourceTime startTimestamp)
    setSelf { ← self with started := true }
  call (.appendPixelBuffer sourceTimestamp answers.accepts)
  if ¬ answers.accepts then throw (.append answers.writerError)
  setSelf { ← self with lastRelativeTimestampMicros := some relativeTimestamp }
  return true

def appendAudio (timestamp : Duration) (answers : Answers) : WriterM Bool := do
  if ¬ (← self).audioInput then return false
  if ¬ answers.ready then return false
  let timestampMicros ← checkedI64 timestamp.asMicros
  match (← self).startTimestampMicros with
  | none => throw .noFrames
  | some startTimestamp =>
    let presentationTimestamp := max timestampMicros startTimestamp
    answers.audioSampleBuffer
    call (.appendSampleBuffer presentationTimestamp answers.accepts)
    if ¬ answers.accepts then throw (.appendAudio answers.writerError)
    return true

def finish (answers : Answers) : WriterM Unit := do
  if (← self).finished then return
  match (← self).startTimestampMicros, (← self).lastRelativeTimestampMicros with
  | none, _ => throw .noFrames
  | _, none => throw .noFrames
  | some startTimestamp, some lastRelativeTimestamp =>
    let frameDuration ← checkedI64 (← self).frameDuration.asMicros
    let endTimestamp ← checkedI64
      ((← checkedI64 (startTimestamp + lastRelativeTimestamp)) + max frameDuration 1)
    call (.endSessionAtSourceTime endTimestamp)
    answers.finishAssetWriter
    setSelf { ← self with finished := true }

end Mp4Writer

namespace HlsWriter

def append (timestamp : Duration) (answers : Answers) : WriterM Bool := do
  answers.errorBefore
  if ¬ answers.ready then return false
  let timestampMicros ← checkedI64 timestamp.asMicros
  let startTimestamp := (← self).startTimestampMicros.getD timestampMicros
  setSelf { ← self with startTimestampMicros := some startTimestamp }
  let relativeTimestamp := max (← checkedI64 (timestampMicros - startTimestamp)) 0
  let relativeTimestamp ← afterLast (← self).lastRelativeTimestampMicros relativeTimestamp
  if ¬ (← self).started then
    call (.startSessionAtSourceTime 0)
    setSelf { ← self with started := true }
  call (.appendPixelBuffer relativeTimestamp answers.accepts)
  if ¬ answers.accepts then throw (.append answers.writerError)
  setSelf { ← self with lastRelativeTimestampMicros := some relativeTimestamp }
  answers.errorAfter
  return true

def appendAudio (timestamp : Duration) (answers : Answers) : WriterM Bool := do
  if ¬ (← self).audioInput then return false
  if ¬ answers.ready then return false
  let timestampMicros ← checkedI64 timestamp.asMicros
  match (← self).startTimestampMicros with
  | none => throw .noFrames
  | some startTimestamp =>
    let relativeTimestamp := max (saturatingSub timestampMicros startTimestamp) 0
    answers.audioSampleBuffer
    call (.appendSampleBuffer relativeTimestamp answers.accepts)
    if ¬ answers.accepts then throw (.appendAudio answers.writerError)
    answers.errorAfter
    return true

def finish (answers : Answers) : WriterM Unit := do
  if (← self).finished then return
  match (← self).lastRelativeTimestampMicros with
  | none => throw .noFrames
  | some lastTimestamp =>
    let frameDuration ← checkedI64 (← self).frameDuration.asMicros
    let endTimestamp ← checkedI64 (lastTimestamp + max frameDuration 1)
    call (.endSessionAtSourceTime endTimestamp)
    answers.finishAssetWriter
    answers.errorAfter
    answers.finishPlaylist
    setSelf { ← self with finished := true }

end HlsWriter

/-! ## AudioWriter -/

/-- The fields of an `AudioWriter`. -/
structure AudioWriter where
  startTimestampMicros : Option ℤ
  endTimestampMicros : Option ℤ
  finished : Bool
deriving DecidableEq, Repr

/-- What an `AudioPacket` tells about time. -/
structure AudioPacket where
  frameCount : ℕ
  sampleRate : ℕ
deriving DecidableEq, Repr

namespace AudioWriter

def new : AudioWriter where
  startTimestampMicros := none
  endTimestampMicros := none
  finished := false

def append (packet : AudioPacket) (timestamp : Duration) (answers : Answers) :
    Stateful WriterError (AudioWriter × List AvCall) Bool := do
  if ¬ answers.ready then return false
  let timestampMicros ← checkedI64 timestamp.asMicros
  let startTimestamp := (← get).1.startTimestampMicros.getD timestampMicros
  modify fun (writer, calls) => ({ writer with startTimestampMicros := some startTimestamp }, calls)
  let relativeTimestamp := max (← checkedI64 (timestampMicros - startTimestamp)) 0
  answers.audioSampleBuffer
  modify fun (writer, calls) =>
    (writer, calls ++ [.appendSampleBuffer relativeTimestamp answers.accepts])
  if ¬ answers.accepts then throw (.appendAudio answers.writerError)
  if packet.sampleRate = 0 then throw .timestampOverflow
  let packetDuration ← checkedI64 ((packet.frameCount * 1000000 / packet.sampleRate : ℕ) : ℤ)
  let packetEnd ← checkedI64 (relativeTimestamp + max packetDuration 1)
  modify fun (writer, calls) =>
    ({ writer with
        endTimestampMicros := some (writer.endTimestampMicros.elim packetEnd (max · packetEnd)) },
      calls)
  return true

def finish (answers : Answers) : Stateful WriterError (AudioWriter × List AvCall) Unit := do
  if (← get).1.finished then return
  match (← get).1.endTimestampMicros with
  | none => throw .noFrames
  | some endTimestamp =>
    modify fun (writer, calls) => (writer, calls ++ [.endSessionAtSourceTime endTimestamp])
    answers.finishAssetWriter
    modify fun (writer, calls) => ({ writer with finished := true }, calls)

end AudioWriter

end Blip.Avf
