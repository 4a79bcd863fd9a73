import Blip.Avf.Writer
import Blip.Capture.MediaTimes

/-!
# Writing a recording

`apps/blip-capture/src/recording.rs`: the loops that pass captured frames and audio packets to the
writers, and the start offsets stored for camera and system audio. The messages come in any order and
with any answers of the environment; every timestamp passed to a writer is kept in a log.
-/

namespace Blip.Capture

open Blip.Avf (Answers AudioPacket AudioWriter WriterError)

/-! ## Timestamps -/

/-- When a frame or packet was captured: by the host clock, when it says so, and since the recording
started. -/
structure FrameTiming where
  normalized : Option FrameTimestamp
  fallback : Duration
deriving DecidableEq, Repr

namespace FrameTiming

def writerTimestamp (self : FrameTiming) : Duration :=
  self.normalized.elim self.fallback FrameTimestamp.durationSinceEpoch

def signedSecondsSince (self earlier : FrameTiming) : ℚ :=
  match self.normalized, earlier.normalized with
  | some timestamp, some earlier => timestamp.signedSecondsSince earlier
  | _, _ =>
    if earlier.fallback ≤ self.fallback then
      (self.fallback.saturatingSub earlier.fallback).asSecsF64
    else -(earlier.fallback.saturatingSub self.fallback).asSecsF64

end FrameTiming

/-! ## Writers -/

inductive RecordingFormat
  | mp4
  | hls
  | blipBundle
deriving DecidableEq, Repr

/-- The writer of the captured frames. -/
inductive VideoWriter
  | mp4 (writer : Avf.Writer)
  | hls (writer : Avf.Writer)
deriving DecidableEq, Repr

namespace VideoWriter

/-- A new writer at 60 frames a second; a bundle's video has no audio track. -/
def new (format : RecordingFormat) (systemAudio : Bool) : VideoWriter :=
  match format with
  | .hls => hls (.new systemAudio ⟨1000000000 / 60⟩)
  | .mp4 => mp4 (.new systemAudio ⟨1000000000 / 60⟩)
  | .blipBundle => mp4 (.new false ⟨1000000000 / 60⟩)

def append (timestamp : Duration) (answers : Answers) :
    VideoWriter → Except WriterError Bool × VideoWriter
  | mp4 writer =>
    let (result, writer, _) := (Avf.Mp4Writer.append timestamp answers).outcome (writer, [])
    (result, mp4 writer)
  | hls writer =>
    let (result, writer, _) := (Avf.HlsWriter.append timestamp answers).outcome (writer, [])
    (result, hls writer)

def appendAudio (timestamp : Duration) (answers : Answers) :
    VideoWriter → Except WriterError Bool × VideoWriter
  | mp4 writer =>
    let (result, writer, _) := (Avf.Mp4Writer.appendAudio timestamp answers).outcome (writer, [])
    (result, mp4 writer)
  | hls writer =>
    let (result, writer, _) := (Avf.HlsWriter.appendAudio timestamp answers).outcome (writer, [])
    (result, hls writer)

def finish (answers : Answers) : VideoWriter → Except WriterError Unit
  | mp4 writer => ((Avf.Mp4Writer.finish answers).outcome (writer, [])).1
  | hls writer => ((Avf.HlsWriter.finish answers).outcome (writer, [])).1

end VideoWriter

/-- The files of a recording, each with its own writer. -/
inductive File
  | screen
  | systemAudio
  | camera
deriving DecidableEq, Repr

/-- A timestamp passed to a writer for a message, and whether the writer accepted the message. -/
structure Passed where
  file : File
  timing : FrameTiming
  timestamp : Duration
  accepted : Bool
deriving DecidableEq, Repr

/-! ## `write_frames` -/

inductive WriterMessage
  | frame (timing : FrameTiming)
  | audio (packet : AudioPacket) (timing : FrameTiming)
  | finish
deriving DecidableEq, Repr

/-- What the environment answers while one message is handled. -/
structure MessageAnswers where
  newWriter : Except WriterError Unit
  newAudioWriter : Except WriterError Unit
  writer : Answers

/-- What `write_frames` is given besides its messages. -/
structure WriteOptions where
  format : RecordingFormat
  systemAudio : Bool
  /-- Whether system audio goes to a file of its own. -/
  bundleAudio : Bool

/-- The variables of `write_frames`, and the log. -/
structure WriteState where
  writer : Option VideoWriter
  audioWriter : Option AudioWriter
  firstTimestamp : Option FrameTiming
  firstAudioTimestamp : Option FrameTiming
  passed : List Passed

def WriteState.new : WriteState where
  writer := none
  audioWriter := none
  firstTimestamp := none
  firstAudioTimestamp := none
  passed := []

structure WriteResult where
  screenFirst : FrameTiming
  audioFirst : Option FrameTiming
deriving DecidableEq, Repr

abbrev WriteM (α : Type) := Stateful WriterError WriteState α

/-- Records that a writer was given a timestamp, and goes on with its result. -/
def passTo (file : File) (timing : FrameTiming) (timestamp : Duration)
    (result : Except WriterError Bool) : WriteM Bool := do
  modify fun state =>
    { state with
      passed := state.passed ++ [⟨file, timing, timestamp, match result with
        | .ok appended => appended
        | .error _ => false⟩] }
  result

variable (options : WriteOptions)

/-- The video writer, made at the first frame. -/
def videoWriter (answers : MessageAnswers) : WriteM VideoWriter := do
  match (← get).writer with
  | some writer => return writer
  | none =>
    answers.newWriter
    return .new options.format options.systemAudio

/-- The writer of the system audio's own file, made at the first packet. -/
def audioWriter (answers : MessageAnswers) : WriteM AudioWriter := do
  match (← get).audioWriter with
  | some writer => return writer
  | none =>
    answers.newAudioWriter
    return .new

/-- A `WriterMessage::Frame`. -/
def writeFrame (timing : FrameTiming) (answers : MessageAnswers) : WriteM Unit := do
  let timestamp := timing.writerTimestamp
  let writer ← videoWriter options answers
  let (result, writer) := writer.append timestamp answers.writer
  modify fun state => { state with writer := some writer }
  let appended ← passTo .screen timing timestamp result
  if appended then
    modify fun state => { state with firstTimestamp := some (state.firstTimestamp.getD timing) }

/-- A `WriterMessage::Audio`. -/
def writeAudio (packet : AudioPacket) (timing : FrameTiming) (answers : MessageAnswers) :
    WriteM Unit := do
  let timestamp := timing.writerTimestamp
  if options.bundleAudio then
    let writer ← audioWriter answers
    let (result, writer, _) :=
      (AudioWriter.append packet timestamp answers.writer).outcome (writer, [])
    modify fun state => { state with audioWriter := some writer }
    let appended ← passTo .systemAudio timing timestamp result
    if appended then
      modify fun state =>
        { state with firstAudioTimestamp := some (state.firstAudioTimestamp.getD timing) }
  else
    match (← get).writer with
    | none => pure ()
    | some writer =>
      let (result, writer) := writer.appendAudio timestamp answers.writer
      modify fun state => { state with writer := some writer }
      let _ ← passTo .screen timing timestamp result

/-- The loop over the messages; it also ends when the channel closes. -/
def writeMessages : List (WriterMessage × MessageAnswers) → WriteM Unit
  | [] => pure ()
  | (.finish, _) :: _ => pure ()
  | (.frame timing, answers) :: rest => do
    writeFrame options timing answers
    writeMessages rest
  | (.audio packet timing, answers) :: rest => do
    writeAudio options packet timing answers
    writeMessages rest

def writeFrames (messages : List (WriterMessage × MessageAnswers))
    (finishing finishingAudio : Answers) : WriteM WriteResult := do
  writeMessages options messages
  match (← get).writer with
  | none => throw .noFrames
  | some writer => writer.finish finishing
  if options.bundleAudio then
    match (← get).audioWriter with
    | none => throw .noFrames
    | some writer => (((AudioWriter.finish finishingAudio).outcome (writer, [])).1 : Except _ _)
  match (← get).firstTimestamp with
  | none => throw .noFrames
  | some screenFirst => return { screenFirst, audioFirst := (← get).firstAudioTimestamp }

/-! ## `write_camera_frames` -/

/-- A frame received from the camera; `fallback` is missing for one captured before the recording
started. -/
structure CameraFrame where
  normalized : Option FrameTimestamp
  fallback : Option Duration
deriving DecidableEq, Repr

/-- The variables of `write_camera_frames`, and the log. -/
structure CameraState where
  writer : Option Avf.Writer
  firstTimestamp : Option FrameTiming
  passed : List Passed

def CameraState.new : CameraState where
  writer := none
  firstTimestamp := none
  passed := []

abbrev CameraM (α : Type) := Stateful WriterError CameraState α

/-- The camera's writer, made at the first frame. -/
def cameraWriter (answers : MessageAnswers) : CameraM Avf.Writer := do
  match (← get).writer with
  | some writer => return writer
  | none =>
    answers.newWriter
    return .new false ⟨1000000000 / 30⟩

def writeCameraFrame (timing : FrameTiming) (answers : MessageAnswers) : CameraM Unit := do
  let timestamp := timing.writerTimestamp
  let writer ← cameraWriter answers
  let (result, writer, _) := (Avf.Mp4Writer.append timestamp answers.writer).outcome (writer, [])
  modify fun state =>
    { state with
      writer := some writer
      passed := state.passed ++ [⟨.camera, timing, timestamp, match result with
        | .ok appended => appended
        | .error _ => false⟩] }
  if ← result then
    modify fun state => { state with firstTimestamp := some (state.firstTimestamp.getD timing) }

/-- The loop over the frames received until it is stopped. -/
def writeCameraMessages : List (CameraFrame × MessageAnswers) → CameraM Unit
  | [] => pure ()
  | (⟨_, none⟩, _) :: rest => writeCameraMessages rest
  | (⟨normalized, some fallback⟩, answers) :: rest => do
    writeCameraFrame { normalized, fallback } answers
    writeCameraMessages rest

def writeCameraFrames (frames : List (CameraFrame × MessageAnswers)) (finishing : Answers) :
    CameraM FrameTiming := do
  writeCameraMessages frames
  match (← get).writer with
  | none => throw .noFrames
  | some writer => (((Avf.Mp4Writer.finish finishing).outcome (writer, [])).1 : Except _ _)
  match (← get).firstTimestamp with
  | none => throw .noFrames
  | some firstTimestamp => return firstTimestamp

/-! ## `record` -/

/-- What the capture of a recording brings: the messages and camera frames in the order they are
received, and the environment's answers. -/
structure Captured where
  messages : List (WriterMessage × MessageAnswers)
  finishing : Answers
  finishingAudio : Answers
  /-- The frames of the camera, when it is recorded. -/
  camera : Option (List (CameraFrame × MessageAnswers) × Answers)
  /-- Whether an input's start offset can be stored. -/
  setInputStartOffset : String → Except String Unit

/-- What a recording leaves: the log of its writers, and the start offsets stored. -/
structure Recording where
  passed : List Passed
  offsets : List (String × ℚ)
  result : Except String Unit

/-- The part of `record` that stores the start offsets. -/
def storeOffsets (bundleAudio : Bool) (setInputStartOffset : String → Except String Unit)
    (camera : Option (Except WriterError FrameTiming)) (written : WriteResult) :
    Stateful String (List (String × ℚ)) Unit := do
  match camera with
  | none => pure ()
  | some result =>
    let cameraFirst ← result.mapError WriterError.toString
    setInputStartOffset "camera"
    modify (· ++ [("camera", cameraFirst.signedSecondsSince written.screenFirst)])
  if bundleAudio then
    match written.audioFirst with
    | none => throw "system audio recording contains no samples"
    | some audioFirst =>
      setInputStartOffset "system_audio"
      modify (· ++ [("system_audio", audioFirst.signedSecondsSince written.screenFirst)])

/-- `record`, from the start of the capture. -/
def record (captured : Captured) : Recording :=
  let (written, screen) := (writeFrames options captured.messages captured.finishing
    captured.finishingAudio).outcome .new
  let camera := captured.camera.map fun (frames, finishing) =>
    (writeCameraFrames frames finishing).outcome .new
  let passed := screen.passed ++ camera.elim [] (·.2.passed)
  match written with
  | .error error => { passed, offsets := [], result := .error error.toString }
  | .ok written =>
    let (result, offsets) := (storeOffsets options.bundleAudio captured.setInputStartOffset
      (camera.map Prod.fst) written).outcome []
    { passed, offsets, result }

end Blip.Capture
