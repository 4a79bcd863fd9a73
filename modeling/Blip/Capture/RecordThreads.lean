import Blip.Common.System
import Mathlib.Data.List.Basic

/-!
# The recording thread and its writer threads

`record` starts a thread for the camera's frames and one for the captured ones, builds and starts the
capturer, waits for its stop, and then ends both threads and joins them. It can return an error at every
step. The captured frames' channel is closed once `record` returns; the camera's has its sender in the
camera preview, so only the stop flag ends that thread. After an error the thread removes the output
directory, if it is to be cleaned up, and reports the failure.

What each call comes to is a label of the step. A write is noted when the directory has been removed.
-/

namespace Blip.Capture.Writers

/-- Where `record` is, and after it the thread that called it. -/
inductive RecordPhase
  | content
  | spawnCamera
  | spawnWriter
  | build
  | start
  | waiting
  | stop
  | finish
  | joinWriter
  | joinCamera
  | offsets
  | recorded
  | failed
  | removed
  | reported
deriving DecidableEq, Repr

inductive Message
  | frame
  | audio
  | finish
deriving DecidableEq, Repr

inductive WriterPhase
  | running
  | ended (saved : Bool)
deriving DecidableEq, Repr

/-- `write_frames`: whether its writers are open. -/
structure WriterThread where
  phase : WriterPhase
  writer : Bool
  audioWriter : Bool
deriving DecidableEq, Repr

inductive CameraPhase
  | checking
  | receiving
  | ended (saved : Bool)
deriving DecidableEq, Repr

/-- `write_camera_frames`: before the stop flag is read, or before the next frame. -/
structure CameraThread where
  phase : CameraPhase
  writer : Bool
deriving DecidableEq, Repr

/-- A recording, with what it was asked to do, its threads, their channels and the flag. -/
structure Threads where
  cameraRecording : Bool
  bundleAudio : Bool
  cleanupOnFailure : Bool
  phase : RecordPhase
  screen : Option WriterThread
  messages : List Message
  camera : Option CameraThread
  cameraSender : Bool
  cameraFrames : ℕ
  cameraStop : Bool
  removed : Bool
  lateWrite : Bool

inductive ThreadsStep
  | proceed
  | fail
  | cleanUp
  | report
  | deliver (message : Message)
  | write (saved : Bool)
  | deliverCamera
  | closeCamera
  | writeCamera (skipped saved : Bool)
deriving DecidableEq

def frameQueueDepth : ℕ := 8

namespace Threads

variable (threads : Threads)

/-- A file of the recording is created or written. -/
def noteWrite : Threads := { threads with lateWrite := threads.lateWrite || threads.removed }

/-- The senders of the captured frames are the function's own and the callbacks'. -/
def senderOpen : Bool :=
  match threads.phase with
  | .recorded | .failed | .removed | .reported => false
  | _ => true

/-! ## The writers -/

/-- The rest of `write_frames` after the loop. -/
def finishWriter (thread : WriterThread) (saved : Bool) : Threads :=
  if thread.writer then
    { threads.noteWrite with screen := some { thread with phase := .ended saved } }
  else { threads with screen := some { thread with phase := .ended false } }

/-- A frame or packet goes to its file, which is created by the first one. -/
def writeMessage (thread : WriterThread) (saved : Bool) : Threads :=
  { threads.noteWrite with
    screen := some (if saved then thread else { thread with phase := .ended false }) }

/-- A turn of the loop of `write_frames`; `none` when it waits. -/
def write (saved : Bool) : Option Threads :=
  match threads.screen with
  | some thread =>
    if thread.phase = .running then
      match threads.messages with
      | .frame :: messages =>
        some ({ threads with messages }.writeMessage { thread with writer := true } saved)
      | .audio :: messages =>
        if threads.bundleAudio then
          some ({ threads with messages }.writeMessage { thread with audioWriter := true } saved)
        else if thread.writer then some ({ threads with messages }.writeMessage thread saved)
        else some { threads with messages }
      | .finish :: messages => some ({ threads with messages }.finishWriter thread saved)
      | [] => if threads.senderOpen then none else some (threads.finishWriter thread saved)
    else none
  | none => none

/-- The rest of `write_camera_frames` after the loop. -/
def finishCamera (thread : CameraThread) (saved : Bool) : Threads :=
  if thread.writer then
    { threads.noteWrite with camera := some { thread with phase := .ended saved } }
  else { threads with camera := some { thread with phase := .ended false } }

/-- The next half turn of the loop of `write_camera_frames`. A frame from before the start is skipped. -/
def writeCamera (skipped saved : Bool) : Option Threads :=
  match threads.camera with
  | some thread =>
    match thread.phase with
    | .checking =>
      if threads.cameraStop then some (threads.finishCamera thread saved)
      else some { threads with camera := some { thread with phase := .receiving } }
    | .receiving =>
      if 0 < threads.cameraFrames then
        let received := { threads with cameraFrames := threads.cameraFrames - 1 }
        if skipped then some { received with camera := some { thread with phase := .checking } }
        else some { received.noteWrite with
          camera := some {
            phase := if saved then .checking else .ended false
            writer := true } }
      else if threads.cameraSender then
        some { threads with camera := some { thread with phase := .checking } }
      else some (threads.finishCamera thread saved)
    | .ended _ => none
  | none => none

/-! ## `record` -/

/-- The next call of `record` succeeds. -/
def proceed : Option Threads :=
  match threads.phase with
  | .content => some { threads with phase := .spawnCamera }
  | .spawnCamera => some
    { threads with
      phase := .spawnWriter
      camera :=
        if threads.cameraRecording then
          some {
            phase := .checking
            writer := false }
        else none }
  | .spawnWriter => some
    { threads with
      phase := .build
      screen := some {
        phase := .running
        writer := false
        audioWriter := false } }
  | .build => some { threads with phase := .start }
  | .start => some { threads with phase := .waiting }
  | .waiting => some { threads with phase := .stop }
  | .stop => some
    { threads with
      phase := .finish
      cameraStop := true }
  | .finish =>
    if threads.screen.any (fun thread => thread.phase == .running) ∧
        threads.messages.length < frameQueueDepth then some
      { threads with
        phase := .joinWriter
        messages := threads.messages ++ [.finish] }
    else none
  | .joinWriter =>
    if threads.screen.any fun thread => thread.phase == .ended true then
      some { threads with phase := if threads.camera.isSome then .joinCamera else .offsets }
    else none
  | .joinCamera =>
    if threads.camera.any fun thread => thread.phase == .ended true then
      some { threads with phase := .offsets }
    else none
  | .offsets => some { threads with phase := .recorded }
  | .recorded | .failed | .removed | .reported => none

/-- The next call of `record` fails: a join only for a thread that failed, the finish message only when its
receiver is gone. -/
def fail : Option Threads :=
  match threads.phase with
  | .content | .spawnWriter | .build | .start | .waiting | .stop | .offsets =>
    some { threads with phase := .failed }
  | .spawnCamera => if threads.cameraRecording then some { threads with phase := .failed } else none
  | .finish | .joinWriter =>
    if threads.screen.any fun thread => thread.phase != .running then
      some { threads with phase := .failed }
    else none
  | .joinCamera =>
    if threads.camera.any fun thread => thread.phase == .ended false then
      some { threads with phase := .failed }
    else none
  | .recorded | .failed | .removed | .reported => none

/-- Every step; the capturer delivers from its start until it is stopped, and drops what finds no room. -/
def step : ThreadsStep → Option Threads
  | .proceed => threads.proceed
  | .fail => threads.fail
  | .cleanUp =>
    if threads.phase = .failed then some
      { threads with
        phase := .removed
        removed := threads.cleanupOnFailure }
    else none
  | .report => if threads.phase = .removed then some { threads with phase := .reported } else none
  | .deliver message =>
    if (threads.phase = .start ∨ threads.phase = .waiting ∨ threads.phase = .stop) ∧
        message ≠ .finish ∧ threads.messages.length < frameQueueDepth then
      some { threads with messages := threads.messages ++ [message] }
    else none
  | .write saved => threads.write saved
  | .deliverCamera =>
    if threads.cameraSender then some { threads with cameraFrames := threads.cameraFrames + 1 }
    else none
  | .closeCamera => some { threads with cameraSender := false }
  | .writeCamera skipped saved => threads.writeCamera skipped saved

/-- A recording that is about to start, with the frames the camera has sent so far. -/
def starting (cameraRecording bundleAudio cleanupOnFailure : Bool) (cameraFrames : ℕ) : Threads where
  cameraRecording := cameraRecording
  bundleAudio := bundleAudio
  cleanupOnFailure := cleanupOnFailure
  phase := .content
  screen := none
  messages := []
  camera := none
  cameraSender := true
  cameraFrames := cameraFrames
  cameraStop := false
  removed := false
  lateWrite := false

end Threads

/-- A recording from its start, whatever was asked for. -/
def recordThreads : System Threads ThreadsStep where
  init := fun threads => ∃ cameraRecording bundleAudio cleanupOnFailure cameraFrames,
    threads = .starting cameraRecording bundleAudio cleanupOnFailure cameraFrames
  step := fun threads label threads' => threads.step label = some threads'

end Blip.Capture.Writers
