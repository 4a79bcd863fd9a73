import Blip.Capture.Region
import Blip.Common.System

/-!
# The recordings of the capture app

`CaptureApp::record`, `stop`, `close_windows`, `escape` and `handle_event`, with the thread of each recording
and the stop callback of its stream. A thread waits for a message on its stop channel, and sees the channel
closed once the app has dropped the sender. An event does not say which recording it is of; it goes to the
interface that started the recording, by a channel without a bound.

The checks before a recording, its start, its files and its upload are labels of the steps.
-/

namespace Blip.Capture.Recordings

inductive Status
  | idle
  | starting
  | recording
  | finalizing
  | uploading
deriving DecidableEq, Repr

inductive RecordingEvent
  | started
  | uploading
  | finished
  | failed
deriving DecidableEq, Repr

/-- `CaptureApp`: its status, the recording whose stop sender it has, the capture mode, and its overlays. -/
structure CaptureApp where
  status : Status
  stopSender : Option ℕ
  mode : Option Mode
  selectionRecording : Bool
  selectionWindows : Bool
  visualWindows : Bool
deriving DecidableEq

inductive RecordingPhase
  | starting
  | capturing
  | finishing
  | uploading
  | done
deriving DecidableEq, Repr

/-- How a recording thread ended. All but the first and the last remove the output. -/
inductive Ending
  | finished
  | startFailed
  | senderDropped
  | recordFailed
  | uploadFailed
deriving DecidableEq, Repr

structure Recording where
  interface : ℕ
  hasServer : Bool
  phase : RecordingPhase
  stopRequested : Bool
  streamFailed : Bool
  ending : Option Ending
deriving DecidableEq, Repr

/-- The interfaces so far, the app of the last one until its window is closed, the events on the way to it,
and every recording thread ever started. -/
structure Sessions where
  interface : ℕ
  app : Option CaptureApp
  events : List (ℕ × RecordingEvent)
  recordings : List Recording

/-! ## A recording thread -/

inductive ThreadStep
  | startFail
  | start
  | streamStop
  | receive
  | disconnect
  | record (saved : Bool)
  | upload (uploaded : Bool)
deriving DecidableEq, Repr

namespace Recording

variable (recording : Recording)

/-- The thread is over. -/
def concluded (ending : Ending) : Recording :=
  { recording with
    phase := .done
    ending := some ending }

/-- What a thread, or the callback of its stream, does next, with the events that it sends. -/
def advance (senderHeld : Bool) : ThreadStep → Option (Recording × List RecordingEvent)
  | .startFail =>
    if recording.phase = .starting then some (recording.concluded .startFailed, [.failed]) else none
  | .start =>
    if recording.phase = .starting then some ({ recording with phase := .capturing }, [.started])
    else none
  | .streamStop =>
    if recording.phase = .done ∨ recording.phase = .uploading ∨ recording.streamFailed then none
    else some ({ recording with streamFailed := true }, [.failed])
  | .receive =>
    if recording.phase = .capturing ∧ recording.stopRequested then
      some ({ recording with phase := .finishing }, [])
    else none
  | .disconnect =>
    if recording.phase = .capturing ∧ recording.stopRequested = false ∧ senderHeld = false then
      some (recording.concluded .senderDropped, [.failed])
    else none
  | .record saved =>
    if recording.phase = .finishing then some
      (if !saved then (recording.concluded .recordFailed, [.failed])
      else if recording.hasServer then ({ recording with phase := .uploading }, [.uploading])
      else (recording.concluded .finished, [.finished]))
    else none
  | .upload uploaded =>
    if recording.phase = .uploading then some
      (if uploaded then (recording.concluded .finished, [.finished])
      else (recording.concluded .uploadFailed, [.failed]))
    else none

/-- The thread captures, and neither its stop nor its stream's has come. -/
def Awaits : Prop :=
  (recording.phase = .starting ∨ recording.phase = .capturing) ∧ recording.stopRequested = false ∧
    recording.streamFailed = false

end Recording

/-! ## The app -/

namespace CaptureApp

variable (app : CaptureApp)

/-- `CaptureApp::new`. -/
def new : CaptureApp where
  status := .idle
  stopSender := none
  mode := none
  selectionRecording := false
  selectionWindows := false
  visualWindows := false

def closeSelectionWindows : CaptureApp :=
  { app with
    selectionWindows := false
    visualWindows := false }

def openSelectionWindows : CaptureApp :=
  { app with
    selectionWindows := true
    visualWindows := true }

/-- `set_mode`. -/
def setMode (mode : Mode) : CaptureApp :=
  if app.mode = some mode then { app.closeSelectionWindows with mode := none }
  else if app.selectionWindows then { app with mode := some mode }
  else { app.openSelectionWindows with mode := some mode }

/-- `record`, once the thread is there. -/
def record (id : ℕ) : CaptureApp :=
  { app with
    status := .starting
    stopSender := some id
    selectionRecording := true
    selectionWindows := false }

/-- `stop`. -/
def stop : CaptureApp :=
  { app.closeSelectionWindows with
    status := .finalizing
    stopSender := none
    selectionRecording := false }

/-- `handle_event`; `none` when the window is removed. -/
def handleEvent : RecordingEvent → Option CaptureApp
  | .started => some { app with status := .recording }
  | .uploading => some { app with status := .uploading }
  | .finished => none
  | .failed => some
    { app.openSelectionWindows with
      status := .idle
      stopSender := none
      selectionRecording := false }

end CaptureApp

inductive SessionStep
  | openCapture
  | setMode (mode : Mode)
  | record (accepted : Option Bool)
  | stop
  | closeWindows
  | escape
  | handle
  | thread (id : ℕ) (step : ThreadStep)
deriving DecidableEq

namespace Sessions

variable (sessions : Sessions)

/-- The stop message is sent to the thread that has the receiver. -/
def sendStop : Option ℕ → List Recording
  | some id => sessions.recordings.modify id fun recording => { recording with stopRequested := true }
  | none => sessions.recordings

def close : Sessions :=
  { sessions with
    app := none
    events := [] }

def holds (id : ℕ) : Bool := sessions.app.any fun app => app.stopSender == some id

/-- A step of a thread; what it sends to a closed interface is lost. -/
def thread (id : ℕ) (step : ThreadStep) : Option Sessions :=
  sessions.recordings[id]?.bind fun recording =>
    (recording.advance (sessions.holds id) step).map fun next =>
      { sessions with
        recordings := sessions.recordings.set id next.1
        events :=
          if sessions.app.isSome ∧ recording.interface = sessions.interface then
            sessions.events ++ next.2.map (Prod.mk id)
          else sessions.events }

/-- What a user, the app or a thread does. A recording is accepted with or without a server. -/
def step : SessionStep → Option Sessions
  | .openCapture =>
    if sessions.app.isSome then none
    else some
      { sessions with
        interface := sessions.interface + 1
        app := some .new }
  | .setMode mode => sessions.app.map fun app => { sessions with app := some (app.setMode mode) }
  | .record accepted =>
    sessions.app.map fun app =>
      match accepted with
      | some hasServer =>
        if app.status = .idle ∧ app.mode.isSome then
          { sessions with
            app := some (app.record sessions.recordings.length)
            recordings := sessions.recordings ++ [{
              interface := sessions.interface
              hasServer
              phase := .starting
              stopRequested := false
              streamFailed := false
              ending := none }] }
        else sessions
      | none => sessions
  | .stop =>
    sessions.app.map fun app =>
      if app.status = .recording then
        { sessions with
          app := some app.stop
          recordings := sessions.sendStop app.stopSender }
      else sessions
  | .closeWindows => sessions.app.map fun _ => sessions.close
  | .escape =>
    sessions.app.map fun app =>
      if app.status = .idle then
        if app.mode.isSome then
          { sessions with app := some { app.closeSelectionWindows with mode := none } }
        else sessions.close
      else sessions
  | .handle =>
    match sessions.app, sessions.events with
    | some app, event :: events => some
      { sessions with
        app := app.handleEvent event.2
        events := if event.2 = .finished then [] else events }
    | _, _ => none
  | .thread id step => sessions.thread id step

end Sessions

/-- The app without an interface, before the first recording. -/
def captureSessions : System Sessions SessionStep where
  init := fun sessions =>
    sessions.app = none ∧ sessions.events = [] ∧ sessions.recordings = []
  step := fun sessions label sessions' => sessions.step label = some sessions'

end Blip.Capture.Recordings
