import Blip.Common.System
import Blip.Hls.PlaylistRewriting

/-!
# Uploading an HLS recording while it is made

`run_hls_upload` of `recording.rs` and the methods of `HlsUpload` that it calls. The writer of the recording
announces each asset, and the recording thread sends the last message; a few assets are uploaded at a time,
each by a task of its own. The recording thread joins the worker and then decides about the directory.

Whether the session starts, a task, the playlist's parts or the completion succeeds is in the steps.
-/

namespace Blip.Capture.AssetUploads

open Hls

inductive HlsUploadMessage
  | asset (name : String)
  | complete
  | abort
deriving DecidableEq, Repr

/-- An upload in the `JoinSet`, and how it ended if it has. -/
structure AssetTask where
  name : String
  result : Option Bool
deriving DecidableEq, Repr

/-- Where `run_hls_upload` is; at its end, whether the server completed the upload. -/
inductive WorkerPhase
  | starting
  | receiving
  | reaping (name : String)
  | draining
  | parts
  | completing
  | failing
  | aborting
  | done (completed : Bool)
deriving DecidableEq, Repr

/-- The recording thread: whether the recording was made, before and after it has joined the worker. A
thread that dies drops its sender. -/
inductive RecordingSide
  | spawning
  | recording
  | joining (recorded : Bool)
  | ended (recorded : Bool)
  | died
deriving DecidableEq, Repr

/-- Both threads, the channel and the tasks. Then the assets that were announced, registered and uploaded,
and the requests that were made. -/
structure HlsUploads where
  recording : RecordingSide
  messages : List HlsUploadMessage
  phase : WorkerPhase
  foundInitialization : Bool
  tasks : List AssetTask
  announced : List String
  registered : List String
  uploaded : List String
  sessionStarted : Bool
  completeCalled : Bool
  abortCalled : Bool
  directoryRemoved : Bool

inductive UploadStep
  | spawn (spawned : Bool)
  | announce (name : String)
  | record (recorded : Bool)
  | die
  | join
  | start (started : Bool)
  | receive
  | taskEnds (index : ℕ) (uploaded : Bool)
  | reap (index : ℕ)
  | finish
  | parts (uploaded : Bool)
  | complete (completed : Bool)
  | shutdown
  | abort
deriving DecidableEq

def maxConcurrentHlsUploads : ℕ := 3

namespace HlsUploads

variable (uploads : HlsUploads)

/-- `register_asset`, and the task for the asset. -/
def register (name : String) : HlsUploads :=
  match validateHlsAsset name with
  | .error _ => { uploads with phase := .failing }
  | .ok initialization =>
    { uploads with
      phase := .receiving
      foundInitialization := uploads.foundInitialization || initialization
      tasks := uploads.tasks ++ [{
        name
        result := none }]
      registered := uploads.registered ++ [name] }

/-- The next message, or the end of the channel; `none` while there is neither. -/
def receive : Option HlsUploads :=
  match uploads.messages with
  | .asset name :: messages =>
    let received := { uploads with messages }
    some (if uploads.tasks.length = maxConcurrentHlsUploads then { received with phase := .reaping name }
      else received.register name)
  | .complete :: messages => some
    { uploads with
      messages
      phase := .draining }
  | .abort :: messages => some
    { uploads with
      messages
      phase := .failing }
  | [] => if uploads.recording = .died then some { uploads with phase := .failing } else none

/-- `receive_hls_upload_result`: a task that has ended is taken out of the set. -/
def reapTask (index : ℕ) : Option HlsUploads :=
  match uploads.tasks[index]? with
  | some ⟨name, some true⟩ => some
    { uploads with
      tasks := uploads.tasks.eraseIdx index
      uploaded := uploads.uploaded ++ [name] }
  | some ⟨_, some false⟩ => some
    { uploads with
      tasks := uploads.tasks.eraseIdx index
      phase := .failing }
  | _ => none

/-- The result that the worker waits for, with what it waits for it. -/
def reap (index : ℕ) : Option HlsUploads :=
  match uploads.phase with
  | .reaping name => (uploads.reapTask index).map fun reaped =>
      if reaped.phase = .failing then reaped else reaped.register name
  | .draining => uploads.reapTask index
  | _ => none

/-- The recording thread has the worker's result: a recording that failed is cleaned up, an upload that was
completed leaves nothing to keep. -/
def join (recorded completed : Bool) : HlsUploads :=
  { uploads with
    recording := .ended recorded
    directoryRemoved := !recorded || completed }

def step : UploadStep → Option HlsUploads
  | .spawn spawned =>
    if uploads.recording = .spawning then some
      (if spawned then { uploads with recording := .recording }
      else
        { uploads with
          recording := .ended false
          phase := .done false
          directoryRemoved := true })
    else none
  | .announce name =>
    if uploads.recording = .recording ∨ uploads.recording = .joining false then some
      { uploads with
        messages := uploads.messages ++ [.asset name]
        announced := uploads.announced ++ [name] }
    else none
  | .record recorded =>
    if uploads.recording = .recording then some
      { uploads with
        recording := .joining recorded
        messages := uploads.messages ++ [if recorded then .complete else .abort] }
    else none
  | .die => if uploads.recording = .recording then some { uploads with recording := .died } else none
  | .join =>
    match uploads.recording, uploads.phase with
    | .joining recorded, .done completed => some (uploads.join recorded completed)
    | _, _ => none
  | .start started =>
    if uploads.phase = .starting ∧ uploads.recording ≠ .spawning then some
      { uploads with
        phase := if started then .receiving else .done false
        sessionStarted := started }
    else none
  | .receive => if uploads.phase = .receiving then uploads.receive else none
  | .taskEnds index uploaded =>
    match uploads.tasks[index]? with
    | some ⟨name, none⟩ => some
      { uploads with
        tasks := uploads.tasks.set index {
          name
          result := some uploaded } }
    | _ => none
  | .reap index => uploads.reap index
  | .finish =>
    if uploads.phase = .draining ∧ uploads.tasks = [] then some
      { uploads with phase := if uploads.foundInitialization then .parts else .failing }
    else none
  | .parts uploaded =>
    if uploads.phase = .parts then some
      { uploads with phase := if uploaded then .completing else .failing }
    else none
  | .complete completed =>
    if uploads.phase = .completing then some
      { uploads with
        completeCalled := true
        phase := if completed then .done true else .failing }
    else none
  | .shutdown =>
    if uploads.phase = .failing then some
      { uploads with
        tasks := []
        phase := .aborting }
    else none
  | .abort =>
    if uploads.phase = .aborting then some
      { uploads with
        abortCalled := true
        phase := .done false }
    else none

/-- The recording thread before it starts the worker. -/
def initial : HlsUploads where
  recording := .spawning
  messages := []
  phase := .starting
  foundInitialization := false
  tasks := []
  announced := []
  registered := []
  uploaded := []
  sessionStarted := false
  completeCalled := false
  abortCalled := false
  directoryRemoved := false

end HlsUploads

def hlsUploads : System HlsUploads UploadStep where
  init := fun uploads => uploads = .initial
  step := fun uploads label uploads' => uploads.step label = some uploads'

end Blip.Capture.AssetUploads
