import Blip.Capture.Profiles
import Blip.Common.System
import Blip.Studio.Publisher
import Blip.Studio.Viewer

/-!
# Streams of the studio

`toggle_stream`, `stream_failed` and `show_frame` of `apps/blip-studio/src/viewer.rs`, with the render
requests that carry the locked canvas, the compositor's thread and the threads of all the publishers that
were started. An error of a publisher reaches the viewer through a channel without a bound, with the
generation that its stream was started in.
-/

namespace Blip.Studio

/-- A request that waits is replaced; the compositor composes the one it took. The publishers stay in the
order in which they were started. -/
structure Streams where
  streamFps : ℕ
  streamBitrate : ℕ
  stream : Option ℕ
  streamCanvas : Option (ℕ × ℕ)
  streamGeneration : ℕ
  contentDimensions : Option (ℕ × ℕ)
  controlError : Option String
  publishers : List Publisher
  reports : List (ℕ × String)
  request : Option (Option (ℕ × ℕ))
  rendering : Option (Option (ℕ × ℕ))
  composed : Option (CVPixelBuffer × (ℕ × ℕ))
  shown : List CVPixelBuffer

inductive StreamStep
  | toggleStream (url : String) (spawned : Bool)
  | streamFailed
  | renderReady
  | take
  | takePending
  | compose (image : CVPixelBuffer)
  | showFrame
  | publisher (index : ℕ) (label : PublishStep)

/-- `even_dimensions`. -/
def evenDimensions (dimensions : ℕ × ℕ) : ℕ × ℕ :=
  (dimensions.1 / 2 * 2, dimensions.2 / 2 * 2)

namespace Streams

variable (s : Streams)

/-- The stream is taken from the viewer and dropped, which closes its channel. -/
def dropStream : Streams :=
  { s with
    stream := none
    publishers := s.stream.elim s.publishers fun index => s.publishers.modify index Publisher.stop }

/-- `RtmpStream::start`, up to its thread. -/
def startStream (url : String) (dimensions : ℕ × ℕ) (spawned : Bool) : Streams :=
  let config : RtmpConfig :=
    { url
      fps := s.streamFps
      bitrate := s.streamBitrate }
  match validateConfig config dimensions with
  | .error message => { s with controlError := some message }
  | .ok () =>
    if spawned then
      { s with
        streamCanvas := some dimensions
        stream := some s.publishers.length
        publishers := s.publishers ++ [.start config dimensions s.streamGeneration]
        controlError := none }
    else { s with controlError := some "failed to start RTMP publisher thread" }

/-- `toggle_stream`. -/
def toggleStream (url : String) (spawned : Bool) : Streams :=
  let toggled : Streams := { s with streamGeneration := saturatingSucc s.streamGeneration }
  if toggled.stream.isSome then
    { toggled.dropStream with
      streamCanvas := none
      controlError := none }
  else if Capture.trim url = "" then
    { toggled with controlError := some "enter an RTMP URL before starting the stream" }
  else
    match toggled.contentDimensions with
    | none => { toggled with controlError := some "waiting for the first captured frame" }
    | some dimensions => toggled.startStream (Capture.trim url) (evenDimensions dimensions) spawned

/-- `stream_failed`. -/
def streamFailed (generation : ℕ) (message : String) : Streams :=
  if generation ≠ s.streamGeneration then s
  else
    { s.dropStream with
      streamCanvas := none
      controlError := some message }

/-- The picture goes to the stream, if there is one. -/
def sendFrame (image : CVPixelBuffer) : Streams :=
  match s.stream with
  | none => s
  | some index =>
    match s.publishers[index]? with
    | none => s
    | some publisher =>
      match publisher.send image with
      | .ok sent => { s with publishers := s.publishers.set index sent }
      | .error message =>
        { s.dropStream with
          streamCanvas := none
          controlError := some message }

/-- `show_frame`. -/
def showFrame (image : CVPixelBuffer) (dimensions : ℕ × ℕ) : Streams :=
  { s.sendFrame image with
    contentDimensions := some dimensions
    shown := s.shown ++ [image] }

/-- What `compose_scene` makes of a request has the dimensions that it was locked to, or else the
canvas's. -/
def composedDimensions (lockedDimensions : Option (ℕ × ℕ)) : ℕ × ℕ :=
  lockedDimensions.getD defaultCanvasDimensions

/-- What a step of a thread puts into the channel of errors. -/
def reportOf (publisher : Publisher) (label : PublishStep) : List (ℕ × String) :=
  match publisher.phase, label with
  | .reporting message, .reportError => [(publisher.generation, message)]
  | _, _ => []

def publisherStep (index : ℕ) (label : PublishStep) : Option Streams :=
  match s.publishers[index]? with
  | none => none
  | some publisher => (publisher.step label).map fun stepped =>
      { s with
        publishers := s.publishers.set index stepped
        reports := s.reports ++ reportOf publisher label }

def step : StreamStep → Option Streams
  | .toggleStream url spawned => some (s.toggleStream url spawned)
  | .streamFailed =>
    match s.reports with
    | [] => none
    | (generation, message) :: reports =>
      some (streamFailed { s with reports } generation message)
  | .renderReady => some { s with request := some s.streamCanvas }
  | .take =>
    match s.rendering, s.request with
    | none, some request => some
        { s with
          rendering := some request
          request := none }
    | _, _ => none
  | .takePending =>
    match s.rendering, s.request with
    | some _, some request => some
        { s with
          rendering := some request
          request := none }
    | _, _ => none
  | .compose image =>
    match s.rendering with
    | none => none
    | some lockedDimensions => some
        { s with
          rendering := none
          composed := some (image, composedDimensions lockedDimensions) }
  | .showFrame =>
    match s.composed with
    | none => none
    | some (image, dimensions) => some (showFrame { s with composed := none } image dimensions)
  | .publisher index label => s.publisherStep index label

/-- What FFmpeg, the clock and the compositor can answer: a picture has the dimensions asked for. -/
def Answers : StreamStep → Prop
  | .compose image => ∀ lockedDimensions ∈ s.rendering,
      (image.width, image.height) = composedDimensions lockedDimensions ∧
        image.pixelFormat = kCVPixelFormatType_32BGRA
  | .publisher index label => ∀ publisher ∈ s.publishers[index]?, publisher.Answers label
  | _ => True

/-- The viewer as it is opened, with the arguments of the program. -/
def launched (streamFps streamBitrate : ℕ) : Streams where
  streamFps := streamFps
  streamBitrate := streamBitrate
  stream := none
  streamCanvas := none
  streamGeneration := 0
  contentDimensions := none
  controlError := none
  publishers := []
  reports := []
  request := none
  rendering := none
  composed := none
  shown := []

end Streams

/-- The streams of the studio, from the launch of the program. -/
def streams : System Streams StreamStep where
  init := fun s => ∃ fps bitrate, s = .launched fps bitrate
  step := fun s label s' => s.Answers label ∧ s.step label = some s'

end Blip.Studio
