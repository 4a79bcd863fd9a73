import Blip.Common.Rows
import Blip.Studio.Project

/-!
# Publishing a stream

`apps/blip-studio/src/rtmp.rs`: a thread takes composed pictures from a channel with room for two,
copies each into a frame of FFmpeg and encodes it. What FFmpeg and CoreVideo answer is given. Beside the
thread's state a publisher keeps the pictures it was offered, those that the channel accepted and those
that were taken from it, and what it reported.
-/

namespace Blip.Studio

structure RtmpConfig where
  url : String
  fps : ℕ
  bitrate : ℕ

/-- `validate_config`. -/
def validateConfig (config : RtmpConfig) (dimensions : ℕ × ℕ) : Except String Unit :=
  if ¬ "rtmp://".toList <+: config.url.toList then
    .error "RTMP destination must start with rtmp://"
  else if dimensions.1 = 0 ∨ dimensions.2 = 0 ∨ dimensions.1 % 2 ≠ 0 ∨ dimensions.2 % 2 ≠ 0 then
    .error "stream canvas dimensions must be non-zero and even"
  else if config.fps = 0 then .error "stream frame rate must be greater than zero"
  else if config.bitrate = 0 then .error "stream bitrate must be greater than zero"
  else .ok ()

/-! ## Copying a picture -/

/-- What `copy_pixel_buffer` asks a `CVPixelBuffer`, with the bytes from its base address on. -/
structure CVPixelBuffer where
  pixelFormat : UInt32
  width : ℕ
  height : ℕ
  bytesPerRow : ℕ
  baseAddress : Option (ℕ → UInt8)
  lockStatus : Int32
  unlockStatus : Int32

/-- A `frame::Video` with one plane. -/
structure VideoFrame where
  width : ℕ
  height : ℕ
  stride : ℕ
  data : List UInt8

/-- `kCVPixelFormatType_32BGRA`: `BGRA`. -/
def kCVPixelFormatType_32BGRA : UInt32 := 0x42475241

/-- `usize::MAX`. -/
def usizeMax : ℕ := 2 ^ 64 - 1

/-- `usize::checked_mul`. -/
def checkedMul (message : String) (left right : ℕ) : Except String ℕ :=
  if left * right ≤ usizeMax then .ok (left * right) else .error message

/-- The body of the loop over the rows. -/
def copyRow (source : List UInt8) (sourceStride destinationStride rowBytes : ℕ)
    (destination : List UInt8) (row : ℕ) : Except String (List UInt8) :=
  match slice source (row * sourceStride) rowBytes with
  | none => .error "compositor frame row is out of bounds"
  | some sourceRow =>
    match slice destination (row * destinationStride) rowBytes with
    | none => .error "FFmpeg frame row is out of bounds"
    | some _ => .ok (overwrite destination sourceRow (row * destinationStride))

/-- The closure of `copy_pixel_buffer`. -/
def copyRows (source : CVPixelBuffer) (destination : VideoFrame) : Except String VideoFrame := do
  let rowBytes ← checkedMul "canvas row size is too large" source.width 4
  let sourceLen ← checkedMul "canvas buffer is too large" source.bytesPerRow source.height
  match source.baseAddress with
  | none => .error "compositor frame has no base address"
  | some address =>
    let sourceData := (List.range sourceLen).map address
    let data ← (List.range source.height).foldlM
      (copyRow sourceData source.bytesPerRow destination.stride rowBytes) destination.data
    return { destination with data }

/-- `copy_pixel_buffer`, which changes the frame in place; after an error nobody reads it. -/
def copyPixelBuffer (source : CVPixelBuffer) (destination : VideoFrame) : Except String VideoFrame :=
  if source.pixelFormat ≠ kCVPixelFormatType_32BGRA then
    .error "compositor produced a non-BGRA frame"
  else if source.width ≠ destination.width ∨ source.height ≠ destination.height then
    .error "compositor frame dimensions changed while streaming"
  else if source.lockStatus ≠ 0 then
    .error s!"failed to lock compositor frame ({source.lockStatus})"
  else
    let result := copyRows source destination
    if source.unlockStatus ≠ 0 then
      .error s!"failed to unlock compositor frame ({source.unlockStatus})"
    else result

/-! ## Times -/

def timeBase : ℕ := 90000

def i64Max : ℕ := 2 ^ 63 - 1

/-- `timestamp_pts` of a time in nanoseconds. -/
def timestampPts (timestamp : ℕ) : Except String ℕ :=
  let micros := timestamp / 1000
  if i64Max < micros then .error "stream timestamp is too large"
  else if i64Max < micros * timeBase then .error "stream timestamp is too large"
  else .ok (micros * timeBase / 1000000)

/-! ## The thread -/

def frameQueueDepth : ℕ := 2

/-- Where the thread is. It reports an error before it lets go of its receiver. -/
inductive PublishPhase
  | opening
  | publishing
  | reporting (message : String)
  | closing
  | ended

/-- The thread with its channel, of which the viewer holds the `sender`. -/
structure Publisher where
  config : RtmpConfig
  dimensions : ℕ × ℕ
  generation : ℕ
  sender : Bool
  frames : List CVPixelBuffer
  phase : PublishPhase
  bgra : VideoFrame
  clock : ℕ
  offered : List CVPixelBuffer
  accepted : List CVPixelBuffer
  taken : List CVPixelBuffer
  encoded : List (VideoFrame × ℕ)
  reported : Option String

/-- What FFmpeg answers up to the bitrate and from there on, and the frame it allocates. -/
structure OpenAnswers where
  connected : Except String Unit
  opened : Except String Unit
  bgra : VideoFrame

/-- What FFmpeg answers for a frame, and the time since the thread has opened the stream. -/
structure FrameAnswers where
  elapsed : ℕ
  converted : Except String Unit
  sent : Except String Unit
  drained : Except String Unit

inductive PublishStep
  | connect (answers : OpenAnswers)
  | publish (answers : FrameAnswers)
  | flush (flushed : Except String Unit)
  | reportError
  | closeReceiver

/-- A frame as FFmpeg allocates it: its rows do not overlap and it has all of them. -/
structure VideoFrame.Allocated (frame : VideoFrame) (dimensions : ℕ × ℕ) : Prop where
  width : frame.width = dimensions.1
  height : frame.height = dimensions.2
  stride : dimensions.1 * 4 ≤ frame.stride
  data : frame.stride * dimensions.2 ≤ frame.data.length

/-- `publish` up to its loop. -/
def openStream (config : RtmpConfig) (dimensions : ℕ × ℕ) (answers : OpenAnswers) :
    Except String VideoFrame :=
  if 2 ^ 32 ≤ dimensions.1 then .error "canvas width exceeds FFmpeg limits"
  else if 2 ^ 32 ≤ dimensions.2 then .error "canvas height exceeds FFmpeg limits"
  else if 2 ^ 31 ≤ config.fps then .error "frame rate exceeds FFmpeg limits"
  else do
    answers.connected
    let _ ← checkedMul "stream bitrate is too large" config.bitrate 1000
    answers.opened
    return answers.bgra

namespace Publisher

variable (publisher : Publisher)

/-- `publish` returns an error. -/
def fail (message : String) : Publisher := { publisher with phase := .reporting message }

/-- The body of the loop, for the picture it has taken. -/
def encode (image : CVPixelBuffer) (answers : FrameAnswers) : Publisher :=
  match copyPixelBuffer image publisher.bgra with
  | .error message => publisher.fail message
  | .ok bgra =>
    let copied : Publisher := { publisher with bgra }
    match answers.converted with
    | .error message => copied.fail message
    | .ok () =>
      match timestampPts answers.elapsed with
      | .error message => copied.fail message
      | .ok pts =>
        match answers.sent with
        | .error message => copied.fail message
        | .ok () =>
          let encoded : Publisher := { copied with encoded := copied.encoded ++ [(bgra, pts)] }
          match answers.drained with
          | .error message => encoded.fail message
          | .ok () => encoded

/-- A step of the thread. -/
def step : PublishStep → Option Publisher
  | .connect answers =>
    match publisher.phase with
    | .opening =>
      match openStream publisher.config publisher.dimensions answers with
      | .error message => some (publisher.fail message)
      | .ok bgra => some
          { publisher with
            phase := .publishing
            bgra }
    | _ => none
  | .publish answers =>
    match publisher.phase, publisher.frames with
    | .publishing, image :: frames =>
      let received : Publisher :=
        { publisher with
          frames
          clock := answers.elapsed
          taken := publisher.taken ++ [image] }
      some (received.encode image answers)
    | _, _ => none
  | .flush flushed =>
    match publisher.phase, publisher.frames, publisher.sender with
    | .publishing, [], false =>
      match flushed with
      | .error message => some (publisher.fail message)
      | .ok () => some { publisher with phase := .closing }
    | _, _, _ => none
  | .reportError =>
    match publisher.phase with
    | .reporting message => some
        { publisher with
          phase := .closing
          reported := some message }
    | _ => none
  | .closeReceiver =>
    match publisher.phase with
    | .closing => some
        { publisher with
          phase := .ended
          frames := [] }
    | _ => none

/-- What FFmpeg and the clock can answer. -/
def Answers : PublishStep → Prop
  | .connect answers => answers.bgra.Allocated publisher.dimensions
  | .publish answers => publisher.clock ≤ answers.elapsed
  | _ => True

/-- `RtmpStream::send`. -/
def send (image : CVPixelBuffer) : Except String Publisher :=
  if publisher.sender then
    let offered : Publisher := { publisher with offered := publisher.offered ++ [image] }
    match publisher.phase with
    | .ended => .error "RTMP publisher stopped"
    | _ =>
      if publisher.frames.length < frameQueueDepth then
        .ok
          { offered with
            frames := publisher.frames ++ [image]
            accepted := publisher.accepted ++ [image] }
      else .ok offered
  else .error "RTMP publisher is stopping"

/-- `RtmpStream::stop`, also when it is dropped. -/
def stop : Publisher := { publisher with sender := false }

/-- `RtmpStream::start`, once the thread is spawned. -/
def start (config : RtmpConfig) (dimensions : ℕ × ℕ) (generation : ℕ) : Publisher where
  config := config
  dimensions := dimensions
  generation := generation
  sender := true
  frames := []
  phase := .opening
  bgra := ⟨0, 0, 0, []⟩
  clock := 0
  offered := []
  accepted := []
  taken := []
  encoded := []
  reported := none

end Publisher

end Blip.Studio
