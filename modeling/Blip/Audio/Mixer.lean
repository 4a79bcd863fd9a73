import Blip.Common.Duration
import Mathlib.Algebra.Order.BigOperators.Group.List
import Mathlib.Tactic.Linarith

/-!
# The audio mixer

`crates/blip-audio/src/lib.rs`: a mixer reads its sources through the segments of the timeline, one
pair of samples for a timeline time. An export renders packets of frames at exact fractions of a
second; live playback counts frames and asks for whole nanoseconds.
-/

namespace Blip.Audio

/-- `MIX_SAMPLE_RATE`. -/
def mixSampleRate : ℕ := 48000

/-- `MIX_CHANNELS`. -/
def mixChannels : ℕ := 2

inductive AudioPacketError
  | invalidSampleRate
  | invalidChannelCount
  | empty
  | incompleteFrame
deriving DecidableEq, Repr

/-- The message of an error. -/
def AudioPacketError.toString : AudioPacketError → String
  | .invalidSampleRate => "audio sample rate must be greater than zero"
  | .invalidChannelCount => "audio channel count must be greater than zero"
  | .empty => "audio packet must contain at least one frame"
  | .incompleteFrame => "audio samples do not contain complete interleaved frames"

/-- Interleaved samples; a packet without a timestamp, as the mixer makes them. -/
structure AudioPacket where
  samples : List ℚ
  sampleRate : ℕ
  channels : ℕ
  nonempty : samples ≠ []
  complete : samples.length % channels = 0

/-- `AudioPacket::new`. -/
def AudioPacket.new (samples : List ℚ) (sampleRate channels : ℕ) :
    Except AudioPacketError AudioPacket :=
  if sampleRate = 0 then .error .invalidSampleRate
  else if channels = 0 then .error .invalidChannelCount
  else if hempty : samples = [] then .error .empty
  else if hcomplete : samples.length % channels = 0 then
    .ok { samples, sampleRate, channels, nonempty := hempty, complete := hcomplete }
  else .error .incompleteFrame

/-- The pair of samples of a stereo packet's frame. -/
def AudioPacket.frame (packet : AudioPacket) (index : ℕ) : Option (ℚ × ℚ) :=
  match packet.samples[2 * index]?, packet.samples[2 * index + 1]? with
  | some left, some right => some (left, right)
  | _, _ => none

/-- A stereo source at 48 kHz, placed on the recording's timeline. -/
structure AudioSource where
  samples : List ℚ
  startOffsetSecs : ℚ
  gain : ℚ
  complete : samples.length % mixChannels = 0

structure AudioTimelineSegment where
  sourceStartSecs : ℚ
  sourceEndSecs : ℚ
deriving DecidableEq, Repr

/-- A reversed range counts as empty. -/
def AudioTimelineSegment.durationSecs (segment : AudioTimelineSegment) : ℚ :=
  max (segment.sourceEndSecs - segment.sourceStartSecs) 0

structure AudioMixer where
  sources : List AudioSource
  segments : List AudioTimelineSegment

/-- `frame_index_at`: the input frame nearest to a time, by way of whole nanoseconds. -/
def frameIndexAt (timeSecs : ℚ) : Option ℕ :=
  match Duration.tryFromSecsF64 timeSecs with
  | none => none
  | some duration =>
    let frames := (duration.nanos * mixSampleRate + 500000000) / 1000000000
    if frames < 2 ^ 64 then some frames else none

/-- The sample of a source that a mixed frame adds to a channel. -/
def AudioSource.input (source : AudioSource) (sourceTimeSecs : ℚ) (channel : ℕ) : Option ℚ :=
  match frameIndexAt (sourceTimeSecs - source.startOffsetSecs) with
  | none => none
  | some inputFrame =>
    -- `checked_mul` and `checked_add` of `usize`
    if inputFrame * mixChannels + channel < 2 ^ 64 then
      source.samples[inputFrame * mixChannels + channel]?
    else none

/-- `f32::clamp` to the range of a sample. -/
def clampSample (sample : ℚ) : ℚ := max (-1) (min 1 sample)

namespace AudioMixer

/-- The loop of `source_time_at`, from where a segment starts on the timeline. -/
def sourceTimeFrom (timelineTimeSecs : ℚ) : ℚ → List AudioTimelineSegment → Option ℚ
  | _, [] => none
  | timelineStart, segment :: segments =>
    let timelineEnd := timelineStart + segment.durationSecs
    if timelineTimeSecs < timelineEnd then
      some (segment.sourceStartSecs + timelineTimeSecs - timelineStart)
    else sourceTimeFrom timelineTimeSecs timelineEnd segments

variable (mixer : AudioMixer)

/-- `source_time_at`. -/
def sourceTimeAt (timelineTimeSecs : ℚ) : Option ℚ :=
  if timelineTimeSecs < 0 then none else sourceTimeFrom timelineTimeSecs 0 mixer.segments

/-- `duration_secs`. -/
def durationSecs : ℚ := (mixer.segments.map AudioTimelineSegment.durationSecs).sum

/-- What the sources add up to in a channel. -/
def mixChannel (sourceTimeSecs : ℚ) (channel : ℕ) : ℚ :=
  mixer.sources.foldl (fun mixed source =>
    match source.input sourceTimeSecs channel with
    | none => mixed
    | some input => mixed + input * source.gain) 0

/-- `mix_frame_at`. -/
def mixFrameAt (timelineTimeSecs : ℚ) : ℚ × ℚ :=
  match mixer.sourceTimeAt timelineTimeSecs with
  | none => (0, 0)
  | some sourceTime =>
    (clampSample (mixer.mixChannel sourceTime 0), clampSample (mixer.mixChannel sourceTime 1))

/-- The time `render` mixes a frame at; a frame index past `u32` counts as the last one. -/
def renderTime (timelineStartSecs : ℚ) (outputFrame : ℕ) : ℚ :=
  timelineStartSecs + (min outputFrame (2 ^ 32 - 1) : ℕ) / mixSampleRate

/-- `render`. -/
def render (timelineStartSecs : ℚ) (frameCount : ℕ) : Except AudioPacketError AudioPacket :=
  AudioPacket.new
    ((List.range frameCount).flatMap fun outputFrame =>
      let pair := mixer.mixFrameAt (renderTime timelineStartSecs outputFrame)
      [pair.1, pair.2])
    mixSampleRate mixChannels

end AudioMixer

/-! ## Live playback -/

/-- `timeline_seconds_at_frame`: the frame's time, cut to whole nanoseconds. -/
def timelineSecondsAtFrame (frame : ℕ) : ℚ :=
  let seconds := frame / mixSampleRate
  let nanos := frame % mixSampleRate * 1000000000 / mixSampleRate
  Duration.asSecsF64 ⟨seconds * 1000000000 + nanos⟩

/-- `u64::saturating_add`. -/
def saturatingAdd (a b : ℕ) : ℕ := min (a + b) (2 ^ 64 - 1)

/-- The counters an output stream keeps: the timeline frame and a remainder. -/
structure OutputClock where
  sourceFrame : ℕ
  sourceRemainder : ℕ
deriving DecidableEq, Repr

/-- The counters after one frame of output. -/
def OutputClock.advance (outputRate : ℕ) (clock : OutputClock) : OutputClock :=
  let remainder := saturatingAdd clock.sourceRemainder mixSampleRate
  { sourceFrame := saturatingAdd clock.sourceFrame (remainder / outputRate)
    sourceRemainder := if outputRate = 0 then 0 else remainder % outputRate }

/-- The pair an output stream started at a timeline frame mixes for its `n`-th frame of output. -/
def AudioMixer.playbackFrame (mixer : AudioMixer) (outputRate startFrame n : ℕ) : ℚ × ℚ :=
  mixer.mixFrameAt (timelineSecondsAtFrame
    ((OutputClock.advance outputRate)^[n]
      { sourceFrame := startFrame, sourceRemainder := 0 }).sourceFrame)

end Blip.Audio
