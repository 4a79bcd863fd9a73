import Blip.Audio.Mixer
import Blip.Capture.MediaTimes
import Blip.Common.PushLoops
import Mathlib.Data.List.GetD

/-!
# Packets of the system audio

`crates/blip-sck/src/audio.rs`: a sample buffer of ScreenCaptureKit becomes a packet of interleaved
samples. Its audio buffers hold any share of the channels each, one or several of them interleaved.
What CoreMedia says about a sample buffer is taken as it comes. A sample is given by its bits, on a
64-bit target that stores the lowest byte first.
-/

namespace Blip.Sck

open Blip.Audio (AudioPacketError)
open Blip.Capture (FrameTimestamp)

/-! ## Errors -/

inductive CaptureError
  | permissionDenied
  | noDisplay
  | timeout (operation : String)
  | invalidConfiguration (message : String)
  | framework (message : String)
  | invalidFrame (message : String)
deriving DecidableEq, Repr

/-- A call that may return an error. Without any result it panics, and the callback goes on without
a packet. -/
abbrev Call := ExceptT CaptureError Option

/-- The return with an `InvalidFrame`. -/
def invalidFrame {α : Type} (message : String) : Call α := throw (.invalidFrame message)

/-- `isize::MAX`, the most bytes that can be allocated. -/
def isizeMax : ℕ := 2 ^ 63 - 1

/-- `usize::MAX`. -/
def usizeMax : ℕ := 2 ^ 64 - 1

/-- A `usize` operation whose exact result is the given one: `try_from`, `checked_mul` or
`checked_add`. -/
def checkedUsize (message : String) (value : ℕ) : Call ℕ :=
  if value ≤ usizeMax then pure value else invalidFrame message

/-- Room for so many items of a size, as `Vec::with_capacity` reserves it. -/
def reserve (count size : ℕ) : Call Unit :=
  if count * size ≤ isizeMax then pure () else ExceptT.mk none

/-! ## Sample buffers -/

/-- What `audio_packet` reads of an `AudioStreamBasicDescription`; a rate that is not finite is
`none`. -/
structure StreamDescription where
  sampleRate : Option ℚ
  formatId : UInt32
  formatFlags : UInt32
  channelsPerFrame : UInt32
  bitsPerChannel : UInt32

/-- An `AudioBuffer`: the bytes from its pointer on, unless that is null. -/
structure AudioBuffer where
  numberChannels : UInt32
  dataByteSize : UInt32
  data : Option (ℕ → UInt8)

/-- What CoreMedia answers when it is asked for the size of a buffer list and then for the list. -/
structure BufferListAnswers where
  inspectStatus : Int32
  requiredSize : UInt64
  readStatus : Int32
  hasBlockBuffer : Bool
  buffers : List AudioBuffer
  count : buffers.length < 2 ^ 32

/-- What `audio_packet` asks a `CMSampleBuffer`. A format description may have no stream
description. -/
structure SampleBuffer where
  formatDescription : Option (Option StreamDescription)
  numSamples : Int64
  bufferList : BufferListAnswers

/-- `kAudioFormatLinearPCM`: `lpcm`. -/
def kAudioFormatLinearPCM : UInt32 := 0x6C70636D

def kAudioFormatFlagIsFloat : UInt32 := 1

def kAudioFormatFlagIsBigEndian : UInt32 := 2

def kAudioFormatFlagIsPacked : UInt32 := 8

/-- An `AudioBufferData`: its bytes were counted by a `u32`. -/
structure AudioBufferData where
  channels : UInt16
  bytes : List UInt8
  size : bytes.length < 2 ^ 32

/-- `u16::try_from`. -/
def u16TryFrom (message : String) (value : UInt32) : Call UInt16 :=
  if value.toNat < 2 ^ 16 then pure value.toUInt16 else invalidFrame message

/-- The copy that `audio_buffers` makes of a buffer. -/
def AudioBuffer.copy (buffer : AudioBuffer) : Call AudioBufferData := do
  let channels ← u16TryFrom "system audio buffer channel count exceeds supported range"
    buffer.numberChannels
  let _ ← checkedUsize "system audio buffer size exceeds supported range" buffer.dataByteSize.toNat
  match buffer.data with
  | none => invalidFrame "system audio buffer has no sample data"
  | some data =>
    return {
      channels
      bytes := (List.range buffer.dataByteSize.toNat).map data
      size := by
        rw [List.length_map, List.length_range]
        exact buffer.dataByteSize.toNat_lt }

/-- `audio_buffers`. The list takes 8 bytes and 16 for each buffer, and an `AudioBufferList` has
one. -/
def audioBuffers (answers : BufferListAnswers) : Call (List AudioBufferData) := do
  if answers.requiredSize.toNat < 24 then
    invalidFrame s!"failed to inspect system audio buffers ({answers.inspectStatus})"
  let wordCount := (answers.requiredSize.toNat + 7) / 8
  reserve wordCount 8
  if answers.readStatus ≠ 0 then
    invalidFrame s!"failed to read system audio buffers ({answers.readStatus})"
  if ¬ answers.hasBlockBuffer then
    invalidFrame "system audio has no retained data buffer"
  let bufferCount ← checkedUsize "system audio buffer count exceeds supported range"
    answers.buffers.length
  let size ← checkedUsize "system audio buffer list overflow" (bufferCount * 16)
  let buffersSize ← checkedUsize "system audio buffer list overflow" (size + 8)
  if buffersSize > min (wordCount * 8) usizeMax then
    invalidFrame "system audio buffer list is shorter than expected"
  answers.buffers.mapM AudioBuffer.copy

/-! ## Packets -/

/-- `compensate_timestamp`; `checked_add` of durations is limited by their `u64` seconds. -/
def compensateTimestamp (timestamp : Option FrameTimestamp) (outputLatency : Duration) :
    Option FrameTimestamp := do
  let nanos := (← timestamp).durationSinceEpoch.nanos + outputLatency.nanos
  if nanos < 2 ^ 64 * 1000000000 then some ⟨⟨nanos⟩⟩ else none

/-- `sample_rate`. -/
def sampleRate (value : Option ℚ) : Call ℕ :=
  match value with
  | none => invalidFrame "system audio sample rate is invalid"
  | some value =>
    if value ≤ 0 ∨ value > 2 ^ 32 - 1 ∨ Int.fract value ≠ 0 then
      invalidFrame "system audio sample rate is invalid"
    else pure ⌊value⌋.toNat

/-- An `AudioPacket` as `AudioPacket::new` lets it be: complete frames and at least one. -/
structure AudioPacket where
  samples : List UInt32
  sampleRate : ℕ
  channels : ℕ
  timestamp : Option FrameTimestamp
  sampleRate_ne : sampleRate ≠ 0
  channels_ne : channels ≠ 0
  nonempty : samples ≠ []
  complete : samples.length % channels = 0

/-- `AudioPacket::new`. -/
def AudioPacket.new (samples : List UInt32) (sampleRate channels : ℕ)
    (timestamp : Option FrameTimestamp) : Except AudioPacketError AudioPacket :=
  if hrate : sampleRate = 0 then .error .invalidSampleRate
  else if hchannels : channels = 0 then .error .invalidChannelCount
  else if hempty : samples = [] then .error .empty
  else if hcomplete : samples.length % channels = 0 then
    .ok ⟨samples, sampleRate, channels, timestamp, hrate, hchannels, hempty, hcomplete⟩
  else .error .incompleteFrame

/-- `f32::from_ne_bytes`. -/
def fromNeBytes (byte0 byte1 byte2 byte3 : UInt8) : UInt32 :=
  byte0.toUInt32 ||| byte1.toUInt32 <<< 8 ||| byte2.toUInt32 <<< 16 ||| byte3.toUInt32 <<< 24

/-- The sample that the innermost loop of `audio_packet` reads. -/
def readSample (buffer : AudioBufferData) (frame channel : ℕ) : Call UInt32 := do
  let index ← checkedUsize "system audio sample index overflow" (frame * buffer.channels.toNat)
  let sampleIndex ← checkedUsize "system audio sample index overflow" (index + channel)
  let offset ← checkedUsize "system audio sample offset overflow" (sampleIndex * 4)
  let stop ← checkedUsize "system audio sample offset overflow" (offset + 4)
  if buffer.bytes.length < stop then
    invalidFrame "system audio buffer is shorter than expected"
  match (buffer.bytes.drop offset).take 4 with
  | [byte0, byte1, byte2, byte3] => return fromNeBytes byte0 byte1 byte2 byte3
  | _ => invalidFrame "invalid system audio sample"

/-- The three loops of `audio_packet`. -/
def readSamples (frameCount : ℕ) (buffers : List AudioBufferData) : Call (List UInt32) :=
  (List.range frameCount).foldlM (fun samples frame =>
    buffers.foldlM (fun samples buffer =>
      (List.range buffer.channels.toNat).foldlM (fun samples channel => do
        return samples ++ [← readSample buffer frame channel]) samples) samples) []

/-- The fold of `u32::checked_add` over the channel counts. -/
def listedChannels (buffers : List AudioBufferData) : Option ℕ :=
  buffers.foldlM (fun total buffer =>
    if total + buffer.channels.toNat < 2 ^ 32 then some (total + buffer.channels.toNat)
    else none) 0

/-- `audio_packet`. -/
def audioPacket (sampleBuffer : SampleBuffer) (timestamp : Option FrameTimestamp)
    (outputLatency : Duration) : Call AudioPacket := do
  let timestamp := compensateTimestamp timestamp outputLatency
  let some format := sampleBuffer.formatDescription
    | invalidFrame "system audio sample has no format description"
  let some description := format
    | invalidFrame "system audio sample has no stream description"
  if description.formatId ≠ kAudioFormatLinearPCM ∨
      description.formatFlags &&& kAudioFormatFlagIsFloat = 0 ∨
      description.formatFlags &&& kAudioFormatFlagIsPacked = 0 ∨
      description.bitsPerChannel ≠ 32 then
    invalidFrame "system audio is not packed 32-bit floating-point PCM"
  if description.formatFlags &&& kAudioFormatFlagIsBigEndian ≠ 0 then
    invalidFrame "big-endian system audio is unsupported"
  let rate ← sampleRate description.sampleRate
  let channels ← u16TryFrom "system audio channel count exceeds supported range"
    description.channelsPerFrame
  if sampleBuffer.numSamples < 0 then
    invalidFrame "system audio frame count is invalid"
  let frameCount := sampleBuffer.numSamples.toInt.toNat
  let buffers ← audioBuffers sampleBuffer.bufferList
  let some listed := listedChannels buffers
    | invalidFrame "system audio channel count overflow"
  if listed ≠ channels.toNat then
    invalidFrame "system audio buffers do not match the stream channel count"
  reserve (min (frameCount * channels.toNat) usizeMax) 4
  let samples ← readSamples frameCount buffers
  match AudioPacket.new samples rate channels.toNat timestamp with
  | .ok packet => return packet
  | .error error => invalidFrame error.toString

/-! ## Steps of a call -/

theorem checkedUsize_eq (message : String) {value : ℕ} (h : value ≤ usizeMax) :
    checkedUsize message value = pure value :=
  if_pos h

theorem reserve_eq {count size : ℕ} (h : count * size ≤ isizeMax) : reserve count size = pure () :=
  if_pos h

/-- A packet passes its own checks. -/
theorem AudioPacket.new_self (packet : AudioPacket) :
    AudioPacket.new packet.samples packet.sampleRate packet.channels packet.timestamp =
      .ok packet := by
  rw [AudioPacket.new, dif_neg packet.sampleRate_ne, dif_neg packet.channels_ne,
    dif_neg packet.nonempty, dif_pos packet.complete]

/-! ## The loops -/

/-- Sample `index` of a buffer. -/
def AudioBufferData.sample (buffer : AudioBufferData) (index : ℕ) : UInt32 :=
  let byte place := buffer.bytes.getD (index * 4 + place) 0
  fromNeBytes (byte 0) (byte 1) (byte 2) (byte 3)

/-- The samples of a frame, channel by channel. -/
def frameSamples (buffers : List AudioBufferData) (frame : ℕ) : List UInt32 :=
  buffers.flatMap fun buffer =>
    (List.range buffer.channels.toNat).map fun channel =>
      buffer.sample (frame * buffer.channels.toNat + channel)

/-- The channels of all the buffers. -/
def totalChannels (buffers : List AudioBufferData) : ℕ :=
  (buffers.map fun buffer => buffer.channels.toNat).sum

/-- The end of a read beyond the bytes. -/
def tooShort {α : Type} : Call α := invalidFrame "system audio buffer is shorter than expected"

section

variable {buffer : AudioBufferData} {buffers : List AudioBufferData} {frame channel frameCount : ℕ}

theorem take_four {bytes : List UInt8} {offset : ℕ} (h : offset + 4 ≤ bytes.length) :
    (bytes.drop offset).take 4 =
      [bytes.getD offset 0, bytes.getD (offset + 1) 0, bytes.getD (offset + 2) 0,
        bytes.getD (offset + 3) 0] := by
  apply List.ext_getElem
  · simp only [List.length_take, List.length_drop, List.length_cons, List.length_nil]
    omega
  · intro place hleft hright
    rw [List.getElem_take, List.getElem_drop]
    rcases place with _ | _ | _ | _ | place
    · exact (List.getD_eq_getElem bytes 0 _).symm
    · exact (List.getD_eq_getElem bytes 0 _).symm
    · exact (List.getD_eq_getElem bytes 0 _).symm
    · exact (List.getD_eq_getElem bytes 0 _).symm
    · simp only [List.length_cons, List.length_nil] at hright
      omega

/-- A read inside the address range fails only beyond the bytes. -/
theorem readSample_eq (h : (frame * buffer.channels.toNat + channel) * 4 + 4 ≤ usizeMax) :
    readSample buffer frame channel =
      if (frame * buffer.channels.toNat + channel) * 4 + 4 ≤ buffer.bytes.length then
        pure (buffer.sample (frame * buffer.channels.toNat + channel))
      else tooShort := by
  rw [readSample, checkedUsize_eq _ (by omega), pure_bind, checkedUsize_eq _ (by omega), pure_bind,
    checkedUsize_eq _ (by omega), pure_bind, checkedUsize_eq _ h, pure_bind]
  generalize (frame * buffer.channels.toNat + channel) = index at *
  by_cases hlength : index * 4 + 4 ≤ buffer.bytes.length
  · rw [if_neg (by omega), if_pos hlength]
    dsimp only
    rw [take_four hlength]
    rfl
  · rw [if_pos (by omega), if_neg hlength]
    rfl

theorem channels_le_total (h : buffer ∈ buffers) :
    buffer.channels.toNat ≤ totalChannels buffers :=
  List.le_sum_of_mem (List.mem_map_of_mem h)

theorem index_lt {channels : ℕ} (hframe : frame < frameCount) (hchannel : channel < channels) :
    frame * channels + channel < frameCount * channels := by
  have hle := Nat.mul_le_mul_right channels (Nat.succ_le_of_lt hframe)
  rw [Nat.succ_mul] at hle
  omega

/-- The loops push the frames one after the other, or stop at a buffer that is too short. -/
theorem readSamples_eq (h : frameCount * totalChannels buffers * 4 ≤ usizeMax) :
    readSamples frameCount buffers =
      if ∀ frame ∈ List.range frameCount, ∀ buffer ∈ buffers,
          ∀ channel ∈ List.range buffer.channels.toNat,
            (frame * buffer.channels.toNat + channel) * 4 + 4 ≤ buffer.bytes.length then
        pure ((List.range frameCount).flatMap (frameSamples buffers))
      else tooShort := by
  -- one use of the rule for each loop, from the frames inwards
  rw [readSamples, ← List.nil_append ((List.range frameCount).flatMap (frameSamples buffers))]
  refine foldlM_push (fun _ => rfl) (fun samples frame hframe => ?_) []
  refine foldlM_push (fun _ => rfl) (fun samples buffer hbuffer => ?_) samples
  rw [← List.flatMap_singleton' (List.map _ _), List.flatMap_map]
  refine foldlM_push (fun _ => rfl) (fun samples channel hchannel => ?_) samples
  -- the read stays inside the address range
  have hindex := index_lt (List.mem_range.1 hframe) (List.mem_range.1 hchannel)
  have htotal := Nat.mul_le_mul_left frameCount (channels_le_total hbuffer)
  rw [readSample_eq (by omega)]
  split
  · rw [pure_bind]
  · rfl

/-- All the reads succeed exactly where every buffer has its frames. -/
theorem reads_iff (hframes : 0 < frameCount) :
    (∀ frame ∈ List.range frameCount, ∀ buffer ∈ buffers,
      ∀ channel ∈ List.range buffer.channels.toNat,
        (frame * buffer.channels.toNat + channel) * 4 + 4 ≤ buffer.bytes.length) ↔
    ∀ buffer ∈ buffers, frameCount * buffer.channels.toNat * 4 ≤ buffer.bytes.length := by
  constructor
  · intro h buffer hbuffer
    rcases Nat.eq_zero_or_pos buffer.channels.toNat with hzero | hpos
    · rw [hzero]
      exact Nat.zero_le _
    · -- the last channel of the last frame ends where the frames do
      have hlast := h (frameCount - 1) (List.mem_range.2 (by omega)) buffer hbuffer
        (buffer.channels.toNat - 1) (List.mem_range.2 (by omega))
      have hends : (frameCount - 1) * buffer.channels.toNat + buffer.channels.toNat =
          frameCount * buffer.channels.toNat := by
        rw [← Nat.succ_mul, Nat.succ_eq_add_one, Nat.sub_add_cancel hframes]
      omega
  · intro h frame hframe buffer hbuffer channel hchannel
    have hindex := index_lt (List.mem_range.1 hframe) (List.mem_range.1 hchannel)
    have hbytes := h buffer hbuffer
    omega

theorem length_frameSamples (frame : ℕ) :
    (frameSamples buffers frame).length = totalChannels buffers := by
  simp only [frameSamples, List.length_flatMap, List.length_map, List.length_range, totalChannels]

/-- A channel of a frame comes after the channels of the buffers before its own. -/
theorem getElem?_frameSamples {before after : List AudioBufferData}
    (h : buffers = before ++ buffer :: after) (hchannel : channel < buffer.channels.toNat) :
    (frameSamples buffers frame)[totalChannels before + channel]? =
      some (buffer.sample (frame * buffer.channels.toNat + channel)) := by
  have hbefore := @length_frameSamples before frame
  rw [frameSamples] at hbefore
  rw [h, frameSamples, List.flatMap_append, List.flatMap_cons,
    List.getElem?_append_right (by omega), hbefore, Nat.add_sub_cancel_left,
    List.getElem?_append_left (by simpa using hchannel), List.getElem?_map,
    List.getElem?_range hchannel]
  rfl

end

/-! ## Every list of buffers is read -/

/-- The buffer that a copy was made of. -/
def AudioBufferData.source (buffer : AudioBufferData) : AudioBuffer where
  numberChannels := buffer.channels.toUInt32
  dataByteSize := .ofNat buffer.bytes.length
  data := some fun index => buffer.bytes.getD index 0

/-- The answers about a list of buffers. -/
def BufferListAnswers.of (buffers : List AudioBufferData) (h : buffers.length < 2 ^ 32) :
    BufferListAnswers where
  inspectStatus := 0
  requiredSize := .ofNat (buffers.length * 16 + 24)
  readStatus := 0
  hasBlockBuffer := true
  buffers := buffers.map AudioBufferData.source
  count := by rwa [List.length_map]

theorem copy_source (buffer : AudioBufferData) : buffer.source.copy = pure buffer := by
  have hlength : buffer.source.dataByteSize.toNat = buffer.bytes.length :=
    UInt32.toNat_ofNat_of_lt' buffer.size
  have hbytes : (List.range buffer.source.dataByteSize.toNat).map
      (fun index => buffer.bytes.getD index 0) = buffer.bytes := by
    apply List.ext_getElem
    · rw [List.length_map, List.length_range, hlength]
    · intro index hleft hright
      rw [List.getElem_map, List.getElem_range, List.getD_eq_getElem _ _ hright]
  have hchannels : u16TryFrom "system audio buffer channel count exceeds supported range"
      buffer.source.numberChannels = pure buffer.channels := by
    rw [u16TryFrom, AudioBufferData.source, UInt16.toNat_toUInt32, if_pos buffer.channels.toNat_lt,
      UInt16.toUInt16_toUInt32]
  have hsize := buffer.size
  rw [AudioBuffer.copy, hchannels, pure_bind, checkedUsize_eq _ (by rw [hlength, usizeMax]; omega),
    pure_bind]
  simp only [AudioBufferData.source] at hbytes ⊢
  simp only [hbytes]

theorem mapM_copy_source (buffers : List AudioBufferData) :
    (buffers.map AudioBufferData.source).mapM AudioBuffer.copy = pure buffers := by
  induction buffers with
  | nil => rfl
  | cons buffer buffers ih =>
    rw [List.map_cons, List.mapM_cons, copy_source, pure_bind, ih, pure_bind]

/-- Every list of buffers is what `audio_buffers` reads of some sample buffer. -/
theorem audioBuffers_of {buffers : List AudioBufferData} (h : buffers.length < 2 ^ 32) :
    audioBuffers (.of buffers h) = pure buffers := by
  have hrequired : (BufferListAnswers.of buffers h).requiredSize.toNat =
      buffers.length * 16 + 24 :=
    UInt64.toNat_ofNat_of_lt' (show _ < 2 ^ 64 by omega)
  have hcount : (BufferListAnswers.of buffers h).buffers.length = buffers.length :=
    List.length_map _
  have hread : (BufferListAnswers.of buffers h).readStatus = 0 := rfl
  have hblock : (BufferListAnswers.of buffers h).hasBlockBuffer = true := rfl
  have hmax : usizeMax = 18446744073709551615 := rfl
  have hroom : (buffers.length * 16 + 24 + 7) / 8 * 8 ≤ isizeMax := by
    rw [isizeMax]
    omega
  rw [audioBuffers, hrequired, if_neg (by omega), hcount]
  dsimp only
  rw [reserve_eq hroom]
  simp only [pure_bind]
  rw [if_neg (not_not.2 hread), if_neg (not_not.2 hblock), checkedUsize_eq _ (by omega), pure_bind,
    checkedUsize_eq _ (by omega), pure_bind, checkedUsize_eq _ (by omega), pure_bind,
    if_neg (by omega)]
  exact mapM_copy_source buffers

/-! ## Sample buffers that pass the checks -/

/-- The number of frames. -/
def SampleBuffer.frameCount (sampleBuffer : SampleBuffer) : ℕ := sampleBuffer.numSamples.toInt.toNat

/-- A sample buffer with frames in a supported format, whose buffers have the stream's channels. -/
structure SampleBuffer.Reads (sampleBuffer : SampleBuffer) (rate channels : ℕ)
    (buffers : List AudioBufferData) : Prop where
  format : ∃ description, sampleBuffer.formatDescription = some (some description) ∧
    description.formatId = kAudioFormatLinearPCM ∧
    description.formatFlags &&& kAudioFormatFlagIsFloat ≠ 0 ∧
    description.formatFlags &&& kAudioFormatFlagIsPacked ≠ 0 ∧
    description.bitsPerChannel = 32 ∧
    description.formatFlags &&& kAudioFormatFlagIsBigEndian = 0 ∧
    sampleRate description.sampleRate = pure rate ∧
    description.channelsPerFrame.toNat = channels
  channels_pos : 0 < channels
  channels_lt : channels < 2 ^ 16
  frames : 0 < sampleBuffer.numSamples
  list : audioBuffers sampleBuffer.bufferList = pure buffers
  total : totalChannels buffers = channels

theorem listedChannels_eq {buffers : List AudioBufferData} (h : totalChannels buffers < 2 ^ 32) :
    listedChannels buffers = some (totalChannels buffers) := by
  suffices hfrom : ∀ total, total + totalChannels buffers < 2 ^ 32 →
      buffers.foldlM (fun total buffer =>
        if total + buffer.channels.toNat < 2 ^ 32 then some (total + buffer.channels.toNat)
        else none) total = some (total + totalChannels buffers) by
    rw [listedChannels, hfrom 0 (by omega), Nat.zero_add]
  clear h
  induction buffers with
  | nil => simp [totalChannels]
  | cons buffer buffers ih =>
    intro total h
    have hcons : totalChannels (buffer :: buffers) =
        buffer.channels.toNat + totalChannels buffers := by
      rw [totalChannels, List.map_cons, List.sum_cons, totalChannels]
    rw [hcons] at h ⊢
    rw [List.foldlM_cons, if_pos (by omega), Option.bind_eq_bind, Option.bind_some,
      ih _ (by omega), Nat.add_assoc]

theorem sampleRate_pos {value : Option ℚ} {rate : ℕ} (h : sampleRate value = pure rate) :
    0 < rate := by
  cases value with
  | none => cases h
  | some value =>
    rw [sampleRate] at h
    split at h
    · cases h
    · next hvalue =>
      obtain ⟨hpos, -, hwhole⟩ := not_or.1 hvalue |>.imp id not_or.1
      cases h
      have hfloor := Int.self_sub_floor value
      rw [not_ne_iff.1 hwhole, sub_eq_zero] at hfloor
      have : (0 : ℚ) < ⌊value⌋ := by rw [← hfloor]; exact not_le.1 hpos
      have : 0 < ⌊value⌋ := by exact_mod_cast this
      omega

namespace SampleBuffer.Reads

variable {sampleBuffer : SampleBuffer} {rate channels : ℕ} {buffers : List AudioBufferData}
  {timestamp : Option FrameTimestamp} {outputLatency : Duration}

theorem frameCount_pos (h : sampleBuffer.Reads rate channels buffers) :
    0 < sampleBuffer.frameCount := by
  have hframes := Int64.lt_iff_toInt_lt.1 h.frames
  rw [Int64.toInt_zero] at hframes
  rw [frameCount]
  omega

theorem length_samples (h : sampleBuffer.Reads rate channels buffers) :
    ((List.range sampleBuffer.frameCount).flatMap (frameSamples buffers)).length =
      sampleBuffer.frameCount * channels := by
  rw [length_flatMap_range length_frameSamples, h.total]

theorem rate_pos (h : sampleBuffer.Reads rate channels buffers) : 0 < rate := by
  obtain ⟨_, -, -, -, -, -, -, hrate, -⟩ := h.format
  exact sampleRate_pos hrate

/-- The packet of frames read from the buffers. -/
def packet (h : sampleBuffer.Reads rate channels buffers) (timestamp : Option FrameTimestamp)
    (outputLatency : Duration) : AudioPacket where
  samples := (List.range sampleBuffer.frameCount).flatMap (frameSamples buffers)
  sampleRate := rate
  channels := channels
  timestamp := compensateTimestamp timestamp outputLatency
  sampleRate_ne := h.rate_pos.ne'
  channels_ne := h.channels_pos.ne'
  nonempty := by
    rw [← List.length_pos_iff, h.length_samples]
    exact Nat.mul_pos h.frameCount_pos h.channels_pos
  complete := by rw [h.length_samples, Nat.mul_mod_left]

/-- With all the checks passed, the samples are read and put into a packet. -/
theorem audioPacket_eq (h : sampleBuffer.Reads rate channels buffers) :
    audioPacket sampleBuffer timestamp outputLatency = (do
      reserve (min (sampleBuffer.frameCount * channels) usizeMax) 4
      let samples ← readSamples sampleBuffer.frameCount buffers
      match AudioPacket.new samples rate channels
        (compensateTimestamp timestamp outputLatency) with
      | .ok packet => return packet
      | .error error => invalidFrame error.toString) := by
  obtain ⟨description, hdescription, hid, hfloat, hpacked, hbits, hendian, hrate, hchannels⟩ :=
    h.format
  have hlt := h.channels_lt
  have hu16 : u16TryFrom "system audio channel count exceeds supported range"
      description.channelsPerFrame = pure description.channelsPerFrame.toUInt16 :=
    if_pos (by omega)
  have htoNat : description.channelsPerFrame.toUInt16.toNat = channels := by
    rw [UInt32.toNat_toUInt16, hchannels, Nat.mod_eq_of_lt hlt]
  have htotal := h.total
  have hlisted := @listedChannels_eq buffers (by omega)
  have hframes : ¬ sampleBuffer.numSamples < 0 := by
    have := h.frames
    rw [Int64.not_lt]
    exact Int64.le_of_lt this
  simp only [audioPacket, hdescription, hid, hfloat, hpacked, hbits, hendian, hrate, hu16, hframes,
    h.list, hlisted, htoNat, htotal, pure_bind, ne_eq, not_true_eq_false, if_false, or_self,
    frameCount]

/-- The samples fit in memory, so every index of the loops is in the address range. -/
theorem audioPacket_eq_of_le (h : sampleBuffer.Reads rate channels buffers)
    (hrange : sampleBuffer.frameCount * channels * 4 ≤ isizeMax) :
    audioPacket sampleBuffer timestamp outputLatency =
      if ∀ buffer ∈ buffers,
          sampleBuffer.frameCount * buffer.channels.toNat * 4 ≤ buffer.bytes.length then
        pure (h.packet timestamp outputLatency)
      else tooShort := by
  have hmax : isizeMax ≤ usizeMax := by decide
  have hmin : min (sampleBuffer.frameCount * channels) usizeMax =
      sampleBuffer.frameCount * channels := min_eq_left (by omega)
  have hreads := @readSamples_eq buffers sampleBuffer.frameCount
    (by rw [h.total]; exact hrange.trans hmax)
  rw [h.audioPacket_eq, hmin, reserve_eq hrange, pure_bind, hreads]
  simp only [reads_iff h.frameCount_pos]
  split
  · have hnew := (h.packet timestamp outputLatency).new_self
    simp only [packet] at hnew
    rw [pure_bind, hnew]
    rfl
  · rfl

/-- More samples than fit in memory: no room is reserved for them. -/
theorem audioPacket_eq_of_lt (h : sampleBuffer.Reads rate channels buffers)
    (hrange : isizeMax < sampleBuffer.frameCount * channels * 4) :
    audioPacket sampleBuffer timestamp outputLatency = ExceptT.mk none := by
  have hmin : ¬ min (sampleBuffer.frameCount * channels) usizeMax * 4 ≤ isizeMax := by
    rw [isizeMax] at hrange
    rw [isizeMax, usizeMax]
    omega
  rw [h.audioPacket_eq, reserve, if_neg hmin]
  rfl

/-- Buffers counted by a `u32` each that have all their frames are few enough to fit. -/
theorem range_of_long (h : sampleBuffer.Reads rate channels buffers)
    (hlong : ∀ buffer ∈ buffers,
      sampleBuffer.frameCount * buffer.channels.toNat * 4 ≤ buffer.bytes.length) :
    sampleBuffer.frameCount * channels * 4 ≤ isizeMax := by
  obtain ⟨buffer, hbuffer, hpos⟩ : ∃ buffer ∈ buffers, 0 < buffer.channels.toNat := by
    by_contra hnone
    have hzero : totalChannels buffers = 0 := by
      refine List.sum_eq_zero fun count hcount => ?_
      obtain ⟨buffer, hbuffer, rfl⟩ := List.mem_map.1 hcount
      by_contra hne
      exact hnone ⟨buffer, hbuffer, Nat.pos_of_ne_zero hne⟩
    have := h.total
    have := h.channels_pos
    omega
  -- its frames are fewer than its bytes
  have hframes : sampleBuffer.frameCount ≤ sampleBuffer.frameCount * buffer.channels.toNat :=
    Nat.le_mul_of_pos_right _ hpos
  have hbytes := hlong buffer hbuffer
  have hsize := buffer.size
  have hproduct : sampleBuffer.frameCount * channels ≤ 2 ^ 32 * 2 ^ 16 :=
    Nat.mul_le_mul (by omega) h.channels_lt.le
  rw [isizeMax]
  omega

/-- There is a packet exactly when no buffer is shorter than its frames. -/
theorem audioPacket_eq_pure_iff (h : sampleBuffer.Reads rate channels buffers)
    {packet : AudioPacket} :
    audioPacket sampleBuffer timestamp outputLatency = pure packet ↔
      (∀ buffer ∈ buffers,
        sampleBuffer.frameCount * buffer.channels.toNat * 4 ≤ buffer.bytes.length) ∧
      h.packet timestamp outputLatency = packet := by
  by_cases hrange : sampleBuffer.frameCount * channels * 4 ≤ isizeMax
  · rw [h.audioPacket_eq_of_le hrange]
    split
    · next hlong =>
      rw [and_iff_right hlong]
      exact ⟨fun heq => Except.ok.inj (Option.some.inj heq), congrArg pure⟩
    · next hshort =>
      exact iff_of_false (fun heq => nomatch heq) fun hlong => hshort hlong.1
  · rw [h.audioPacket_eq_of_lt (not_le.1 hrange)]
    exact iff_of_false (fun heq => nomatch heq) fun hlong => hrange (h.range_of_long hlong.1)

/-- Every list of audio buffers of a stream, in any layout, becomes the interleaved samples: frame by
frame, the channels of the buffers in order. There is no packet exactly when a buffer is shorter than
its frames. -/
theorem audioPacket_interleaves (h : sampleBuffer.Reads rate channels buffers)
    (timestamp : Option FrameTimestamp) (outputLatency : Duration) :
    ((¬ ∃ packet, audioPacket sampleBuffer timestamp outputLatency = pure packet) ↔
      ∃ buffer ∈ buffers,
        buffer.bytes.length < sampleBuffer.frameCount * buffer.channels.toNat * 4) ∧
    (sampleBuffer.frameCount * channels * 4 ≤ isizeMax →
      (∃ buffer ∈ buffers,
        buffer.bytes.length < sampleBuffer.frameCount * buffer.channels.toNat * 4) →
      audioPacket sampleBuffer timestamp outputLatency =
        invalidFrame "system audio buffer is shorter than expected") ∧
    ∀ packet, audioPacket sampleBuffer timestamp outputLatency = pure packet →
      packet.sampleRate = rate ∧ packet.channels = channels ∧
      packet.timestamp = compensateTimestamp timestamp outputLatency ∧
      packet.samples.length = sampleBuffer.frameCount * channels ∧
      ∀ before buffer after, buffers = before ++ buffer :: after →
        ∀ frame < sampleBuffer.frameCount, ∀ channel < buffer.channels.toNat,
          packet.samples[frame * channels + (totalChannels before + channel)]? =
            some (buffer.sample (frame * buffer.channels.toNat + channel)) := by
  have hshort : (∃ buffer ∈ buffers,
        buffer.bytes.length < sampleBuffer.frameCount * buffer.channels.toNat * 4) ↔
      ¬ ∀ buffer ∈ buffers,
        sampleBuffer.frameCount * buffer.channels.toNat * 4 ≤ buffer.bytes.length := by
    simp only [not_forall, not_le, exists_prop]
  refine ⟨?_, fun hrange hexists => ?_, fun packet hpacket => ?_⟩
  · rw [hshort, not_iff_not]
    constructor
    · rintro ⟨packet, hpacket⟩
      exact (h.audioPacket_eq_pure_iff.1 hpacket).1
    · intro hlong
      exact ⟨_, h.audioPacket_eq_pure_iff.2 ⟨hlong, rfl⟩⟩
  · rw [h.audioPacket_eq_of_le hrange, if_neg (hshort.1 hexists)]
    rfl
  · obtain ⟨-, rfl⟩ := h.audioPacket_eq_pure_iff.1 hpacket
    refine ⟨rfl, rfl, rfl, h.length_samples, fun before buffer after hsplit frame hframe channel
      hchannel => ?_⟩
    -- the channel is found by its row, the frame, and its column among all the channels
    have hcolumn : totalChannels before + channel < channels := by
      have htotal := h.total
      rw [hsplit, totalChannels, List.map_append, List.map_cons, List.sum_append,
        List.sum_cons] at htotal
      rw [totalChannels]
      omega
    have hwidth : ∀ frame, (frameSamples buffers frame).length = channels := fun frame => by
      rw [length_frameSamples, h.total]
    rw [packet, getElem?_flatMap_range hwidth hframe hcolumn, getElem?_frameSamples hsplit hchannel]

end SampleBuffer.Reads

/-- Two frames of one channel and of a pair of channels. -/
def mixedBuffers : List AudioBufferData :=
  [⟨1, (List.range 8).map UInt8.ofNat, by decide⟩, ⟨2, (List.range 16).map UInt8.ofNat, by decide⟩]

def mixedSampleBuffer : SampleBuffer where
  formatDescription := some (some ⟨some 48000, kAudioFormatLinearPCM, 9, 3, 32⟩)
  numSamples := 2
  bufferList := .of mixedBuffers (by decide)

theorem mixedSampleBuffer_reads : mixedSampleBuffer.Reads 48000 3 mixedBuffers where
  format := by
    refine ⟨_, rfl, rfl, by decide, by decide, rfl, by decide, ?_, rfl⟩
    have hwhole : Int.fract (48000 : ℚ) = 0 := by
      rw [show (48000 : ℚ) = ((48000 : ℤ) : ℚ) by norm_num, Int.fract_intCast]
    have hfloor : ⌊(48000 : ℚ)⌋ = 48000 := Int.floor_ofNat 48000
    rw [sampleRate, if_neg (by rw [hwhole]; norm_num), hfloor]
    rfl
  channels_pos := by decide
  channels_lt := by decide
  frames := by decide
  list := audioBuffers_of (by decide)
  total := rfl

/-- The second frame ends with the last channel of the pair. -/
theorem audioPacket_interleaves_mixed :
    ∃ packet, audioPacket mixedSampleBuffer none ⟨0⟩ = pure packet ∧
      packet.samples[1 * 3 + (1 + 1)]? = some 0x0F0E0D0C := by
  obtain ⟨hfails, -, hsamples⟩ :=
    SampleBuffer.Reads.audioPacket_interleaves mixedSampleBuffer_reads none ⟨0⟩
  have hlong : ¬ ∃ buffer ∈ mixedBuffers,
      buffer.bytes.length < mixedSampleBuffer.frameCount * buffer.channels.toNat * 4 := by
    decide
  obtain ⟨packet, hpacket⟩ := not_not.1 (mt hfails.1 hlong)
  obtain ⟨-, -, -, -, hinterleaved⟩ := hsamples packet hpacket
  refine ⟨packet, hpacket, (hinterleaved [_] _ [] rfl 1 (by decide) 1 (by decide)).trans ?_⟩
  decide

end Blip.Sck
