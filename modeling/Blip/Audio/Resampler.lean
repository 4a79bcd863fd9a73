import Blip.Audio.Mixer
import Blip.Common.Chunks

/-!
# The playback resampler

The callback of an output stream (`build_output_stream`) fills the device's buffers. For every frame of
output the timeline position moves on by 48000 / rate frames: what does not make a whole frame is left in
the remainder, for the next frame of this buffer or of the next one.
-/

namespace Blip.Audio

/-- The sample of a mixed frame that a channel of the device plays. -/
def channelSample (outputChannels : ℕ) (frame : ℚ × ℚ) (channel : ℕ) : ℚ :=
  if outputChannels = 1 then (frame.1 + frame.2) * (1 / 2)
  else if channel % 2 = 0 then frame.1
  else frame.2

namespace AudioMixer

/-- The loop of the callback over the frames of a buffer: the counters after it, and what is played. -/
def fillFrames (mixer : AudioMixer) (outputRate outputChannels : ℕ) :
    OutputClock → List (List ℚ) → OutputClock × List ℚ
  | clock, [] => (clock, [])
  | clock, outputFrame :: outputFrames =>
    let mixed := mixer.mixFrameAt (timelineSecondsAtFrame clock.sourceFrame)
    let rest := fillFrames mixer outputRate outputChannels (clock.advance outputRate) outputFrames
    (rest.1, (outputFrame.mapIdx fun channel _ => channelSample outputChannels mixed channel) ++ rest.2)

/-- The callback for one buffer. -/
def fillBuffer (mixer : AudioMixer) (outputRate outputChannels : ℕ) (clock : OutputClock)
    (output : List ℚ) : OutputClock × List ℚ :=
  mixer.fillFrames outputRate outputChannels clock (chunks outputChannels output)

/-- The callbacks of a stream, from the counters it starts with. -/
def fillBuffers (mixer : AudioMixer) (outputRate outputChannels : ℕ) (clock : OutputClock)
    (outputs : List (List ℚ)) : OutputClock :=
  outputs.foldl (fun clock output => (mixer.fillBuffer outputRate outputChannels clock output).1) clock

end AudioMixer

/-- The frames of a buffer. -/
def outputFrames (outputChannels : ℕ) (output : List ℚ) : ℕ := (chunks outputChannels output).length

/-- A buffer of whole frames. -/
theorem outputFrames_mul {outputChannels : ℕ} {output : List ℚ}
    (h : outputChannels ∣ output.length) (hchannels : 0 < outputChannels) :
    outputFrames outputChannels output * outputChannels = output.length := by
  rw [outputFrames]
  induction output using chunks_induction hchannels with
  | nil => simp
  | cons output hsome ih =>
    have hlong : outputChannels ≤ output.length := Nat.le_of_dvd (List.length_pos_iff.2 hsome) h
    have hrest : outputChannels ∣ (output.drop outputChannels).length := by
      rw [List.length_drop]
      exact Nat.dvd_sub h (dvd_refl _)
    rw [chunks_of_ne_nil hchannels hsome, List.length_cons, Nat.succ_mul, ih hrest, List.length_drop]
    omega

/-! ## The counters -/

theorem fillFrames_clock (mixer : AudioMixer) (outputRate outputChannels : ℕ) (clock : OutputClock)
    (frames : List (List ℚ)) : (mixer.fillFrames outputRate outputChannels clock frames).1 =
      (OutputClock.advance outputRate)^[frames.length] clock := by
  induction frames generalizing clock with
  | nil => rfl
  | cons frame frames ih => exact ih (clock.advance outputRate)

theorem fillBuffers_clock (mixer : AudioMixer) (outputRate outputChannels : ℕ) (clock : OutputClock)
    (outputs : List (List ℚ)) : mixer.fillBuffers outputRate outputChannels clock outputs =
      (OutputClock.advance outputRate)^[(outputs.map (outputFrames outputChannels)).sum] clock := by
  induction outputs generalizing clock with
  | nil => rfl
  | cons output outputs ih =>
    rw [AudioMixer.fillBuffers, List.foldl_cons, ← AudioMixer.fillBuffers, ih,
      AudioMixer.fillBuffer, fillFrames_clock, List.map_cons, List.sum_cons, Nat.add_comm,
      Function.iterate_add_apply]
    rfl

/-- The counters after some frames: the remainder never reaches the rate, so it does not saturate. -/
theorem advance_iterate_eq {outputRate startFrame : ℕ} (hrate : 0 < outputRate)
    (hsmall : outputRate < 2 ^ 32) (hstart : startFrame < 2 ^ 64) (n : ℕ) :
    (OutputClock.advance outputRate)^[n] { sourceFrame := startFrame, sourceRemainder := 0 } =
      { sourceFrame := min (startFrame + n * mixSampleRate / outputRate) (2 ^ 64 - 1)
        sourceRemainder := n * mixSampleRate % outputRate } := by
  induction n with
  | zero =>
    rw [Function.iterate_zero_apply, Nat.zero_mul, Nat.zero_div, Nat.zero_mod, Nat.add_zero,
      min_eq_left (by omega)]
  | succ n ih =>
    have hremainder : n * mixSampleRate % outputRate < outputRate := Nat.mod_lt _ hrate
    have hunsaturated : saturatingAdd (n * mixSampleRate % outputRate) mixSampleRate =
        n * mixSampleRate % outputRate + mixSampleRate := by
      rw [saturatingAdd, mixSampleRate]
      rw [mixSampleRate] at hremainder
      omega
    have hsplit : (n + 1) * mixSampleRate = outputRate * (n * mixSampleRate / outputRate) +
        (n * mixSampleRate % outputRate + mixSampleRate) := by
      rw [← Nat.add_assoc, Nat.div_add_mod, Nat.succ_mul]
    rw [Function.iterate_succ_apply', ih, OutputClock.advance]
    dsimp only
    rw [hunsaturated, if_neg (Nat.pos_iff_ne_zero.1 hrate), hsplit, Nat.mul_add_div hrate,
      Nat.mul_add_mod]
    have hsaturated : ∀ frame whole rest : ℕ,
        saturatingAdd (min (frame + whole) (2 ^ 64 - 1)) rest =
          min (frame + (whole + rest)) (2 ^ 64 - 1) := by
      intro frame whole rest
      rw [saturatingAdd]
      omega
    rw [hsaturated]

/-- After `n` frames of output, in whatever buffers, the position is the start and the whole frames of
`n * 48000 / rate`, with the rest of the division as the remainder, until the position saturates. It is
behind real time by less than a frame, and buffers of whole frames are as good as one. -/
theorem resampler_position (mixer : AudioMixer) {outputRate : UInt32} (hrate : 0 < outputRate.toNat)
    (outputChannels : ℕ) (startFrame : UInt64) (outputs : List (List ℚ)) :
    let n := (outputs.map (outputFrames outputChannels)).sum
    let clock := mixer.fillBuffers outputRate.toNat outputChannels
      { sourceFrame := startFrame.toNat, sourceRemainder := 0 } outputs
    clock.sourceFrame =
        min (startFrame.toNat + n * 48000 / outputRate.toNat) (2 ^ 64 - 1) ∧
      clock.sourceRemainder = n * 48000 % outputRate.toNat ∧
      (startFrame.toNat + n * 48000 / outputRate.toNat < 2 ^ 64 →
        (clock.sourceFrame : ℚ) ≤ startFrame.toNat + n * 48000 / outputRate.toNat ∧
          startFrame.toNat + n * 48000 / outputRate.toNat < (clock.sourceFrame : ℚ) + 1) ∧
      (0 < outputChannels → (∀ output ∈ outputs, outputChannels ∣ output.length) →
        n * outputChannels = outputs.flatten.length) := by
  intro n clock
  have hclock : clock = { sourceFrame := _, sourceRemainder := _ } :=
    (fillBuffers_clock mixer outputRate.toNat outputChannels _ outputs).trans
      (advance_iterate_eq hrate outputRate.toNat_lt startFrame.toNat_lt n)
  have hframe : clock.sourceFrame =
      min (startFrame.toNat + n * 48000 / outputRate.toNat) (2 ^ 64 - 1) :=
    congrArg OutputClock.sourceFrame hclock
  refine ⟨hframe, congrArg OutputClock.sourceRemainder hclock, fun hrange => ?_,
    fun hchannels hwhole => ?_⟩
  · rw [min_eq_left (by omega)] at hframe
    have hratePos : (0 : ℚ) < outputRate.toNat := by exact_mod_cast hrate
    rw [hframe]
    push_cast
    constructor
    · refine add_le_add_right ?_ _
      rw [le_div_iff₀ hratePos]
      exact_mod_cast Nat.div_mul_le_self (n * 48000) outputRate.toNat
    · rw [add_assoc]
      refine add_lt_add_right ?_ _
      rw [div_lt_iff₀ hratePos]
      have hlt : n * 48000 < (n * 48000 / outputRate.toNat + 1) * outputRate.toNat := by
        rw [Nat.mul_comm (_ + 1)]
        exact Nat.lt_mul_div_succ _ hrate
      exact_mod_cast hlt
  · rw [List.length_flatten, show n = (outputs.map (outputFrames outputChannels)).sum from rfl]
    clear_value clock
    clear hclock hframe
    induction outputs with
    | nil => simp
    | cons output outputs ih =>
      have houtput := outputFrames_mul (hwhole output List.mem_cons_self) hchannels
      have hrest := ih fun other hother => hwhole other (List.mem_cons_of_mem _ hother)
      rw [List.map_cons, List.sum_cons, List.map_cons, List.sum_cons, Nat.add_mul, houtput, hrest]

/-- Three frames at 44.1 kHz, in a buffer of one and a buffer of two. -/
theorem resampler_position_two_buffers :
    (AudioMixer.fillBuffers ⟨[], []⟩ 44100 2 { sourceFrame := 7, sourceRemainder := 0 }
      [[0, 0], [0, 0, 0, 0]]).sourceFrame = 10 := by
  obtain ⟨hframe, -, -, hwhole⟩ :=
    @resampler_position ⟨[], []⟩ 44100 (by decide) 2 7 [[0, 0], [0, 0, 0, 0]]
  have hframes := hwhole (by decide) (by simp)
  simp only [List.flatten_cons, List.length_append, List.length_cons, List.length_nil] at hframes
  refine hframe.trans ?_
  rw [show (List.map (outputFrames 2) [[0, 0], [0, 0, 0, 0]]).sum = 3 from
    Nat.eq_of_mul_eq_mul_right two_pos hframes]
  rfl

end Blip.Audio
