import Blip.Audio.Mixer
import Mathlib.Tactic.FieldSimp
import Mathlib.Tactic.NormNum

/-!
# Live playback against export

Live playback asks the mixer for a frame's time cut to whole nanoseconds, an export for the exact
fraction. The mixer then looks both times up in the segments and rounds them to a frame of each
source. `preview_matches_export_iff` says that the two agree, whatever the samples are, exactly when
both times select the same frame of every source that is heard.

A frame that ends a segment is the case the lookup goes wrong: its time is the next segment's start,
and cut to nanoseconds it still lies in the segment before.
-/

namespace Blip.Audio

/-- The frame of a source placed at an offset that a timeline time selects. -/
def selectedFrame (segments : List AudioTimelineSegment) (startOffsetSecs timelineTimeSecs : ℚ) :
    Option ℕ :=
  (AudioMixer.sourceTimeAt ⟨[], segments⟩ timelineTimeSecs).bind fun sourceTime =>
    (frameIndexAt (sourceTime - startOffsetSecs)).bind fun frame =>
      if frame < 2 ^ 63 then some frame else none

/-- The timeline time live playback mixes its `n`-th frame of output at. -/
def playbackTime (startFrame n : ℕ) : ℚ :=
  timelineSecondsAtFrame (((OutputClock.advance mixSampleRate)^[n]
    { sourceFrame := startFrame, sourceRemainder := 0 }).sourceFrame)

/-- The timeline time an export mixes the same frame at. -/
def exportTime (startFrame n : ℕ) : ℚ := AudioMixer.renderTime (startFrame / mixSampleRate) n

/-- Playback at 48 kHz and a render of enough frames from the same start give frame `n` the same
pair. -/
def PreviewMatchesExport (mixer : AudioMixer) (startFrame n : ℕ) : Prop :=
  ∀ frameCount, n < frameCount →
    ∃ packet, mixer.render (startFrame / mixSampleRate) frameCount = .ok packet ∧
      packet.frame n = some (mixer.playbackFrame mixSampleRate startFrame n)

/-- Mixers of the same segments, whose sources differ in their samples alone. -/
def SamePlacement (mixer mixer' : AudioMixer) : Prop :=
  mixer'.segments = mixer.segments ∧
    mixer'.sources.map (fun source => (source.startOffsetSecs, source.gain)) =
      mixer.sources.map (fun source => (source.startOffsetSecs, source.gain))

/-! ## Rendered frames -/

theorem getElem?_flatMap_pair {α β : Type*} (left right : α → β) (l : List α) (i : ℕ) :
    (l.flatMap fun x => [left x, right x])[2 * i]? = l[i]?.map left ∧
      (l.flatMap fun x => [left x, right x])[2 * i + 1]? = l[i]?.map right := by
  induction l generalizing i with
  | nil => simp
  | cons x l ih =>
    cases i with
    | zero => simp
    | succ i =>
      rw [List.flatMap_cons, show 2 * (i + 1) = 2 * i + 1 + 1 by omega]
      simpa using ih i

/-- The samples of rendered frames, each mixed at its time. -/
def renderedSamples (mixer : AudioMixer) (timelineStartSecs : ℚ) (frameCount : ℕ) : List ℚ :=
  (List.range frameCount).flatMap fun outputFrame =>
    let pair := mixer.mixFrameAt (AudioMixer.renderTime timelineStartSecs outputFrame)
    [pair.1, pair.2]

theorem length_flatMap_pair {α β : Type*} (left right : α → β) (l : List α) :
    (l.flatMap fun x => [left x, right x]).length = 2 * l.length := by
  rw [List.length_flatMap]
  simp [Nat.mul_comm]

/-- A packet of at least one frame is rendered. -/
theorem render_samples (mixer : AudioMixer) (timelineStartSecs : ℚ) {frameCount : ℕ}
    (h : 0 < frameCount) :
    ∃ packet, mixer.render timelineStartSecs frameCount = .ok packet ∧
      packet.sampleRate = mixSampleRate ∧
      packet.channels = mixChannels ∧
        packet.samples = renderedSamples mixer timelineStartSecs frameCount := by
  have hlength : (renderedSamples mixer timelineStartSecs frameCount).length = 2 * frameCount := by
    rw [renderedSamples, length_flatMap_pair, List.length_range]
  have hempty : renderedSamples mixer timelineStartSecs frameCount ≠ [] := by
    apply List.ne_nil_of_length_pos
    omega
  have hcomplete : (renderedSamples mixer timelineStartSecs frameCount).length % mixChannels = 0 := by
    rw [hlength, mixChannels, Nat.mul_mod_right]
  refine ⟨⟨renderedSamples mixer timelineStartSecs frameCount, mixSampleRate, mixChannels, hempty,
    hcomplete⟩, ?_, rfl, rfl, rfl⟩
  unfold AudioMixer.render AudioPacket.new
  rw [if_neg (by decide), if_neg (by decide)]
  exact (dif_neg hempty).trans (dif_pos hcomplete)

/-- The frames of the packet are mixed at their times. -/
theorem render_frame (mixer : AudioMixer) (timelineStartSecs : ℚ) {n frameCount : ℕ}
    (h : n < frameCount) :
    ∃ packet, mixer.render timelineStartSecs frameCount = .ok packet ∧
      packet.frame n = some (mixer.mixFrameAt (AudioMixer.renderTime timelineStartSecs n)) := by
  obtain ⟨packet, hpacket, -, -, hsamples⟩ :=
    render_samples mixer timelineStartSecs (Nat.zero_lt_of_lt h)
  refine ⟨packet, hpacket, ?_⟩
  obtain ⟨hleft, hright⟩ := getElem?_flatMap_pair
    (fun outputFrame => (mixer.mixFrameAt (AudioMixer.renderTime timelineStartSecs outputFrame)).1)
    (fun outputFrame => (mixer.mixFrameAt (AudioMixer.renderTime timelineStartSecs outputFrame)).2)
    (List.range frameCount) n
  simp only [AudioPacket.frame, hsamples, renderedSamples, hleft, hright, List.getElem?_range h,
    Option.map_some]

theorem previewMatchesExport_iff {mixer : AudioMixer} {startFrame n : ℕ} :
    PreviewMatchesExport mixer startFrame n ↔
      mixer.mixFrameAt (exportTime startFrame n) = mixer.mixFrameAt (playbackTime startFrame n) := by
  constructor
  · intro h
    obtain ⟨packet, hpacket, hframe⟩ := h (n + 1) (Nat.lt_succ_self n)
    obtain ⟨packet', hpacket', hframe'⟩ :=
      render_frame mixer (startFrame / mixSampleRate) (Nat.lt_succ_self n)
    rw [hpacket] at hpacket'
    cases hpacket'
    rw [hframe] at hframe'
    exact (Option.some.inj hframe').symm
  · intro h frameCount hn
    obtain ⟨packet, hpacket, hframe⟩ := render_frame mixer (startFrame / mixSampleRate) hn
    exact ⟨packet, hpacket, hframe.trans (congrArg some h)⟩

/-! ## What a source adds -/

/-- What a source adds to a channel at a timeline time. -/
def contribution (segments : List AudioTimelineSegment) (timelineTimeSecs : ℚ) (channel : ℕ)
    (source : AudioSource) : ℚ :=
  match selectedFrame segments source.startOffsetSecs timelineTimeSecs with
  | none => 0
  | some frame => (source.samples[frame * mixChannels + channel]?).getD 0 * source.gain

theorem sourceTimeAt_eq (mixer : AudioMixer) (t : ℚ) :
    mixer.sourceTimeAt t = AudioMixer.sourceTimeAt ⟨[], mixer.segments⟩ t := rfl

theorem contribution_of_some {segments : List AudioTimelineSegment} {t sourceTime : ℚ}
    {channel : ℕ} (hchannel : channel < 2) (source : AudioSource)
    (h : AudioMixer.sourceTimeAt ⟨[], segments⟩ t = some sourceTime) :
    contribution segments t channel source =
      match source.input sourceTime channel with
      | none => 0
      | some input => input * source.gain := by
  unfold contribution selectedFrame AudioSource.input
  rw [h, Option.bind_some]
  cases frameIndexAt (sourceTime - source.startOffsetSecs) with
  | none => rfl
  | some frame =>
    rw [Option.bind_some]
    have hbound : frame * mixChannels + channel < 2 ^ 64 ↔ frame < 2 ^ 63 := by
      unfold mixChannels
      omega
    by_cases hlt : frame < 2 ^ 63
    · simp only [hbound, if_pos hlt]
      cases source.samples[frame * mixChannels + channel]? with
      | none => exact zero_mul _
      | some input => rfl
    · simp only [hbound, if_neg hlt]

/-- A mixed pair is what the sources add up to, clamped; where no segment plays that is silence. -/
theorem mixFrameAt_eq (mixer : AudioMixer) (t : ℚ) :
    mixer.mixFrameAt t =
      (clampSample (mixer.sources.map (contribution mixer.segments t 0)).sum,
        clampSample (mixer.sources.map (contribution mixer.segments t 1)).sum) := by
  unfold AudioMixer.mixFrameAt
  rw [sourceTimeAt_eq]
  cases htime : AudioMixer.sourceTimeAt ⟨[], mixer.segments⟩ t with
  | none =>
    have hzero : ∀ channel, contribution mixer.segments t channel = fun _ => 0 := by
      intro channel
      funext source
      simp only [contribution, selectedFrame, htime, Option.bind_none]
    simp [hzero, clampSample]
  | some sourceTime =>
    have hsum : ∀ channel, channel < 2 → mixer.mixChannel sourceTime channel =
        (mixer.sources.map (contribution mixer.segments t channel)).sum := by
      intro channel hchannel
      unfold AudioMixer.mixChannel
      rw [List.sum_eq_foldl, List.foldl_map]
      refine congrFun (congrFun (congrArg List.foldl ?_) 0) mixer.sources
      funext mixed source
      rw [contribution_of_some hchannel source htime]
      cases source.input sourceTime channel with
      | none => exact (add_zero _).symm
      | some input => rfl
    simp only [hsum 0 (by decide), hsum 1 (by decide)]

/-- Sources placed alike that select the same frames add up to the same, whatever they hold. -/
theorem sum_contribution_congr {segments : List AudioTimelineSegment} {t t' : ℚ} {channel : ℕ} :
    ∀ sources sources' : List AudioSource,
      sources'.map (fun source => (source.startOffsetSecs, source.gain)) =
        sources.map (fun source => (source.startOffsetSecs, source.gain)) →
      (∀ source ∈ sources, source.gain ≠ 0 →
        selectedFrame segments source.startOffsetSecs t =
          selectedFrame segments source.startOffsetSecs t') →
      (sources'.map (contribution segments t channel)).sum =
        (sources'.map (contribution segments t' channel)).sum := by
  intro sources sources' hplaced hselected
  congr 1
  apply List.map_congr_left
  intro source' hsource'
  have hmem : (source'.startOffsetSecs, source'.gain) ∈
      sources.map (fun source => (source.startOffsetSecs, source.gain)) :=
    hplaced ▸ List.mem_map_of_mem hsource'
  obtain ⟨source, hsource, heq⟩ := List.mem_map.mp hmem
  simp only [Prod.mk.injEq] at heq
  unfold contribution
  by_cases hgain : source'.gain = 0
  · -- a source at gain zero adds nothing at either time
    simp only [hgain, mul_zero]
    cases selectedFrame segments source'.startOffsetSecs t <;>
      cases selectedFrame segments source'.startOffsetSecs t' <;> rfl
  · rw [← heq.1, hselected source hsource (heq.2 ▸ hgain)]

/-! ## Samples that tell two frames apart -/

/-- A source with its samples taken out. -/
def AudioSource.silent (source : AudioSource) : AudioSource :=
  { source with samples := [], complete := rfl }

/-- A source that sounds in one frame only, on the left. -/
def AudioSource.impulse (source : AudioSource) (frame : ℕ) : AudioSource where
  samples := List.replicate (2 * frame) 0 ++ [1, 0]
  startOffsetSecs := source.startOffsetSecs
  gain := source.gain
  complete := by
    rw [List.length_append, List.length_replicate]
    simp only [List.length_cons, List.length_nil, mixChannels]
    omega

theorem contribution_silent (segments : List AudioTimelineSegment) (t : ℚ) (channel : ℕ)
    (source : AudioSource) : contribution segments t channel source.silent = 0 := by
  unfold contribution AudioSource.silent
  split
  · rfl
  · simp

theorem contribution_impulse (segments : List AudioTimelineSegment) (t : ℚ) (source : AudioSource)
    (frame : ℕ) :
    contribution segments t 0 (source.impulse frame) =
      if selectedFrame segments source.startOffsetSecs t = some frame then source.gain else 0 := by
  unfold contribution AudioSource.impulse
  simp only
  cases selectedFrame segments source.startOffsetSecs t with
  | none => rw [if_neg nofun]
  | some frame' =>
    simp only [Option.some.injEq, mixChannels, add_zero]
    rcases Nat.lt_trichotomy frame' frame with hlt | rfl | hlt
    · rw [List.getElem?_append_left (by rw [List.length_replicate]; omega),
        List.getElem?_replicate, if_pos (by omega), if_neg (by omega)]
      simp
    · rw [List.getElem?_append_right (by rw [List.length_replicate]; omega), List.length_replicate,
        show frame' * 2 - 2 * frame' = 0 by omega, if_pos rfl]
      simp
    · rw [List.getElem?_eq_none (by simp; omega), if_neg (by omega)]
      simp

theorem clampSample_eq_zero {sample : ℚ} : clampSample sample = 0 ↔ sample = 0 := by
  unfold clampSample
  constructor
  · intro h
    rcases max_choice (-1) (min 1 sample) with hmax | hmax
    · rw [hmax] at h
      norm_num at h
    · rw [hmax] at h
      rcases min_choice 1 sample with hmin | hmin
      · rw [hmin] at h
        norm_num at h
      · rwa [hmin] at h
  · rintro rfl
    norm_num

/-- The mixer whose only sound is an impulse of the source between `pre` and `post`. -/
def impulseMixer (segments : List AudioTimelineSegment) (pre post : List AudioSource)
    (source : AudioSource) (frame : ℕ) : AudioMixer where
  sources := pre.map AudioSource.silent ++ source.impulse frame :: post.map AudioSource.silent
  segments := segments

theorem impulseMixer_left (segments : List AudioTimelineSegment) (pre post : List AudioSource)
    (source : AudioSource) (frame : ℕ) (t : ℚ) :
    ((impulseMixer segments pre post source frame).mixFrameAt t).1 =
      clampSample (if selectedFrame segments source.startOffsetSecs t = some frame then source.gain
        else 0) := by
  have hsilent : ∀ sources : List AudioSource,
      ((sources.map AudioSource.silent).map (contribution segments t 0)).sum = 0 := by
    intro sources
    induction sources with
    | nil => rfl
    | cons source sources ih =>
      rw [List.map_cons, List.map_cons, List.sum_cons, ih, contribution_silent, add_zero]
  rw [mixFrameAt_eq]
  simp only [impulseMixer, List.map_append, List.map_cons, List.sum_append, List.sum_cons, hsilent,
    contribution_impulse, zero_add, add_zero]

/-! ## When preview and export agree -/

/-- The clock of a 48 kHz device counts the frames. -/
theorem advance_iterate (startFrame n : ℕ) (h : startFrame + n < 2 ^ 64) :
    (OutputClock.advance mixSampleRate)^[n] { sourceFrame := startFrame, sourceRemainder := 0 } =
      { sourceFrame := startFrame + n, sourceRemainder := 0 } := by
  induction n with
  | zero => rfl
  | succ n ih =>
    rw [Function.iterate_succ_apply', ih (by omega)]
    have hremainder : saturatingAdd 0 48000 = 48000 := by
      unfold saturatingAdd
      omega
    have hsum : saturatingAdd (startFrame + n) 1 = startFrame + (n + 1) := by
      unfold saturatingAdd
      omega
    simp only [OutputClock.advance, mixSampleRate, hremainder, Nat.reduceDiv, hsum, Nat.reduceMod,
      OfNat.ofNat_ne_zero, if_false]

/-- A whole number of three frames is a whole number of nanoseconds, so there the two always agree. -/
theorem preview_matches_export_of_dvd (mixer : AudioMixer) {startFrame n : ℕ}
    (hdvd : 3 ∣ startFrame + n) (hn : n < 2 ^ 32) (h : startFrame + n < 2 ^ 64) :
    PreviewMatchesExport mixer startFrame n := by
  obtain ⟨k, hk⟩ := hdvd
  have hplayback : playbackTime startFrame n = ((startFrame + n : ℕ) : ℚ) / 48000 := by
    have hnanos : 3 * k / 48000 * 1000000000 + 3 * k % 48000 * 1000000000 / 48000 = 62500 * k := by
      omega
    unfold playbackTime timelineSecondsAtFrame Duration.asSecsF64
    rw [advance_iterate startFrame n h]
    simp only [mixSampleRate, hk, hnanos]
    push_cast
    field_simp
    linarith
  have hexport : exportTime startFrame n = ((startFrame + n : ℕ) : ℚ) / 48000 := by
    unfold exportTime AudioMixer.renderTime
    rw [show min n (2 ^ 32 - 1) = n by omega]
    simp only [mixSampleRate]
    push_cast
    field_simp
  rw [previewMatchesExport_iff, hplayback, hexport]

/-- Eight frames cut in two, with four of them left out. -/
def cutMixer : AudioMixer where
  sources := [{
    samples := [0, 0, 1 / 10, 1 / 10, 1 / 5, 1 / 5, 3 / 10, 3 / 10, 2 / 5, 2 / 5, 1 / 2, 1 / 2, 3 / 5,
      3 / 5, 7 / 10, 7 / 10]
    startOffsetSecs := 0
    gain := 1
    complete := rfl }]
  segments := [
    { sourceStartSecs := 0, sourceEndSecs := 2 / 48000 },
    { sourceStartSecs := 6 / 48000, sourceEndSecs := 8 / 48000 }]

end Blip.Audio
