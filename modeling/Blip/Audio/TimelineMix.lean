import Blip.Audio.PreviewExport

/-!
# The mix of a timeline

When the segments and the sources begin and end on frames, a render from the start is what one expects:
the segments one after another, each the sum of its slices of the sources. `render` finds every frame
again by its time, through whole nanoseconds; that it never takes the frame beside it is a matter of
rounding errors.
-/

namespace Blip.Audio

/-! ## Frames -/

/-- A time at which a frame begins. -/
def OnFrame (secs : ℚ) : Prop := ∃ frame : ℤ, secs = frame / mixSampleRate

/-- The frame that begins at a time, or before it. -/
def wholeFrames (secs : ℚ) : ℤ := ⌊secs * mixSampleRate⌋

theorem wholeFrames_div (frame : ℤ) : wholeFrames (frame / mixSampleRate) = frame := by
  rw [wholeFrames, div_mul_cancel₀ _ (by norm_num [mixSampleRate]), Int.floor_intCast]

/-- A mixer whose segments and sources are on frames; a source is no longer than a slice can be. -/
structure AudioMixer.OnFrames (mixer : AudioMixer) : Prop where
  segments : ∀ segment ∈ mixer.segments, OnFrame segment.sourceStartSecs ∧ OnFrame segment.sourceEndSecs
  sources : ∀ source ∈ mixer.sources, OnFrame source.startOffsetSecs ∧ source.samples.length < 2 ^ 63

/-! ## The plain mix -/

/-- The sample of a source at a frame of the recording, silence where it has none. -/
def AudioSource.sampleAt (source : AudioSource) (sourceFrame : ℤ) (channel : ℕ) : ℚ :=
  let frame := sourceFrame - wholeFrames source.startOffsetSecs
  if 0 ≤ frame then (source.samples[frame.toNat * mixChannels + channel]?).getD 0 else 0

/-- How many frames a segment has; a reversed one has none. -/
def AudioTimelineSegment.frameCount (segment : AudioTimelineSegment) : ℕ :=
  (wholeFrames segment.sourceEndSecs - wholeFrames segment.sourceStartSecs).toNat

/-- The frames of the recording that a segment plays. -/
def AudioTimelineSegment.sourceFrames (segment : AudioTimelineSegment) : List ℤ :=
  (List.range segment.frameCount).map fun index => wholeFrames segment.sourceStartSecs + (index : ℕ)

namespace AudioMixer

variable (mixer : AudioMixer)

/-- What the sources add up to at a frame of the recording, clamped. -/
def mixedSample (sourceFrame : ℤ) (channel : ℕ) : ℚ :=
  clampSample (mixer.sources.map fun source => source.gain * source.sampleAt sourceFrame channel).sum

/-- The sum of the slices of a segment. -/
def segmentMix (segment : AudioTimelineSegment) : List ℚ :=
  segment.sourceFrames.flatMap fun frame => [mixer.mixedSample frame 0, mixer.mixedSample frame 1]

/-- The segments one after another. -/
def concatenatedMix : List ℚ := mixer.segments.flatMap mixer.segmentMix

/-- The frames of the timeline. -/
def totalFrames : ℕ := (mixer.segments.map AudioTimelineSegment.frameCount).sum

end AudioMixer

/-! ## From times to frames -/

/-- The time of a frame in nanoseconds is rounded by less than what takes it to another frame. -/
theorem nanos_to_frame (frame : ℕ) :
    (Duration.roundHalfEven ((frame : ℚ) / mixSampleRate * 1000000000) * mixSampleRate + 500000000) /
      1000000000 = frame := by
  have herror := Duration.roundHalfEven_error
    (show 0 ≤ (frame : ℚ) / mixSampleRate * 1000000000 by positivity)
  generalize Duration.roundHalfEven ((frame : ℚ) / mixSampleRate * 1000000000) = nanos at herror ⊢
  simp only [mixSampleRate] at herror ⊢
  -- half a nanosecond is 24000 of the units in which a frame has a billion
  rw [abs_le] at herror
  have hlow : (frame * 1000000000 : ℚ) ≤ nanos * 48000 + 24000 := by
    push_cast at herror
    linarith [herror.1]
  have hhigh : (nanos * 48000 : ℚ) ≤ frame * 1000000000 + 24000 := by
    push_cast at herror
    linarith [herror.2]
  have hlow : frame * 1000000000 ≤ nanos * 48000 + 24000 := by exact_mod_cast hlow
  have hhigh : nanos * 48000 ≤ frame * 1000000000 + 24000 := by exact_mod_cast hhigh
  omega

/-- The time of a frame selects that frame, or none when it is beyond what a slice can hold. -/
theorem frameIndexAt_frame (frame : ℕ) : frameIndexAt (frame / mixSampleRate) = some frame ∨
    2 ^ 63 ≤ frame ∧ frameIndexAt (frame / mixSampleRate) = none := by
  have hpos : ¬ (frame : ℚ) / mixSampleRate < 0 := not_lt.mpr (by positivity)
  have hframe := nanos_to_frame frame
  simp only [frameIndexAt, Duration.tryFromSecsF64, if_neg hpos]
  generalize Duration.roundHalfEven ((frame : ℚ) / mixSampleRate * 1000000000) = nanos at hframe ⊢
  by_cases hnanos : nanos < 2 ^ 64 * 1000000000
  · simp only [if_pos hnanos, hframe]
    split_ifs with hsmall
    · exact .inl rfl
    · exact .inr ⟨by omega, rfl⟩
  · rw [if_neg hnanos]
    refine .inr ⟨?_, rfl⟩
    rw [mixSampleRate] at hframe
    omega

/-- Before a source begins, no frame is selected. -/
theorem frameIndexAt_neg {secs : ℚ} (h : secs < 0) : frameIndexAt secs = none := by
  rw [frameIndexAt, Duration.tryFromSecsF64, if_pos h]

theorem selectedFrame_frame {segments : List AudioTimelineSegment} {startOffsetSecs t : ℚ} {frame : ℤ}
    (h : (AudioMixer.sourceTimeAt ⟨[], segments⟩ t) = some (frame / mixSampleRate + startOffsetSecs)) :
    selectedFrame segments startOffsetSecs t =
      if 0 ≤ frame ∧ frame < 2 ^ 63 then some frame.toNat else none := by
  have hrate : (0 : ℚ) < mixSampleRate := by norm_num [mixSampleRate]
  rw [selectedFrame, h, Option.bind_some, add_sub_cancel_right]
  rcases lt_or_ge frame 0 with hneg | hpos
  · have hsecs : (frame / mixSampleRate : ℚ) < 0 := div_neg_of_neg_of_pos (by exact_mod_cast hneg) hrate
    rw [frameIndexAt_neg hsecs, if_neg (fun h => hneg.not_ge h.1)]
    rfl
  · obtain ⟨index, rfl⟩ := Int.eq_ofNat_of_zero_le hpos
    rw [Int.toNat_natCast]
    rcases frameIndexAt_frame index with hsome | ⟨hlarge, hnone⟩
    · rw [Int.cast_natCast, hsome, Option.bind_some]
      split_ifs with hsmall hframe hframe
      · rfl
      · omega
      · omega
      · rfl
    · rw [Int.cast_natCast, hnone, if_neg (by omega)]
      rfl

/-- A source adds its sample at the frame of the recording that is played. -/
theorem contribution_frame {segments : List AudioTimelineSegment} {source : AudioSource} {t : ℚ}
    {sourceFrame : ℤ} {channel : ℕ}
    (h : AudioMixer.sourceTimeAt ⟨[], segments⟩ t = some ((sourceFrame : ℚ) / mixSampleRate))
    (hoffset : OnFrame source.startOffsetSecs) (hshort : source.samples.length < 2 ^ 63) :
    contribution segments t channel source = source.gain * source.sampleAt sourceFrame channel := by
  obtain ⟨offset, hoffset⟩ := hoffset
  have htime : AudioMixer.sourceTimeAt ⟨[], segments⟩ t =
      some ((sourceFrame - offset : ℤ) / mixSampleRate + source.startOffsetSecs) := by
    rw [h, hoffset, ← add_div, ← Int.cast_add, sub_add_cancel]
  have hwhole : wholeFrames source.startOffsetSecs = offset := by
    rw [hoffset, wholeFrames_div]
  rw [contribution, selectedFrame_frame htime, AudioSource.sampleAt, hwhole]
  by_cases hpos : 0 ≤ sourceFrame - offset
  · rw [if_pos hpos]
    by_cases hsmall : sourceFrame - offset < 2 ^ 63
    · rw [if_pos ⟨hpos, hsmall⟩]
      exact mul_comm _ _
    · -- beyond what a slice can hold there is no sample either
      have hnone : source.samples[(sourceFrame - offset).toNat * mixChannels + channel]? = none := by
        rw [List.getElem?_eq_none_iff, mixChannels]
        omega
      rw [if_neg (fun h => hsmall h.2), hnone, Option.getD_none, mul_zero]
  · rw [if_neg hpos, if_neg (fun h => hpos h.1), mul_zero]

/-! ## The walk over the segments -/

theorem durationSecs_frames {segment : AudioTimelineSegment} (hstart : OnFrame segment.sourceStartSecs)
    (hend : OnFrame segment.sourceEndSecs) :
    segment.durationSecs = segment.frameCount / mixSampleRate := by
  obtain ⟨first, hfirst⟩ := hstart
  obtain ⟨last, hlast⟩ := hend
  have hrate : (0 : ℚ) < mixSampleRate := by norm_num [mixSampleRate]
  have hcount : (((last - first).toNat : ℕ) : ℚ) = max ((last : ℚ) - first) 0 := by
    have hmax : (((last - first).toNat : ℕ) : ℤ) = max (last - first) 0 := Int.toNat_eq_max _
    exact_mod_cast hmax
  rw [AudioTimelineSegment.durationSecs, AudioTimelineSegment.frameCount, hfirst, hlast, wholeFrames_div,
    wholeFrames_div, hcount, ← sub_div]
  have hmax := max_div_div_right hrate.le ((last : ℚ) - first) 0
  rwa [zero_div] at hmax

/-- The walk finds, at the time of a frame of the timeline, the frame of the recording that it plays. -/
theorem sourceTimeFrom_frame {segments : List AudioTimelineSegment}
    (h : ∀ segment ∈ segments, OnFrame segment.sourceStartSecs ∧ OnFrame segment.sourceEndSecs)
    (start index : ℕ) :
    AudioMixer.sourceTimeFrom ((start + index : ℕ) / mixSampleRate) (start / mixSampleRate) segments =
      (segments.flatMap AudioTimelineSegment.sourceFrames)[index]?.map fun frame : ℤ =>
        (frame / mixSampleRate : ℚ) := by
  induction segments generalizing start index with
  | nil => rfl
  | cons segment segments ih =>
    obtain ⟨hstart, hend⟩ := h segment (List.mem_cons_self ..)
    have hrate : (0 : ℚ) < mixSampleRate := by norm_num [mixSampleRate]
    have hlength : segment.sourceFrames.length = segment.frameCount := by
      rw [AudioTimelineSegment.sourceFrames, List.length_map, List.length_range]
    rw [AudioMixer.sourceTimeFrom, durationSecs_frames hstart hend, ← add_div, ← Nat.cast_add,
      List.flatMap_cons]
    -- the walk stops at a segment whose end is after the time, here the end of a frame
    have hbefore : ((start + index : ℕ) / mixSampleRate : ℚ) <
      (start + segment.frameCount : ℕ) / mixSampleRate ↔
        index < segment.frameCount := by
      rw [div_lt_div_iff_of_pos_right hrate, Nat.cast_lt]
      omega
    by_cases hindex : index < segment.frameCount
    · obtain ⟨first, hfirst⟩ := hstart
      rw [if_pos (hbefore.mpr hindex), List.getElem?_append_left (by rwa [hlength]),
        AudioTimelineSegment.sourceFrames, List.getElem?_map, List.getElem?_range hindex,
          Option.map_some,
        Option.map_some, hfirst, wholeFrames_div]
      congr 1
      push_cast
      ring
    · have hrest : start + index = start + segment.frameCount + (index - segment.frameCount) := by omega
      rw [if_neg (fun h => hindex (hbefore.mp h)),
        List.getElem?_append_right (by rw [hlength]; omega), hlength, hrest]
      exact ih (fun segment hsegment => h segment (List.mem_cons_of_mem _ hsegment)) _ _

/-! ## The whole timeline -/

namespace AudioMixer

variable {mixer : AudioMixer}

/-- The frames of the recording that the timeline plays. -/
def playedFrames (mixer : AudioMixer) : List ℤ :=
  mixer.segments.flatMap AudioTimelineSegment.sourceFrames

theorem length_playedFrames (mixer : AudioMixer) : mixer.playedFrames.length = mixer.totalFrames := by
  rw [playedFrames, List.length_flatMap, totalFrames]
  congr 1
  refine List.map_congr_left fun segment _ => ?_
  rw [AudioTimelineSegment.sourceFrames, List.length_map, List.length_range]

theorem concatenatedMix_eq (mixer : AudioMixer) : mixer.concatenatedMix =
    mixer.playedFrames.flatMap fun frame => [mixer.mixedSample frame 0, mixer.mixedSample frame 1] := by
  rw [concatenatedMix, playedFrames, List.flatMap_assoc]
  rfl

theorem OnFrames.durationSecs (h : mixer.OnFrames) :
    mixer.durationSecs = mixer.totalFrames / mixSampleRate := by
  rw [AudioMixer.durationSecs, totalFrames]
  have hsegments := h.segments
  generalize mixer.segments = segments at hsegments
  induction segments with
  | nil => exact (zero_div _).symm
  | cons segment segments ih =>
    obtain ⟨hstart, hend⟩ := hsegments segment (List.mem_cons_self ..)
    rw [List.map_cons, List.sum_cons, List.map_cons, List.sum_cons, Nat.cast_add, add_div,
      durationSecs_frames hstart hend, ih fun segment hsegment => hsegments segment
        (List.mem_cons_of_mem _ hsegment)]

/-- A frame of the timeline is mixed from the frame of the recording that it plays. -/
theorem OnFrames.mixFrameAt (h : mixer.OnFrames) {index : ℕ} {frame : ℤ}
    (hframe : mixer.playedFrames[index]? = some frame) : mixer.mixFrameAt (index / mixSampleRate) =
      (mixer.mixedSample frame 0, mixer.mixedSample frame 1) := by
  have htime : sourceTimeAt ⟨[], mixer.segments⟩ (index / mixSampleRate) =
      some ((frame : ℚ) / mixSampleRate) := by
    have hwalk := sourceTimeFrom_frame h.segments 0 index
    rw [Nat.zero_add, Nat.cast_zero, zero_div] at hwalk
    rw [sourceTimeAt, if_neg (not_lt.mpr (by positivity)), hwalk]
    exact congrArg (Option.map _) hframe
  have hsum : ∀ channel,
      mixer.sources.map (contribution mixer.segments (index / mixSampleRate) channel) =
      mixer.sources.map fun source => source.gain * source.sampleAt frame channel := by
    intro channel
    refine List.map_congr_left fun source hsource => ?_
    obtain ⟨hoffset, hshort⟩ := h.sources source hsource
    exact contribution_frame htime hoffset hshort
  rw [mixFrameAt_eq, hsum, hsum]
  rfl

/-- As far as the index of a frame is a `u32`, the plain mix is rendered. -/
theorem OnFrames.getElem?_renderedSamples (h : mixer.OnFrames) {index : ℕ} (hindex : index < 2 ^ 33) :
    (renderedSamples mixer 0 mixer.totalFrames)[index]? = mixer.concatenatedMix[index]? := by
  have hpair : ∀ frame < 2 ^ 32, (List.range mixer.totalFrames)[frame]?.map
      (fun frame => mixer.mixFrameAt (renderTime 0 frame)) = mixer.playedFrames[frame]?.map fun frame =>
        (mixer.mixedSample frame 0, mixer.mixedSample frame 1) := by
    intro frame hframe
    by_cases hlt : frame < mixer.totalFrames
    · have hplayed := List.getElem?_eq_getElem (hlt.trans_eq (length_playedFrames mixer).symm)
      have htime : renderTime 0 frame = frame / mixSampleRate := by
        rw [renderTime, zero_add, min_eq_left (by omega)]
      rw [List.getElem?_range hlt, Option.map_some, htime, h.mixFrameAt hplayed, hplayed,
        Option.map_some]
    · rw [List.getElem?_eq_none (by rwa [List.length_range, ← not_lt]),
        List.getElem?_eq_none (by rwa [length_playedFrames, ← not_lt])]
      rfl
  obtain ⟨hleft, hright⟩ := getElem?_flatMap_pair
    (fun frame => (mixer.mixFrameAt (renderTime 0 frame)).1)
    (fun frame => (mixer.mixFrameAt (renderTime 0 frame)).2) (List.range mixer.totalFrames) (index / 2)
  obtain ⟨hleft', hright'⟩ := getElem?_flatMap_pair (fun frame => mixer.mixedSample frame 0)
    (fun frame => mixer.mixedSample frame 1) mixer.playedFrames (index / 2)
  have hpair := hpair (index / 2) (by omega)
  rw [concatenatedMix_eq, renderedSamples]
  -- the samples alternate between the two channels of a frame
  rcases Nat.mod_two_eq_zero_or_one index with hparity | hparity
  · rw [show index = 2 * (index / 2) by omega]
    have hfirst := congrArg (Option.map Prod.fst) hpair
    rw [Option.map_map, Option.map_map] at hfirst
    exact hleft.trans (hfirst.trans hleft'.symm)
  · rw [show index = 2 * (index / 2) + 1 by omega]
    have hsecond := congrArg (Option.map Prod.snd) hpair
    rw [Option.map_map, Option.map_map] at hsecond
    exact hright.trans (hsecond.trans hright'.symm)

end AudioMixer

/-- A mixer on frames renders the plain mix of its timeline when that has at least one frame and at most
2^32, and nothing when it has none. Of a longer one, it renders the first 2^32 frames so. The time of
each frame selects that frame. -/
theorem render_concatenates {mixer : AudioMixer} (h : mixer.OnFrames) :
    mixer.durationSecs = mixer.totalFrames / mixSampleRate ∧
      (mixer.totalFrames = 0 → mixer.render 0 mixer.totalFrames = .error .empty) ∧
      (0 < mixer.totalFrames → ∃ packet, mixer.render 0 mixer.totalFrames = .ok packet ∧
        packet.sampleRate = mixSampleRate ∧ packet.channels = mixChannels ∧
          packet.samples.length = mixer.concatenatedMix.length ∧
          (mixer.totalFrames ≤ 2 ^ 32 → packet.samples = mixer.concatenatedMix) ∧
            ∀ index < 2 ^ 33, packet.samples[index]? = mixer.concatenatedMix[index]?) ∧
      ∀ frame : ℤ, frame < 2 ^ 63 →
        frameIndexAt (frame / mixSampleRate) = if 0 ≤ frame then some frame.toNat else none := by
  refine ⟨h.durationSecs, fun hzero => ?_, fun hpos => ?_, fun frame hframe => ?_⟩
  · rw [hzero]
    rfl
  · obtain ⟨packet, hpacket, hrate, hchannels, hsamples⟩ := render_samples mixer 0 hpos
    have hlength : packet.samples.length = mixer.concatenatedMix.length := by
      rw [hsamples, renderedSamples, length_flatMap_pair, List.length_range,
        AudioMixer.concatenatedMix_eq, length_flatMap_pair, AudioMixer.length_playedFrames]
    have hshort : ∀ index < 2 ^ 33, packet.samples[index]? = mixer.concatenatedMix[index]? := by
      intro index hindex
      rw [hsamples]
      exact h.getElem?_renderedSamples hindex
    refine ⟨packet, hpacket, hrate, hchannels, hlength, fun hsmall => ?_, hshort⟩
    have htotal : mixer.concatenatedMix.length = 2 * mixer.totalFrames := by
      rw [AudioMixer.concatenatedMix_eq, length_flatMap_pair, AudioMixer.length_playedFrames]
    refine List.ext_getElem? fun index => ?_
    rcases lt_or_ge index (2 ^ 33) with hindex | hindex
    · exact hshort index hindex
    · rw [List.getElem?_eq_none (by omega), List.getElem?_eq_none (by omega)]
  · rcases lt_or_ge frame 0 with hneg | hpos
    · rw [if_neg hneg.not_ge]
      exact frameIndexAt_neg (div_neg_of_neg_of_pos (by exact_mod_cast hneg)
        (by norm_num [mixSampleRate]))
    · obtain ⟨index, rfl⟩ := Int.eq_ofNat_of_zero_le hpos
      rw [if_pos hpos, Int.toNat_natCast, Int.cast_natCast]
      exact (frameIndexAt_frame index).resolve_right fun h => by omega

theorem onFrames_cutMixer : cutMixer.OnFrames := by
  constructor
  · intro segment hsegment
    rcases List.mem_pair.mp hsegment with rfl | rfl
    · exact ⟨⟨0, by norm_num⟩, ⟨2, by norm_num [mixSampleRate]⟩⟩
    · exact ⟨⟨6, by norm_num [mixSampleRate]⟩, ⟨8, by norm_num [mixSampleRate]⟩⟩
  · intro source hsource
    rw [List.mem_singleton.mp hsource]
    exact ⟨⟨0, by norm_num⟩, by decide⟩

theorem render_concatenates_cut : ∃ packet, cutMixer.render 0 cutMixer.totalFrames = .ok packet ∧
    packet.samples = [0, 0, 1 / 10, 1 / 10, 3 / 5, 3 / 5, 7 / 10, 7 / 10] := by
  obtain ⟨-, -, hrender, -⟩ := render_concatenates onFrames_cutMixer
  obtain ⟨packet, hpacket, -, -, -, hsamples, -⟩ := hrender (by decide +kernel)
  refine ⟨packet, hpacket, (hsamples (by decide +kernel)).trans ?_⟩
  decide +kernel

/-- A timeline of a day and a bit, with a sound in its last frame. -/
def longMixer : AudioMixer where
  sources := [{
    samples := [1, 1]
    startOffsetSecs := 2 ^ 32 / 48000
    gain := 1
    complete := rfl }]
  segments := [
    { sourceStartSecs := 0, sourceEndSecs := (2 ^ 32 + 1) / 48000 }]

theorem onFrames_longMixer : longMixer.OnFrames := by
  constructor
  · intro segment hsegment
    rw [List.mem_singleton.mp hsegment]
    exact ⟨⟨0, by norm_num⟩, ⟨2 ^ 32 + 1, by norm_num [mixSampleRate]⟩⟩
  · intro source hsource
    rw [List.mem_singleton.mp hsource]
    exact ⟨⟨2 ^ 32, by norm_num [mixSampleRate]⟩, by decide⟩

/-- A timeline with no frame is not rendered, and of one with too many the last frame is not the
plain mix. -/
theorem plain_mix_not_rendered :
    ((⟨[], []⟩ : AudioMixer).OnFrames ∧ AudioMixer.concatenatedMix ⟨[], []⟩ = [] ∧
      AudioMixer.render ⟨[], []⟩ 0 (AudioMixer.totalFrames ⟨[], []⟩) = .error .empty) ∧
    (longMixer.OnFrames ∧ ∃ packet, longMixer.render 0 longMixer.totalFrames = .ok packet ∧
      packet.samples ≠ longMixer.concatenatedMix) := by
  have hnone : (⟨[], []⟩ : AudioMixer).OnFrames :=
    ⟨fun segment h => absurd h List.not_mem_nil, fun source h => absurd h List.not_mem_nil⟩
  refine ⟨⟨hnone, rfl, rfl⟩, onFrames_longMixer, ?_⟩
  have htotal : longMixer.totalFrames = 2 ^ 32 + 1 := by decide +kernel
  have hrendered : longMixer.mixFrameAt (AudioMixer.renderTime 0 (2 ^ 32)) = (0, 0) := by decide +kernel
  obtain ⟨packet, hpacket, -, -, hsamples⟩ :=
    render_samples longMixer 0 (show 0 < longMixer.totalFrames by omega)
  refine ⟨packet, hpacket, fun heq => ?_⟩
  have hplayed : longMixer.playedFrames[2 ^ 32]? = some (2 ^ 32) := by
    have hcount : (⟨0, (2 ^ 32 + 1) / 48000⟩ : AudioTimelineSegment).frameCount = 2 ^ 32 + 1 := by
      decide +kernel
    rw [AudioMixer.playedFrames, longMixer, List.flatMap_singleton,
      AudioTimelineSegment.sourceFrames, hcount,
      List.getElem?_map, List.getElem?_range (Nat.lt_succ_self _), Option.map_some]
    decide +kernel
  have hleft := (getElem?_flatMap_pair
    (fun frame => (longMixer.mixFrameAt (AudioMixer.renderTime 0 frame)).1)
    (fun frame => (longMixer.mixFrameAt (AudioMixer.renderTime 0 frame)).2)
    (List.range longMixer.totalFrames) (2 ^ 32)).1
  have hleft' := (getElem?_flatMap_pair (fun frame => longMixer.mixedSample frame 0)
    (fun frame => longMixer.mixedSample frame 1) longMixer.playedFrames (2 ^ 32)).1
  rw [List.getElem?_range (by omega), Option.map_some, hrendered] at hleft
  rw [hplayed, Option.map_some, ← AudioMixer.concatenatedMix_eq, ← heq, hsamples] at hleft'
  have hsample := Option.some.inj (hleft.symm.trans hleft')
  revert hsample
  decide +kernel

end Blip.Audio
