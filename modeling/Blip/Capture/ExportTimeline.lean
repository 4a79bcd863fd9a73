import Blip.Audio.PreviewExport
import Blip.Capture.SegmentTimeMap

/-!
# The frames and packets of an export

The loops of `render_export`: a frame of video for every frame time before the end of the timeline, then
packets of mixed audio one after the other. A frame or packet is offered to the writer until it is
accepted. What decodes and composes a frame, and the writer, are parameters.

The packets put together are one render of the timeline, as long as it has no more than `2 ^ 32` frames
of audio: `AudioMixer::render` counts the frames of its packet in a `u32`.
-/

namespace Blip.Capture

open Audio TimeMap

/-- The parts of an export that its loops read. -/
structure ExportJob where
  fps : ℕ
  durationSecs : Secs
  bundle : BlipBundle
  audioMixer : AudioMixer

/-- What an export calls: the composed frame of a source time and a timeline time, and the writer. -/
structure ExportCalls (Frame : Type) where
  renderFrame : Secs → Secs → Except String Frame
  appendVideo : Frame → Secs → Except String Unit
  appendAudio : AudioPacket → Secs → Except String Unit

/-- What the writer of an export has accepted, with the timestamps. -/
structure Exported (Frame : Type) where
  frames : List (Secs × Frame)
  packets : List (Secs × AudioPacket)

namespace ExportJob

variable {Frame : Type} (job : ExportJob) (calls : ExportCalls Frame)

def frameCount : ℕ := (max ⌈job.durationSecs * job.fps⌉ 1).toNat

/-- One turn of the loop over the video. -/
def exportFrame (frameIndex : ℕ) : Except String (Secs × Frame) := do
  let timelineTimeSecs : Secs := frameIndex / job.fps
  let sourceTimeSecs ← match sourceTimeAt job.bundle timelineTimeSecs with
    | none => throw "Could not map the export timeline to source video."
    | some sourceTimeSecs => pure sourceTimeSecs
  let frame ← calls.renderFrame sourceTimeSecs timelineTimeSecs
  calls.appendVideo frame timelineTimeSecs
  pure (timelineTimeSecs, frame)

/-- The loop over the video, for the frames that are left. -/
def exportFrames : List ℕ → Except String (List (Secs × Frame))
  | [] => pure []
  | frameIndex :: frameIndexes => do
    let frame ← job.exportFrame calls frameIndex
    let frames ← exportFrames frameIndexes
    pure (frame :: frames)

/-- `AUDIO_PACKET_FRAMES`. -/
def audioPacketFrames : ℕ := 1024

def totalAudioFrames : ℕ := (max ⌈job.durationSecs * mixSampleRate⌉ 1).toNat

/-- The loop over the audio, from a frame. -/
def exportPackets (audioFrame : ℕ) : Except String (List (Secs × AudioPacket)) :=
  if audioFrame < job.totalAudioFrames then do
    let frameCount := min audioPacketFrames (job.totalAudioFrames - audioFrame)
    let timestampSecs : Secs := audioFrame / mixSampleRate
    let packet ← (job.audioMixer.render timestampSecs frameCount).mapError fun error =>
      s!"Could not mix audio: {error.toString}"
    calls.appendAudio packet timestampSecs
    let packets ← exportPackets (audioFrame + frameCount)
    pure ((timestampSecs, packet) :: packets)
  else pure []
termination_by job.totalAudioFrames - audioFrame
decreasing_by
  rw [audioPacketFrames]
  omega

/-- `render_export`. -/
def renderExport : Except String (Exported Frame) := do
  let frames ← job.exportFrames calls (List.range job.frameCount)
  let packets ← if job.audioMixer.sources = [] then pure [] else job.exportPackets calls 0
  pure { frames, packets }

end ExportJob

/-! ## Rendered samples -/

/-- The samples of a run of frames, each mixed at its own time. -/
def mixedSamples (mixer : AudioMixer) (start count : ℕ) : List ℚ :=
  (List.range count).flatMap fun frame =>
    let pair := mixer.mixFrameAt ((start + frame : ℕ) / mixSampleRate)
    [pair.1, pair.2]

theorem mixedSamples_append (mixer : AudioMixer) (start left right : ℕ) :
    mixedSamples mixer start left ++ mixedSamples mixer (start + left) right =
      mixedSamples mixer start (left + right) := by
  simp only [mixedSamples, List.range_add, List.flatMap_append, List.flatMap_map, Nat.add_assoc]

theorem frame_of_samples {mixer : AudioMixer} {packet : AudioPacket} {start count frame : ℕ}
    (h : packet.samples = mixedSamples mixer start count) (hframe : frame < count) :
    packet.frame frame = some (mixer.mixFrameAt ((start + frame : ℕ) / mixSampleRate)) := by
  obtain ⟨hleft, hright⟩ := getElem?_flatMap_pair
    (fun frame : ℕ => (mixer.mixFrameAt ((start + frame : ℕ) / mixSampleRate)).1)
    (fun frame : ℕ => (mixer.mixFrameAt ((start + frame : ℕ) / mixSampleRate)).2)
    (List.range count) frame
  simp only [AudioPacket.frame, h, mixedSamples, hleft, hright, List.getElem?_range hframe,
    Option.map_some]

/-- A render that does not reach the end of `u32` has its frames mixed at their own times. -/
theorem render_eq (mixer : AudioMixer) (start : ℕ) {count : ℕ} (h : 0 < count)
    (hsmall : count ≤ 2 ^ 32) : ∃ packet, mixer.render (start / mixSampleRate) count = .ok packet ∧
      packet.samples = mixedSamples mixer start count := by
  obtain ⟨packet, hpacket, -, -, hsamples⟩ := render_samples mixer (start / mixSampleRate) h
  refine ⟨packet, hpacket, hsamples.trans ?_⟩
  apply List.flatMap_congr
  intro frame hframe
  have hlt : frame < count := List.mem_range.mp hframe
  rw [AudioMixer.renderTime, min_eq_left (by omega), Nat.cast_add, add_div]

/-! ## The loop over the audio -/

/-- Packets of at most 1024 frames that follow on one another, from a frame up to the end. -/
def Contiguous (mixer : AudioMixer) (totalFrames : ℕ) : ℕ → List (Secs × AudioPacket) → Prop
  | start, [] => start = totalFrames
  | start, (timestamp, packet) :: packets => timestamp = start / mixSampleRate ∧
    ∃ count, 0 < count ∧ count ≤ ExportJob.audioPacketFrames ∧
      packet.samples = mixedSamples mixer start count ∧
      Contiguous mixer totalFrames (start + count) packets

theorem Contiguous.samples {mixer : AudioMixer} {totalFrames start : ℕ}
    {packets : List (Secs × AudioPacket)} (h : Contiguous mixer totalFrames start packets) :
    start ≤ totalFrames ∧ packets.flatMap (fun packet => packet.2.samples) =
      mixedSamples mixer start (totalFrames - start) := by
  induction packets generalizing start with
  | nil =>
    obtain rfl : start = totalFrames := h
    rw [Nat.sub_self]
    exact ⟨le_refl _, rfl⟩
  | cons packet packets ih =>
    obtain ⟨timestamp, packet⟩ := packet
    obtain ⟨-, count, -, -, hsamples, hrest⟩ := h
    obtain ⟨hle, heq⟩ := ih hrest
    refine ⟨by omega, ?_⟩
    rw [List.flatMap_cons, heq, hsamples, mixedSamples_append]
    congr 1
    omega

variable {Frame : Type} (job : ExportJob) (calls : ExportCalls Frame)

private theorem ok_of_bind {ε α β : Type} {result : Except ε α} {next : α → Except ε β} {b : β}
    (h : result >>= next = .ok b) : ∃ a, result = .ok a ∧ next a = .ok b := by
  cases result with
  | error error => cases h
  | ok a => exact ⟨a, rfl, h⟩

/-- What a turn of the loop over the audio appends, and where it goes on. -/
theorem exportPackets_eq {audioFrame : ℕ} (h : audioFrame < job.totalAudioFrames) :
    ∃ (count : ℕ) (packet : AudioPacket), 0 < count ∧ count ≤ ExportJob.audioPacketFrames ∧
      audioFrame + count ≤ job.totalAudioFrames ∧
      packet.samples = mixedSamples job.audioMixer audioFrame count ∧
      job.exportPackets calls audioFrame = (do
        calls.appendAudio packet (audioFrame / mixSampleRate)
        let packets ← job.exportPackets calls (audioFrame + count)
        pure ((audioFrame / mixSampleRate, packet) :: packets)) := by
  have hcount : 0 < min ExportJob.audioPacketFrames (job.totalAudioFrames - audioFrame) := by
    rw [ExportJob.audioPacketFrames]
    omega
  obtain ⟨packet, hrender, hsamples⟩ := render_eq job.audioMixer audioFrame hcount (by
    rw [ExportJob.audioPacketFrames]
    omega)
  refine ⟨_, packet, hcount, min_le_left _ _, by omega, hsamples, ?_⟩
  rw [ExportJob.exportPackets, if_pos h]
  dsimp only
  rw [hrender]
  rfl

theorem exportPackets_contiguous {audioFrame : ℕ} {packets : List (Secs × AudioPacket)}
    (hle : audioFrame ≤ job.totalAudioFrames)
    (h : job.exportPackets calls audioFrame = .ok packets) :
    Contiguous job.audioMixer job.totalAudioFrames audioFrame packets := by
  induction hleft : job.totalAudioFrames - audioFrame using Nat.strong_induction_on
    generalizing audioFrame packets with
  | _ left ih =>
    by_cases hlt : audioFrame < job.totalAudioFrames
    · obtain ⟨count, packet, hpos, hshort, hend, hsamples, hstep⟩ := exportPackets_eq job calls hlt
      rw [hstep] at h
      obtain ⟨_, -, h⟩ := ok_of_bind h
      obtain ⟨rest, hrest, h⟩ := ok_of_bind h
      obtain rfl := Except.ok.inj h
      exact ⟨rfl, count, hpos, hshort, hsamples, ih _ (by omega) hend hrest rfl⟩
    · rw [ExportJob.exportPackets, if_neg hlt] at h
      obtain rfl := Except.ok.inj h
      exact le_antisymm hle (not_lt.mp hlt)

/-! ## The loop over the video -/

theorem exportFrame_eq_ok {frameIndex : ℕ} {frame : Secs × Frame}
    (h : job.exportFrame calls frameIndex = .ok frame) :
    frame.1 = frameIndex / job.fps ∧ ∃ sourceTimeSecs,
      sourceTimeAt job.bundle frame.1 = some sourceTimeSecs ∧
      calls.renderFrame sourceTimeSecs frame.1 = .ok frame.2 := by
  unfold ExportJob.exportFrame at h
  dsimp only at h
  cases hsource : sourceTimeAt job.bundle (frameIndex / job.fps) with
  | none =>
    rw [hsource] at h
    cases h
  | some sourceTimeSecs =>
    rw [hsource] at h
    simp only [pure_bind] at h
    obtain ⟨composed, hcomposed, h⟩ := ok_of_bind h
    obtain ⟨_, -, h⟩ := ok_of_bind h
    obtain rfl := Except.ok.inj h
    exact ⟨rfl, sourceTimeSecs, hsource, hcomposed⟩

theorem exportFrames_eq_ok {frameIndexes : List ℕ} {frames : List (Secs × Frame)}
    (h : job.exportFrames calls frameIndexes = .ok frames) :
    frames.map Prod.fst = frameIndexes.map (fun frameIndex : ℕ => (frameIndex / job.fps : Secs)) ∧
      ∀ frame ∈ frames, ∃ sourceTimeSecs, sourceTimeAt job.bundle frame.1 = some sourceTimeSecs ∧
        calls.renderFrame sourceTimeSecs frame.1 = .ok frame.2 := by
  induction frameIndexes generalizing frames with
  | nil =>
    obtain rfl := Except.ok.inj h
    exact ⟨rfl, by rintro _ ⟨⟩⟩
  | cons frameIndex frameIndexes ih =>
    obtain ⟨frame, hframe, h⟩ := ok_of_bind h
    obtain ⟨rest, hrest, h⟩ := ok_of_bind h
    obtain rfl := Except.ok.inj h
    obtain ⟨htime, hcomposed⟩ := exportFrame_eq_ok job calls hframe
    obtain ⟨htimes, hrest⟩ := ih hrest
    refine ⟨by rw [List.map_cons, List.map_cons, htime, htimes], fun other hother => ?_⟩
    rcases List.mem_cons.mp hother with rfl | hother
    · exact hcomposed
    · exact hrest other hother

variable {job calls}

/-- The frame times of an export are those before the end. -/
theorem lt_frameCount_iff (hduration : 0 < job.durationSecs) (hfps : 0 < job.fps) {frameIndex : ℕ} :
    frameIndex < job.frameCount ↔ (frameIndex / job.fps : Secs) < job.durationSecs := by
  have hfps' : (0 : ℚ) < job.fps := by exact_mod_cast hfps
  have hceil : 0 < ⌈job.durationSecs * job.fps⌉ := Int.ceil_pos.mpr (mul_pos hduration hfps')
  rw [ExportJob.frameCount, max_eq_left (by omega), div_lt_iff₀ hfps', ← Int.cast_natCast frameIndex,
    ← Int.lt_ceil]
  omega

theorem frameCount_pos : 0 < job.frameCount := by
  rw [ExportJob.frameCount]
  omega

theorem totalAudioFrames_pos : 0 < job.totalAudioFrames := by
  rw [ExportJob.totalAudioFrames]
  omega

/-- Every time of the timeline has a frame at most a frame before it. -/
theorem exists_frame (hduration : 0 < job.durationSecs) (hfps : 0 < job.fps) {timeSecs : Secs}
    (h : 0 ≤ timeSecs) (hlt : timeSecs < job.durationSecs) : ∃ frameIndex < job.frameCount,
      (frameIndex / job.fps : Secs) ≤ timeSecs ∧
        timeSecs < (frameIndex / job.fps : Secs) + 1 / job.fps := by
  have hfps' : (0 : ℚ) < job.fps := by exact_mod_cast hfps
  have hle : (⌊timeSecs * job.fps⌋₊ / job.fps : Secs) ≤ timeSecs := by
    rw [div_le_iff₀ hfps']
    exact Nat.floor_le (mul_nonneg h hfps'.le)
  refine ⟨⌊timeSecs * job.fps⌋₊, (lt_frameCount_iff hduration hfps).mpr (hle.trans_lt hlt), hle, ?_⟩
  rw [← add_div, lt_div_iff₀ hfps']
  exact Nat.lt_floor_add_one _

/-! ## Exports that calls do not fail -/

/-- The calls of an export that succeed. -/
structure ExportCalls.Succeed (calls : ExportCalls Frame) : Prop where
  renderFrame : ∀ sourceTimeSecs timelineTimeSecs,
    ∃ frame, calls.renderFrame sourceTimeSecs timelineTimeSecs = .ok frame
  appendVideo : ∀ frame timestampSecs, calls.appendVideo frame timestampSecs = .ok ()
  appendAudio : ∀ packet timestampSecs, calls.appendAudio packet timestampSecs = .ok ()

theorem exportPackets_ok (job : ExportJob) (h : calls.Succeed) (audioFrame : ℕ) :
    ∃ packets, job.exportPackets calls audioFrame = .ok packets := by
  induction hleft : job.totalAudioFrames - audioFrame using Nat.strong_induction_on
    generalizing audioFrame with
  | _ left ih =>
    by_cases hlt : audioFrame < job.totalAudioFrames
    · obtain ⟨count, packet, hpos, -, -, -, hstep⟩ := exportPackets_eq job calls hlt
      obtain ⟨rest, hrest⟩ := ih _ (by omega) (audioFrame + count) rfl
      rw [hstep, h.appendAudio, hrest]
      exact ⟨_, rfl⟩
    · rw [ExportJob.exportPackets, if_neg hlt]
      exact ⟨[], rfl⟩

theorem exportFrames_ok (h : calls.Succeed) {frameIndexes : List ℕ}
    (hmapped : ∀ frameIndex ∈ frameIndexes, sourceTimeAt job.bundle (frameIndex / job.fps) ≠ none) :
    ∃ frames, job.exportFrames calls frameIndexes = .ok frames := by
  induction frameIndexes with
  | nil => exact ⟨[], rfl⟩
  | cons frameIndex frameIndexes ih =>
    obtain ⟨sourceTimeSecs, hsource⟩ := Option.ne_none_iff_exists'.mp (hmapped _ List.mem_cons_self)
    obtain ⟨frame, hframe⟩ := h.renderFrame sourceTimeSecs (frameIndex / job.fps)
    obtain ⟨frames, hframes⟩ := ih fun other hother => hmapped other (List.mem_cons_of_mem _ hother)
    have hfirst : job.exportFrame calls frameIndex = .ok (frameIndex / job.fps, frame) := by
      unfold ExportJob.exportFrame
      dsimp only
      rw [hsource]
      simp only [pure_bind, hframe, h.appendVideo]
      rfl
    rw [ExportJob.exportFrames, hfirst, hframes]
    exact ⟨_, rfl⟩

/-- An export no longer than its segments succeeds if its calls do. -/
theorem renderExport_ok (h : calls.Succeed) {segments : List VideoSegment}
    (hsegments : job.bundle.videoSegments = some segments) (hduration : 0 < job.durationSecs)
    (hlong : job.durationSecs ≤ totalDuration segments) (hfps : 0 < job.fps) :
    ∃ exported, job.renderExport calls = .ok exported := by
  have hmapped : ∀ frameIndex ∈ List.range job.frameCount,
      sourceTimeAt job.bundle (frameIndex / job.fps) ≠ none := by
    intro frameIndex hframe
    have hlt := (lt_frameCount_iff hduration hfps).mp (List.mem_range.mp hframe)
    obtain ⟨sourceTimeSecs, hshows⟩ := exists_shows
      (show (0 : Secs) ≤ frameIndex / job.fps by positivity)
      (show frameIndex / job.fps < total (clips segments) by
        rw [total_clips]
        exact hlt.trans_le hlong)
    rw [sourceTimeAt_of_shows hsegments hshows]
    exact Option.some_ne_none _
  obtain ⟨frames, hframes⟩ := exportFrames_ok h hmapped
  obtain ⟨packets, hpackets⟩ := exportPackets_ok job h 0
  rw [ExportJob.renderExport, hframes]
  dsimp only [bind, Except.bind]
  by_cases hsources : job.audioMixer.sources = []
  · exact ⟨{ frames, packets := [] }, by rw [if_pos hsources]; rfl⟩
  · exact ⟨{ frames, packets }, by rw [if_neg hsources, hpackets]; rfl⟩

/-! ## What an export is made of -/

theorem renderExport_eq_ok {exported : Exported Frame} (h : job.renderExport calls = .ok exported) :
    job.exportFrames calls (List.range job.frameCount) = .ok exported.frames ∧
      (job.audioMixer.sources = [] → exported.packets = []) ∧
      (job.audioMixer.sources ≠ [] → job.exportPackets calls 0 = .ok exported.packets) := by
  obtain ⟨frames, hframes, h⟩ := ok_of_bind h
  dsimp only at h
  by_cases hsources : job.audioMixer.sources = []
  · rw [if_pos hsources] at h
    obtain rfl := Except.ok.inj h
    exact ⟨hframes, fun _ => rfl, fun hsome => absurd hsources hsome⟩
  · rw [if_neg hsources] at h
    obtain ⟨packets, hpackets, h⟩ := ok_of_bind h
    obtain rfl := Except.ok.inj h
    exact ⟨hframes, fun hnone => absurd hnone hsources, fun _ => hpackets⟩

theorem soundFrame_complete : ([1, 1] : List ℚ).length % mixChannels = 0 := rfl

/-- A job over one segment of a given length, with a single frame of sound. -/
def soundJob (durationSecs soundSecs : Secs) : ExportJob where
  fps := 1
  durationSecs
  bundle := {
    zoomSegments := []
    videoSegments := some [{ id := 1, sourceStartSecs := 0, sourceEndSecs := durationSecs }] }
  audioMixer := {
    sources := [{
      samples := [1, 1], startOffsetSecs := soundSecs, gain := 1, complete := soundFrame_complete }]
    segments := [{ sourceStartSecs := 0, sourceEndSecs := durationSecs }] }

/-- Calls that succeed. -/
def quietCalls : ExportCalls Unit where
  renderFrame := fun _ _ => .ok ()
  appendVideo := fun _ _ => .ok ()
  appendAudio := fun _ _ => .ok ()

theorem soundJob_ok {durationSecs soundSecs : Secs} (h : 0 < durationSecs) :
    ∃ exported, (soundJob durationSecs soundSecs).renderExport quietCalls = .ok exported := by
  refine renderExport_ok ⟨fun _ _ => ⟨(), rfl⟩, fun _ _ => rfl, fun _ _ => rfl⟩ rfl h ?_
    (show 0 < 1 from one_pos)
  rw [totalDuration_cons]
  simp [soundJob, VideoSegment.durationSecs, totalDuration, h.le]

/-- A job of more than a day, with sound at its last frame. -/
def longJob : ExportJob := soundJob ((2 ^ 32 + 1) / 48000) (2 ^ 32 / 48000)

end Blip.Capture
