import Blip.Audio.Mixer
import Blip.Capture.EditorEffects

/-!
# What playback sounds like and what it shows

The editor looks a timeline time up in its segments to show a frame, the audio mixer to play a
sample. The two lookups agree on one list of segments (`audio_video_times_agree`), but the mixer
keeps the list of the moment playback started, and no edit of the segments tells it of a new one.
`playing_audio_follows_segments` says that the list is the bundle's as long as nothing edits the
segments while a stream is active.
-/

namespace Blip.Capture

open Blip.Audio (AudioSource AudioMixer AudioTimelineSegment)
open BundleEditor (KeepsTimeline)

/-- `audio_mixer`. -/
def audioMixer (sources : List AudioSource) (bundle : BlipBundle) : AudioMixer where
  sources := sources
  segments := (bundle.videoSegments.getD []).map fun segment =>
    { sourceStartSecs := segment.sourceStartSecs, sourceEndSecs := segment.sourceEndSecs }

/-- The mixer an active stream plays from. -/
def AudioPlayback.mixer (playback : AudioPlayback) (sources : List AudioSource) : AudioMixer where
  sources := sources
  segments := playback.segments.map fun range =>
    { sourceStartSecs := range.1, sourceEndSecs := range.2 }

/-! ## The two time maps -/

/-- The mixer's loop is the editor's up to where the segments end. -/
theorem sourceTimeFrom_eq (segments : List VideoSegment) {t timelineStart : ℚ}
    (h : t < timelineStart + totalDuration segments) :
    AudioMixer.sourceTimeFrom t timelineStart (segments.map fun segment =>
        { sourceStartSecs := segment.sourceStartSecs, sourceEndSecs := segment.sourceEndSecs }) =
      sourceTimeIn segments (t - timelineStart) := by
  induction segments generalizing timelineStart with
  | nil => rfl
  | cons segment segments ih =>
    rw [totalDuration_cons] at h
    simp only [List.map_cons, AudioMixer.sourceTimeFrom, sourceTimeIn]
    by_cases hlt : t < timelineStart + segment.durationSecs
    · have hin : t - timelineStart < segment.durationSecs := by linarith
      rw [if_pos (by exact hlt), if_pos (.inl hin), min_eq_left hin.le, add_sub_assoc]
    · have hout : ¬ t - timelineStart < segment.durationSecs := by linarith
      have hrest : segments ≠ [] := by
        rintro rfl
        rw [totalDuration_nil] at h
        linarith
      rw [if_neg (by exact hlt), if_neg (not_or.mpr ⟨hout, hrest⟩)]
      have hih := @ih (timelineStart + segment.durationSecs) (by linarith)
      rw [← sub_sub] at hih
      exact hih

/-- Past the end of the segments the mixer finds nothing. -/
theorem sourceTimeFrom_end (segments : List VideoSegment) {t timelineStart : ℚ}
    (h : timelineStart + totalDuration segments ≤ t) :
    AudioMixer.sourceTimeFrom t timelineStart (segments.map fun segment =>
      { sourceStartSecs := segment.sourceStartSecs, sourceEndSecs := segment.sourceEndSecs }) =
        none := by
  induction segments generalizing timelineStart with
  | nil => rfl
  | cons segment segments ih =>
    rw [totalDuration_cons] at h
    have hnonneg := totalDuration_nonneg segments
    simp only [List.map_cons, AudioMixer.sourceTimeFrom]
    rw [if_neg (by
      show ¬ t < timelineStart + segment.durationSecs
      linarith)]
    exact @ih (timelineStart + segment.durationSecs) (by linarith)

/-- Past the end of the segments the editor stays at the end of the last one. -/
theorem sourceTimeIn_end {segments : List VideoSegment} {last : VideoSegment} {t : ℚ}
    (hlast : segments.getLast? = some last) (h : totalDuration segments ≤ t) :
    sourceTimeIn segments t = some (last.sourceStartSecs + last.durationSecs) := by
  induction segments generalizing t with
  | nil => cases hlast
  | cons segment segments ih =>
    rw [totalDuration_cons] at h
    have hnonneg := totalDuration_nonneg segments
    have hout : ¬ t < segment.durationSecs := by linarith
    rw [sourceTimeIn]
    cases segments with
    | nil =>
      rw [List.getLast?_singleton] at hlast
      cases hlast
      simp only [or_true, if_true, min_eq_right (not_lt.mp hout)]
    | cons next rest =>
      rw [List.getLast?_cons_cons] at hlast
      simp only [hout, reduceCtorEq, or_self, if_false]
      exact ih hlast (by linarith)

/-- A time on the timeline is at some place of the source. -/
theorem sourceTimeIn_isSome {segments : List VideoSegment} (t : ℚ) (h : segments ≠ []) :
    (sourceTimeIn segments t).isSome = true := by
  induction segments generalizing t with
  | nil => exact absurd rfl h
  | cons segment segments ih =>
    rw [sourceTimeIn]
    split
    · rfl
    · next hout => exact ih _ (fun hnil => hout (.inr hnil))

/-- The two lookups on the timeline. -/
theorem sourceTimeAt_audioMixer (sources : List AudioSource) (bundle : BlipBundle) {t : ℚ}
    (h : 0 ≤ t) (hend : t < videoTimelineDuration bundle) :
    (audioMixer sources bundle).sourceTimeAt t = sourceTimeAt bundle t := by
  unfold videoTimelineDuration at hend
  unfold AudioMixer.sourceTimeAt audioMixer sourceTimeAt
  rw [if_neg (not_lt.mpr h), max_eq_left h]
  cases hsegs : bundle.videoSegments with
  | none =>
    rw [hsegs, Option.getD_none, totalDuration_nil] at hend
    linarith
  | some segments =>
    rw [hsegs, Option.getD_some] at hend
    simpa using @sourceTimeFrom_eq segments t 0 (by linarith)

/-- A segment, a reversed one and another: both maps pass over the reversed one. -/
def reversedBundle : BlipBundle where
  zoomSegments := []
  videoSegments := some [{ id := 1, sourceStartSecs := 0, sourceEndSecs := 2 },
    { id := 2, sourceStartSecs := 9, sourceEndSecs := 5 },
    { id := 3, sourceStartSecs := 10, sourceEndSecs := 11 }]

/-- The mixer a stream started on a bundle plays from. -/
theorem mixer_audioSegments (sources : List AudioSource) (bundle : BlipBundle) :
    AudioPlayback.mixer { segments := audioSegments bundle } sources = audioMixer sources bundle := by
  simp only [AudioPlayback.mixer, audioMixer, audioSegments, List.map_map]
  rfl

/-- The event edits no segment: a press splits none, a release writes the range the segment has, and
there is nothing to delete, cut or expand. -/
def EditsNoSegment (editor : BundleEditor) : EditorOp → Prop
  | .pressVideoSegment id x => ∀ timeSecs, editor.timelineTimeAt x = some timeSecs →
      editor.cutMode = true → ∀ pre segment post, editor.segments = pre ++ segment :: post →
        segment.id = id →
          canSplitVideoSegment segment.durationSecs (timeSecs - totalDuration pre) = false
  | .mouseUp => ∀ drag, editor.videoSegmentDrag = some drag →
      ∀ segment ∈ editor.segments, segment.id = drag.id →
        segment.sourceStartSecs = drag.draftSourceStartSecs ∧
          segment.sourceEndSecs = drag.draftSourceEndSecs
  | .deleteSelected => editor.selectedZoom = none →
      (∃ s ∈ editor.segments, editor.selectedVideoSegment = some s.id) → editor.segments.length ≤ 1
  | .clickCut rightId =>
      editor.bundle.videoSegments.bind (fun segments => editVideoCut segments rightId) = none
  | .clickVideoSegmentEdge id edge => ∀ segment ∈ editor.segments, segment.id = id →
      (editor.expandSegmentEdge segment edge 0).2.2 ≤ f64Epsilon
  | _ => True

/-- The steps that leave an active stream with the bundle's segments. -/
def AudioStepOk (editor : BundleEditor) (op : EditorOp) : Prop :=
  editor.audioPlayback ≠ none → EditsNoSegment editor op

/-- An active stream plays the bundle's segments. -/
def AudioInv (editor : BundleEditor) : Prop :=
  ∀ playback, editor.audioPlayback = some playback →
    playback.segments = audioSegments editor.bundle

section Steps

variable {editor editor' : BundleEditor}

/-- A stream that is stopped, or left alone with the segments it plays. -/
theorem AudioInv.keep (h : AudioInv editor)
    (haudio : editor'.audioPlayback = none ∨ editor'.audioPlayback = editor.audioPlayback ∧
      editor'.bundle.videoSegments = editor.bundle.videoSegments) : AudioInv editor' := by
  intro playback hplayback
  rcases haudio with hnone | ⟨hsame, hsegs⟩
  · rw [hnone] at hplayback
    cases hplayback
  · rw [hsame] at hplayback
    rw [h playback hplayback]
    unfold audioSegments
    rw [hsegs]

/-- An edit that leaves the stream alone happens while there is none. -/
theorem audioInv_of_edit {op : EditorOp} (hok : AudioStepOk editor op)
    (hedits : ¬ EditsNoSegment editor op)
    (haudio : editor'.audioPlayback = editor.audioPlayback) : AudioInv editor' := by
  intro playback hplayback
  rw [haudio] at hplayback
  exact absurd (hok (by rw [hplayback]; exact Option.some_ne_none _)) hedits

theorem AudioInv.pressTimeline (h : AudioInv editor) (x : ℚ) :
    AudioInv (editor.pressTimeline x) := by
  rcases editor.pressTimeline_effect x with heq | ⟨t, heq⟩ <;> rw [heq]
  · exact h.keep (.inr ⟨rfl, rfl⟩)
  · exact h.keep (.inl rfl)

theorem AudioInv.beginZoomDrag (h : AudioInv editor) (id : UInt64) (kind : ZoomSegmentDragKind)
    (x : ℚ) : AudioInv (editor.beginZoomSegmentDrag id kind x) := by
  rcases editor.beginZoomSegmentDrag_effect id kind x with heq | ⟨zoom, -, -, heq⟩ <;> rw [heq]
  · exact h
  · exact h.keep (.inr ⟨rfl, rfl⟩)

theorem AudioInv.pressVideoSegment (h : AudioInv editor) {id : UInt64} {x : ℚ}
    (hok : AudioStepOk editor (.pressVideoSegment id x)) :
    AudioInv (editor.pressVideoSegment id x) := by
  rcases editor.pressVideoSegment_effect id x with
    heq | ⟨t, htime, ⟨hcut, heq⟩ | ⟨-, heq⟩⟩ <;> rw [heq]
  · exact h
  · rcases editor.splitVideoSegment_cases id t with
      hsplit | ⟨pre, segment, post, hsegs, hid, hcan, hsplit⟩ <;> rw [hsplit]
    · exact h
    · refine audioInv_of_edit hok (fun hnone => ?_) rfl
      have hcannot := hnone t htime hcut pre segment post (segments_of_some hsegs) hid
      rw [hcan] at hcannot
      cases hcannot
  · exact h.keep (.inl rfl)

theorem AudioInv.mouseMove (h : AudioInv editor) (dragging : Bool) (position : PointerPosition) :
    AudioInv (editor.mouseMove dragging position) := by
  have hover : ∀ moved : BundleEditor, AudioInv moved →
      AudioInv (moved.updateTimelineHover position) := by
    intro moved hmoved
    obtain ⟨c, z, heq⟩ := moved.updateTimelineHover_effect position
    rw [heq]
    exact hmoved.keep (.inr ⟨rfl, rfl⟩)
  unfold BundleEditor.mouseMove
  apply hover
  split
  · rcases editor.dragVideoSegment_effect { positionX := position.x, dragging } with
      heq | ⟨_, _, t, -, heq⟩ <;> rw [heq]
    · exact h
    · exact h.keep (.inl rfl)
  · rcases editor.dragZoomSegment_effect { positionX := position.x, dragging } with
      heq | heq | ⟨_, _, _, t, -, -, -, heq⟩ | ⟨_, _, _, t, -, -, heq⟩ <;> rw [heq]
    · exact h
    · exact h.keep (.inr ⟨rfl, rfl⟩)
    · exact h.keep (.inl rfl)
    · exact h.keep (.inl rfl)

/-- A release that writes back the range a segment has is no edit. -/
theorem AudioInv.mouseUp (h : AudioInv editor) (hok : AudioStepOk editor .mouseUp) :
    AudioInv editor.finishZoomSegmentDrag.finishVideoSegmentDrag := by
  have hzoom : editor.finishZoomSegmentDrag.audioPlayback = editor.audioPlayback ∧
      editor.finishZoomSegmentDrag.bundle.videoSegments = editor.bundle.videoSegments ∧
      editor.finishZoomSegmentDrag.videoSegmentDrag = editor.videoSegmentDrag := by
    rcases editor.finishZoomSegmentDrag_effect with heq | ⟨_, _, _, -, -, -, -, heq⟩ <;> rw [heq] <;>
      exact ⟨rfl, rfl, rfl⟩
  obtain ⟨haudio, hsegs, hdrag⟩ := hzoom
  have hreleased : AudioInv editor.finishZoomSegmentDrag := h.keep (.inr ⟨haudio, hsegs⟩)
  rcases editor.finishZoomSegmentDrag.finishVideoSegmentDrag_effect with
    heq | ⟨drag, pre, segment, post, -, heffect⟩
  · rw [heq]
    exact hreleased.keep (.inr ⟨rfl, rfl⟩)
  intro playback hplayback
  rw [heffect.audioPlayback] at hplayback
  rw [hreleased playback hplayback]
  rw [haudio] at hplayback
  have hbefore := heffect.before_segments
  rw [hsegs] at hbefore
  have hmem : segment ∈ editor.segments := by rw [segments_of_some hbefore]; simp
  obtain ⟨hstart, hend⟩ := hok (by rw [hplayback]; exact Option.some_ne_none _) drag
    (hdrag ▸ heffect.inProgress) segment hmem heffect.id
  unfold audioSegments
  rw [heffect.before_segments, heffect.edited.bundle]
  simp only [Option.getD_some, List.map_append, List.map_cons, hstart, hend]

theorem AudioInv.deleteSelected (h : AudioInv editor) (hok : AudioStepOk editor .deleteSelected) :
    AudioInv editor.deleteSelected := by
  rcases editor.deleteSelected_effect with
    heq | ⟨id, -, heq⟩ | ⟨pre, segment, post, hzoom, -, heffect⟩
  · rwa [heq]
  · rw [heq]
    exact h.keep (.inr ⟨rfl, rfl⟩)
  refine audioInv_of_edit hok (fun hnone => ?_) heffect.audioPlayback
  have hlist := segments_of_some heffect.before_segments
  have hlength := hnone hzoom ⟨segment, by rw [hlist]; simp, heffect.selected⟩
  have hrest := List.length_pos_iff.mpr heffect.rest
  rw [hlist] at hlength
  simp only [List.length_append, List.length_cons] at hlength hrest
  omega

/-- Every step that meets `AudioStepOk` leaves an active stream with the bundle's segments. -/
theorem AudioInv.step (h : AudioInv editor) {op : EditorOp} (hok : AudioStepOk editor op)
    (hstep : editorSystem.step editor op editor') : AudioInv editor' := by
  obtain ⟨-, rfl⟩ := hstep
  cases op with
  | layout | setReduceMotion | toggleCutMode | escape => exact h.keep (.inr ⟨rfl, rfl⟩)
  | openCropDialog | playbackBack | playbackForward => exact h.keep (.inl rfl)
  | deleteSelected => exact h.deleteSelected hok
  | pressTimeline x => exact h.pressTimeline x
  | pressVideoSegment id x => exact h.pressVideoSegment hok
  | pressVideoSegmentEdge id edge x =>
    rcases editor.beginVideoSegmentDrag_cases id edge x with
      ⟨heq, -⟩ | ⟨_, _, _, -, -, -, heq⟩ <;> rw [BundleEditor.handle, heq]
    · exact h
    · exact h.keep (.inr ⟨rfl, rfl⟩)
  | pressZoomTrack x =>
    rcases editor.pressZoomTrack_effect x with
      heq | ⟨id, t, heq⟩ | ⟨t, range, -, -, -, heq⟩ <;> rw [BundleEditor.handle, heq]
    · exact h.pressTimeline x
    · exact (h.beginZoomDrag id .move x).keep (.inl rfl)
    · unfold BundleEditor.addZoom
      split <;> exact h.keep (.inr ⟨rfl, rfl⟩)
  | pressZoomSegment id x =>
    have hbegin := h.beginZoomDrag id .move x
    rcases editor.pressZoomSegment_effect id x with heq | ⟨t, heq⟩ <;>
      rw [BundleEditor.handle, heq]
    · exact hbegin
    · exact hbegin.keep (.inl rfl)
  | pressZoomSegmentEdge id edge x => exact h.beginZoomDrag id _ x
  | clickCut rightId =>
    rcases editor.activateVideoCut_effect rightId with
      ⟨heq, -⟩ | ⟨edit, list, list', hcut, heffect⟩
    · rw [BundleEditor.handle, heq]
      exact h
    · refine audioInv_of_edit hok (fun hnone => ?_) heffect.audioPlayback
      -- the cut edits a segment, which no stream may be playing
      simp only [EditsNoSegment, heffect.before_segments, Option.bind_some, hcut,
        reduceCtorEq] at hnone
  | clickVideoSegmentEdge id edge =>
    rcases editor.activateVideoSegmentEdge_effect id edge with
      heq | ⟨pre, segment, post, hid, -, heffect⟩
    · rw [BundleEditor.handle, heq]
      exact h
    · refine audioInv_of_edit hok (fun hnone => ?_) heffect.audioPlayback
      have hmem : segment ∈ editor.segments := by
        rw [segments_of_some heffect.before_segments]
        simp
      have hshort := hnone segment hmem hid
      have hlong := heffect.long
      have hinserted : (editor.expandSegmentEdge segment edge (totalDuration pre)).2.2 =
          (editor.expandSegmentEdge segment edge 0).2.2 := by
        cases edge <;> rfl
      rw [hinserted] at hlong
      exact absurd hshort (not_le.mpr hlong)
  | moveTimelineZoomSlider bounds x =>
    simp only [BundleEditor.handle, BundleEditor.setTimelineZoom]
    split
    · exact h
    · exact h.keep (.inr ⟨rfl, rfl⟩)
  | mouseMove dragging position => exact h.mouseMove dragging position
  | mouseUp => exact h.mouseUp hok
  | mouseExit =>
    obtain ⟨c, z, heq⟩ := editor.exitTimeline_effect
    rw [BundleEditor.handle, heq]
    exact h.keep (.inr ⟨rfl, rfl⟩)
  | pinch event =>
    simp only [BundleEditor.handle, BundleEditor.zoomTimeline]
    split
    · exact h
    · split
      · exact h.keep (.inr ⟨rfl, rfl⟩)
      · exact h
  | scroll event =>
    simp only [BundleEditor.handle, BundleEditor.panTimeline]
    split
    · exact h
    · split
      · exact h.keep (.inr ⟨rfl, rfl⟩)
      · exact h
  | resizeTick task elapsedSecs =>
    simp only [BundleEditor.handle, BundleEditor.resizeTick]
    split
    · exact h.keep (.inr ⟨rfl, rfl⟩)
    · split <;> exact h.keep (.inr ⟨rfl, rfl⟩)
  | togglePlayback now audioStarts =>
    rcases editor.togglePlayback_effect now audioStarts with
      heq | heq | ⟨t, -, heq⟩ <;> rw [BundleEditor.handle, heq]
    · exact h
    · exact h.keep (.inl rfl)
    · cases audioStarts with
      | true =>
        intro playback hplayback
        -- the stream starts with the segments there are now
        cases hplayback
        rfl
      | false => exact h.keep (.inr ⟨rfl, rfl⟩)
  | playbackFrame generation now =>
    rcases editor.playbackFrame_effect generation now with
      heq | ⟨t, heq | heq⟩ <;> rw [BundleEditor.handle, heq]
    · exact h
    · exact h.keep (.inr ⟨rfl, rfl⟩)
    · exact h.keep (.inl rfl)

end Steps

/-- In every run that edits segments only while no stream is active, a stream plays the bundle's
segments, and at each time of the timeline the source time heard is the one shown. -/
theorem playing_audio_follows_segments {bundle : BlipBundle} {sourceRanges : List (Secs × Secs)}
    {reduceMotion : Bool} {ops : List EditorOp} {editor : BundleEditor}
    (hrun : (editorSystem.restrict AudioStepOk).Run
      (BundleEditor.openBundle bundle sourceRanges reduceMotion) ops editor)
    {playback : AudioPlayback} (hplayback : editor.audioPlayback = some playback) :
    playback.segments = audioSegments editor.bundle ∧
      ∀ sources t, 0 ≤ t → t < videoTimelineDuration editor.bundle →
        (playback.mixer sources).sourceTimeAt t = sourceTimeAt editor.bundle t := by
  have hinv : AudioInv editor :=
    hrun.invariant (fun _ _ _ h hstep => h.step hstep.1 hstep.2) nofun
  have hsegs := hinv playback hplayback
  refine ⟨hsegs, fun sources t ht hend => ?_⟩
  have hmixer : playback.mixer sources = audioMixer sources editor.bundle := by
    rw [← mixer_audioSegments, ← hsegs]
  rw [hmixer]
  exact sourceTimeAt_audioMixer sources editor.bundle ht hend

/-- Two segments of five seconds with a second left out between them. -/
def cutBundle : BlipBundle where
  zoomSegments := []
  videoSegments := some [{ id := 1, sourceStartSecs := 0, sourceEndSecs := 5 },
    { id := 2, sourceStartSecs := 6, sourceEndSecs := 11 }]

/-- Fill the gap, then play. -/
def cutThenPlayOps : List EditorOp := [.clickCut 2, .togglePlayback 0 true]

theorem playing_audio_follows_segments_cutThenPlay :
    AudioMixer.sourceTimeAt (AudioPlayback.mixer { segments := [(0, 6), (6, 11)] } []) 7 =
      sourceTimeAt ((BundleEditor.openBundle cutBundle [(0, 11)] true).handleAll
        cutThenPlayOps).bundle 7 := by
  have hrun : (editorSystem.restrict AudioStepOk).Run
      (BundleEditor.openBundle cutBundle [(0, 11)] true) cutThenPlayOps
      ((BundleEditor.openBundle cutBundle [(0, 11)] true).handleAll cutThenPlayOps) := by
    refine .cons ⟨fun h => absurd rfl h, rfl, rfl⟩ (.cons ⟨fun _ => trivial, ?_, rfl⟩ (.nil _))
    decide +kernel
  have hplayback : ((BundleEditor.openBundle cutBundle [(0, 11)] true).handleAll
      cutThenPlayOps).audioPlayback = some { segments := [(0, 6), (6, 11)] } := by decide +kernel
  exact (playing_audio_follows_segments hrun hplayback).2 [] 7 (by decide +kernel)
    (by decide +kernel)

/-- Select the first segment, play, and delete it with the keyboard. -/
def playThenDeleteOps : List EditorOp :=
  [.layout { originX := 0, width := 130 }, .pressVideoSegment 1 10, .togglePlayback 0 true,
    .deleteSelected]

/-- The stream goes on with the deleted segment: at one second the first second of the source is
heard and the seventh is shown. -/
theorem deleted_segment_still_heard :
    editorSystem.Run (BundleEditor.openBundle cutBundle [(0, 11)] true) playThenDeleteOps
        ((BundleEditor.openBundle cutBundle [(0, 11)] true).handleAll playThenDeleteOps) ∧
      ((BundleEditor.openBundle cutBundle [(0, 11)] true).handleAll
        playThenDeleteOps).isPlaying = true ∧
      ((BundleEditor.openBundle cutBundle [(0, 11)] true).handleAll
        playThenDeleteOps).audioPlayback = some { segments := [(0, 5), (6, 11)] } ∧
      audioSegments ((BundleEditor.openBundle cutBundle [(0, 11)] true).handleAll
        playThenDeleteOps).bundle = [(6, 11)] ∧
      AudioMixer.sourceTimeAt (AudioPlayback.mixer { segments := [(0, 5), (6, 11)] } []) 1 =
        some 1 ∧
      sourceTimeAt ((BundleEditor.openBundle cutBundle [(0, 11)] true).handleAll
        playThenDeleteOps).bundle 1 = some 7 := by
  refine ⟨run_handleAll ?_, ?_, ?_, ?_, ?_, ?_⟩ <;> decide +kernel

end Blip.Capture
