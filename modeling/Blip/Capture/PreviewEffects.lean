import Blip.Capture.PreviewRequests
import Blip.Capture.EditorEffects

/-!
# How each event leaves the preview

A handler that changes what the preview shows is to ask for it, in the state it ends in. `Previewed`
says that it does, or changes nothing, and that a running playback stays in its generation. It holds
of every event but three: a pause, the last frame of a playback, and a press on a segment's edge
while the cursor is off the playhead.
-/

namespace Blip.Capture

open BundleEditor

/-- Two states ask for the same frame. -/
structure SamePreview (before after : BundleEditor) : Prop where
  bundle : after.bundle = before.bundle
  time : after.previewTimeSecs = before.previewTimeSecs
  generation : after.playbackGeneration = before.playbackGeneration

/-- Playback goes on, or not, as before. -/
structure KeepsPlayback (before after : BundleEditor) : Prop where
  isPlaying : after.isPlaying = before.isPlaying
  generation : after.playbackGeneration = before.playbackGeneration
  last : after.lastPlaybackPreviewTimeSecs = before.lastPlaybackPreviewTimeSecs

/-- The last request of a handler, if it makes one, asks for what its final state shows; without one
nothing changed. A playback that goes on keeps its generation. -/
structure Previewed (before after : BundleEditor) (asks : List BundleEditor) : Prop where
  settled : (∃ front last, asks = front ++ [last] ∧ SamePreview last after) ∨
    asks = [] ∧ SamePreview before after
  playing : after.isPlaying = true → KeepsPlayback before after ∧
    ∀ e ∈ asks, e.previewTimeSecs = before.previewTimeSecs ∨
      e.previewTimeSecs = after.previewTimeSecs
  segments : after.segments = [] → before.segments = [] ∧ ∀ e ∈ asks, e.segments = []

theorem SamePreview.refl (editor : BundleEditor) : SamePreview editor editor := ⟨rfl, rfl, rfl⟩

theorem KeepsPlayback.refl (editor : BundleEditor) : KeepsPlayback editor editor := ⟨rfl, rfl, rfl⟩

/-! ## Three ways to be previewed -/

section Ways

variable {before after : BundleEditor}

/-- Nothing that a preview shows changes. -/
theorem Previewed.same (hsame : SamePreview before after) (hkeeps : KeepsPlayback before after) :
    Previewed before after [] :=
  ⟨.inr ⟨rfl, hsame⟩, fun _ => ⟨hkeeps, fun _ he => absurd he List.not_mem_nil⟩,
    fun h => ⟨(segments_of_bundle hsame.bundle).symm.trans h,
      fun _ he => absurd he List.not_mem_nil⟩⟩

/-- The handler asks once, at its end. -/
theorem Previewed.once (hkeeps : after.isPlaying = true → KeepsPlayback before after)
    (hsegs : after.segments = [] → before.segments = []) : Previewed before after [after] := by
  refine ⟨.inl ⟨[], after, rfl, .refl _⟩, fun hplaying => ⟨hkeeps hplaying, ?_⟩,
    fun h => ⟨hsegs h, ?_⟩⟩
  · intro e he
    rw [List.mem_singleton.mp he]
    exact .inr rfl
  · intro e he
    rwa [List.mem_singleton.mp he]

theorem Previewed.edited (hkeeps : after.isPlaying = true → KeepsPlayback before after)
    (hsegs : after.segments = [] → before.segments = []) :
    Previewed before after (asksIfEdited before after) := by
  unfold asksIfEdited
  split
  · next heq =>
    rw [heq]
    exact .same (.refl _) (.refl _)
  · exact .once hkeeps hsegs

/-- A handler that asks at its end and leaves playback stopped. -/
theorem Previewed.stopped {front : List BundleEditor} (hstopped : after.isPlaying = false)
    (hsegs : after.segments = [] → before.segments = [] ∧ ∀ e ∈ front, e.segments = []) :
    Previewed before after (front ++ [after]) := by
  refine ⟨.inl ⟨front, after, rfl, .refl _⟩, by rw [hstopped]; rintro ⟨⟩, fun h => ?_⟩
  obtain ⟨hbefore, hfront⟩ := hsegs h
  refine ⟨hbefore, fun e he => ?_⟩
  rcases List.mem_append.mp he with he | he
  · exact hfront e he
  · rwa [List.mem_singleton.mp he]

/-- A seek, after whatever kept the bundle. -/
theorem Previewed.seek (hbundle : after.bundle = before.bundle) (timeSecs : Secs) :
    Previewed before (after.setPlaybackTime timeSecs) [after.setPlaybackTime timeSecs] := by
  refine .once (by rintro ⟨⟩) fun h => ?_
  rw [← segments_of_bundle hbundle]
  exact h

/-- Two handlers one after the other. The second may move the previewed time only if the first does
not. -/
theorem Previewed.append {middle : BundleEditor} {asks asks' : List BundleEditor}
    (h : Previewed before middle asks) (h' : Previewed middle after asks')
    (htime : middle.previewTimeSecs = before.previewTimeSecs) :
    Previewed before after (asks ++ asks') := by
  refine ⟨?_, ?_, ?_⟩
  · rcases h'.settled with ⟨front, last, hasks, hsame⟩ | ⟨hasks, hsame⟩
    · exact .inl ⟨asks ++ front, last, by rw [hasks, List.append_assoc], hsame⟩
    rcases h.settled with ⟨front, last, hasks', hsame'⟩ | ⟨hasks', hsame'⟩
    · refine .inl ⟨front, last, by rw [hasks, List.append_nil, hasks'], ?_⟩
      exact ⟨hsame.bundle.trans hsame'.bundle, hsame.time.trans hsame'.time,
        hsame.generation.trans hsame'.generation⟩
    · refine .inr ⟨by rw [hasks, hasks', List.append_nil], ?_⟩
      exact ⟨hsame.bundle.trans hsame'.bundle, hsame.time.trans hsame'.time,
        hsame.generation.trans hsame'.generation⟩
  · intro hplaying
    obtain ⟨hkeeps', htimes'⟩ := h'.playing hplaying
    obtain ⟨hkeeps, htimes⟩ := h.playing (hkeeps'.isPlaying ▸ hplaying)
    refine ⟨⟨hkeeps'.isPlaying.trans hkeeps.isPlaying,
      hkeeps'.generation.trans hkeeps.generation, hkeeps'.last.trans hkeeps.last⟩, ?_⟩
    intro e he
    rcases List.mem_append.mp he with he | he
    · rcases htimes e he with heq | heq
      · exact .inl heq
      · exact .inl (heq.trans htime)
    · rw [← htime]
      exact htimes' e he
  · intro hempty
    obtain ⟨hmiddle, hasks'⟩ := h'.segments hempty
    obtain ⟨hbefore, hasks⟩ := h.segments hmiddle
    refine ⟨hbefore, fun e he => ?_⟩
    rcases List.mem_append.mp he with he | he
    · exact hasks e he
    · exact hasks' e he

end Ways

namespace BundleEditor

variable (editor : BundleEditor)

/-! ## Playback under the edits -/

theorem deleteSelected_keepsPlayback : KeepsPlayback editor editor.deleteSelected := by
  unfold deleteSelected
  split
  · simp only
    split <;> exact ⟨rfl, rfl, rfl⟩
  unfold deleteSelectedVideoSegment
  split
  · split
    · exact .refl _
    · split
      · exact .refl _
      · split <;> exact ⟨rfl, rfl, rfl⟩
  · exact .refl _

theorem splitVideoSegment_keepsPlayback (id : UInt64) (t : Secs) :
    KeepsPlayback editor (editor.splitVideoSegment id t) := by
  rcases editor.splitVideoSegment_cases id t with heq | ⟨_, _, _, -, -, -, heq⟩ <;> rw [heq]
  · exact .refl _
  · exact ⟨rfl, rfl, rfl⟩

theorem activateVideoCut_keepsPlayback (rightId : UInt64) :
    KeepsPlayback editor (editor.activateVideoCut rightId) := by
  unfold activateVideoCut
  split
  · exact .refl _
  · simp only
    split
    · exact ⟨by simp, by simp, by simp⟩
    · exact ⟨rfl, rfl, rfl⟩

theorem activateVideoSegmentEdge_keepsPlayback (id : UInt64) (edge : VideoSegmentEdge) :
    KeepsPlayback editor (editor.activateVideoSegmentEdge id edge) := by
  unfold activateVideoSegmentEdge
  split
  · exact .refl _
  split
  · exact .refl _
  split
  · exact .refl _
  simp only
  split
  · exact .refl _
  · exact ⟨by simp, by simp, by simp⟩

theorem finishVideoSegmentDrag_keepsPlayback :
    KeepsPlayback editor editor.finishVideoSegmentDrag := by
  unfold finishVideoSegmentDrag
  split
  · exact .refl _
  simp only
  split
  · exact ⟨rfl, rfl, rfl⟩
  split
  · exact ⟨rfl, rfl, rfl⟩
  split
  · exact ⟨rfl, rfl, rfl⟩
  · exact ⟨by simp, by simp, by simp⟩

theorem finishZoomSegmentDrag_keepsPlayback :
    KeepsPlayback editor editor.finishZoomSegmentDrag := by
  rcases editor.finishZoomSegmentDrag_effect with heq | ⟨_, _, _, -, -, -, -, heq⟩ <;> rw [heq] <;>
    exact ⟨rfl, rfl, rfl⟩

theorem beginZoomSegmentDrag_keepsPlayback (id : UInt64) (kind : ZoomSegmentDragKind) (x : ℚ) :
    KeepsPlayback editor (editor.beginZoomSegmentDrag id kind x) := by
  rcases editor.beginZoomSegmentDrag_effect id kind x with heq | ⟨_, -, -, heq⟩ <;> rw [heq]
  · exact .refl _
  · exact ⟨rfl, rfl, rfl⟩

/-! ## No edit empties the timeline -/

/-- The timeline is empty only if it was. -/
def KeepsSegments (before after : BundleEditor) : Prop :=
  after.segments = [] → before.segments = []

theorem KeepsSegments.of_edited {before after : BundleEditor} {list : List VideoSegment}
    {zooms : List ZoomSegment} (h : Edited before after list zooms) (hne : list ≠ []) :
    KeepsSegments before after := by
  intro hempty
  rw [segments_of_edited h] at hempty
  exact absurd hempty hne

theorem KeepsSegments.of_bundle {before after : BundleEditor} (h : after.bundle = before.bundle) :
    KeepsSegments before after := by
  intro hempty
  rwa [← segments_of_bundle h]

theorem deleteSelected_keepsSegments : KeepsSegments editor editor.deleteSelected := by
  rcases editor.deleteSelected_effect with heq | ⟨id, -, heq⟩ | ⟨_, _, _, -, -, heffect⟩
  · rw [heq]
    exact id
  · rw [heq]
    intro h
    exact h
  · exact .of_edited heffect.edited heffect.rest

theorem activateVideoCut_keepsSegments (rightId : UInt64) :
    KeepsSegments editor (editor.activateVideoCut rightId) := by
  rcases editor.activateVideoCut_effect rightId with ⟨heq, -⟩ | ⟨edit, list, list', hcut, heffect⟩
  · rw [heq]
    exact id
  refine .of_edited heffect.edited ?_
  obtain ⟨pre, left, right, post, -, -, -, -, ⟨-, -, -, rfl⟩ | ⟨-, -, -, rfl⟩⟩ :=
    editVideoCut_cases hcut <;> simp

theorem activateVideoSegmentEdge_keepsSegments (id : UInt64) (edge : VideoSegmentEdge) :
    KeepsSegments editor (editor.activateVideoSegmentEdge id edge) := by
  rcases editor.activateVideoSegmentEdge_effect id edge with heq | ⟨_, _, _, -, -, heffect⟩
  · rw [heq]
    exact fun h => h
  · exact .of_edited heffect.edited (by simp)

theorem finishVideoSegmentDrag_keepsSegments :
    KeepsSegments editor editor.finishVideoSegmentDrag := by
  rcases editor.finishVideoSegmentDrag_effect with heq | ⟨_, _, _, _, -, heffect⟩
  · rw [heq]
    exact fun h => h
  · exact .of_edited heffect.edited (by simp)

/-! ## The handlers -/

variable {editor}

theorem previewed_pressTimeline (x : ℚ) :
    Previewed editor (editor.pressTimeline x) (editor.asksPressTimeline x) := by
  have hclear : Previewed editor editor.clearSelection [] := .same ⟨rfl, rfl, rfl⟩ ⟨rfl, rfl, rfl⟩
  unfold pressTimeline asksPressTimeline
  simp only
  split
  · cases editor.timelineTimeAt x with
    | none => exact hclear
    | some timeSecs => exact @Previewed.seek editor editor.clearSelection rfl timeSecs
  · exact hclear

theorem beginZoomSegmentDrag_bundle (id : UInt64) (kind : ZoomSegmentDragKind) (x : ℚ) :
    (editor.beginZoomSegmentDrag id kind x).bundle = editor.bundle := by
  rcases editor.beginZoomSegmentDrag_effect id kind x with heq | ⟨_, -, -, heq⟩ <;> rw [heq]

theorem previewed_beginZoomDrag (id : UInt64) (kind : ZoomSegmentDragKind) (x : ℚ) :
    Previewed editor (editor.beginZoomSegmentDrag id kind x)
      (editor.asksBeginZoomDrag id kind x) := by
  have hkeeps := editor.beginZoomSegmentDrag_keepsPlayback id kind x
  unfold asksBeginZoomDrag
  cases hfind : editor.bundle.zoomSegments.find? (fun segment => segment.id == id) with
  | none =>
    have heq : editor.beginZoomSegmentDrag id kind x = editor := by
      simp only [beginZoomSegmentDrag, hfind]
    rw [heq, Option.isSome_none, if_neg Bool.false_ne_true]
    exact .same (.refl _) (.refl _)
  | some segment =>
    rw [Option.isSome_some, if_pos rfl]
    exact .once (fun _ => hkeeps) (KeepsSegments.of_bundle (beginZoomSegmentDrag_bundle id kind x))

/-- A press on a zoom begins its drag and then seeks, asking at both. -/
theorem previewed_pressZoom (id : UInt64) (kind : ZoomSegmentDragKind) (x : ℚ) (timeSecs : Secs) :
    Previewed editor ((editor.beginZoomSegmentDrag id kind x).setPlaybackTime timeSecs)
      (editor.asksBeginZoomDrag id kind x ++
        [(editor.beginZoomSegmentDrag id kind x).setPlaybackTime timeSecs]) := by
  have hsegs := segments_of_bundle (@beginZoomSegmentDrag_bundle editor id kind x)
  refine .stopped rfl fun hempty => ?_
  have hbegin : (editor.beginZoomSegmentDrag id kind x).segments = [] := hempty
  refine ⟨hsegs ▸ hbegin, fun e he => ?_⟩
  unfold asksBeginZoomDrag at he
  split at he
  · rwa [List.mem_singleton.mp he]
  · exact absurd he List.not_mem_nil

theorem previewed_pressZoomSegment (id : UInt64) (x : ℚ) :
    Previewed editor (editor.pressZoomSegment id x) (editor.asks (.pressZoomSegment id x)) := by
  unfold pressZoomSegment
  simp only [asks]
  cases editor.timelineTimeAt x with
  | none =>
    have hbegin := @previewed_beginZoomDrag editor id .move x
    simpa only [asksSeek, Option.map_none, Option.toList_none, List.append_nil] using hbegin
  | some timeSecs => exact previewed_pressZoom id .move x timeSecs

theorem addZoom_keeps (startSecs endSecs : Secs) :
    KeepsPlayback editor (editor.addZoom startSecs endSecs) ∧
      KeepsSegments editor (editor.addZoom startSecs endSecs) := by
  unfold addZoom
  split
  · exact ⟨.refl _, id⟩
  · exact ⟨⟨rfl, rfl, rfl⟩, fun h => h⟩

theorem previewed_pressZoomTrack (x : ℚ) :
    Previewed editor (editor.pressZoomTrack x) (editor.asks (.pressZoomTrack x)) := by
  unfold pressZoomTrack
  simp only [asks]
  cases editor.timelineTimeAt x with
  | none => exact previewed_pressTimeline x
  | some timeSecs =>
    simp only
    cases editor.bundle.zoomSegments.find? (fun segment => segment.contains timeSecs) with
    | some segment => exact previewed_pressZoom segment.id .move x timeSecs
    | none =>
      simp only
      cases zoomSegmentRangeAt timeSecs editor.durationSecs editor.bundle.zoomSegments with
      | none => exact previewed_pressTimeline x
      | some range =>
        obtain ⟨hkeeps, hsegs⟩ := @addZoom_keeps editor range.1 range.2
        exact .edited (fun _ => hkeeps) hsegs

theorem previewed_pressVideoSegment (id : UInt64) (x : ℚ) :
    Previewed editor (editor.pressVideoSegment id x) (editor.asks (.pressVideoSegment id x)) := by
  rcases editor.pressVideoSegment_effect id x with heq | ⟨t, -, ⟨-, heq⟩ | ⟨-, heq⟩⟩ <;>
    simp only [asks] <;> rw [heq]
  · exact .edited (fun _ => .refl _) fun h => h
  · refine .edited (fun _ => editor.splitVideoSegment_keepsPlayback id t) ?_
    rcases editor.splitVideoSegment_cases id t with hsplit | ⟨_, _, _, -, -, -, hsplit⟩ <;>
      rw [hsplit]
    · exact fun h => h
    · intro h
      exact absurd h (by simp [segments, splitList])
  · refine .edited (by rintro ⟨⟩) ?_
    rcases editor.selectVideoSegment_effect id with hselect | ⟨-, hselect⟩ <;> rw [hselect] <;>
      exact fun h => h

/-- What a pointer move does to a drag: it keeps playback and the preview, or seeks. -/
def DragsOrSeeks (before dragged : BundleEditor) : Prop :=
  KeepsPlayback before dragged ∧ SamePreview before dragged ∨
    dragged.isPlaying = false ∧ dragged.playbackGeneration = before.playbackGeneration + 1 ∧
      KeepsSegments before dragged

theorem dragVideoSegment_dragsOrSeeks (event : MouseMoveEvent) :
    DragsOrSeeks editor (editor.dragVideoSegment event) := by
  rcases editor.dragVideoSegment_effect event with heq | ⟨drag, delta, t, -, heq⟩ <;> rw [heq]
  · exact Or.inl ⟨.refl _, .refl _⟩
  · exact Or.inr ⟨rfl, rfl, fun h => h⟩

theorem dragZoomSegment_dragsOrSeeks (event : MouseMoveEvent) :
    DragsOrSeeks editor (editor.dragZoomSegment event) := by
  rcases editor.dragZoomSegment_effect event with
    heq | heq | ⟨_, _, _, t, -, -, -, heq⟩ | ⟨_, _, _, t, -, -, heq⟩ <;> rw [heq]
  · exact Or.inl ⟨.refl _, .refl _⟩
  · exact Or.inl ⟨⟨rfl, rfl, rfl⟩, ⟨rfl, rfl, rfl⟩⟩
  · exact Or.inr ⟨rfl, rfl, fun h => h⟩
  · exact Or.inr ⟨rfl, rfl, fun h => h⟩

theorem previewed_hover (position : PointerPosition) :
    Previewed editor (editor.updateTimelineHover position)
      (asksIfEdited editor (editor.updateTimelineHover position)) := by
  obtain ⟨c, z, heq⟩ := editor.updateTimelineHover_effect position
  rw [heq]
  exact .edited (fun _ => ⟨rfl, rfl, rfl⟩) fun h => h

theorem uint64_succ_ne (n : UInt64) : n + 1 ≠ n := by
  intro h
  simp at h

theorem previewed_dragged {dragged : BundleEditor} (h : DragsOrSeeks editor dragged)
    (position : PointerPosition) :
    Previewed editor (dragged.updateTimelineHover position)
      ((if dragged.playbackGeneration = editor.playbackGeneration then [] else [dragged]) ++
        asksIfEdited dragged (dragged.updateTimelineHover position)) := by
  have hover := @previewed_hover dragged position
  generalize hmoved : dragged.updateTimelineHover position = moved at hover
  rcases h with ⟨hkeeps, hsame⟩ | ⟨hstopped, hgeneration, hsegs⟩
  · rw [if_pos hkeeps.generation, List.nil_append]
    refine ⟨?_, ?_, ?_⟩
    · refine hover.settled.imp id fun ⟨hnone, hsame'⟩ => ⟨hnone, ?_⟩
      exact ⟨hsame'.bundle.trans hsame.bundle, hsame'.time.trans hsame.time,
        hsame'.generation.trans hsame.generation⟩
    · intro hplaying
      obtain ⟨hkeeps', htimes⟩ := hover.playing hplaying
      refine ⟨⟨hkeeps'.isPlaying.trans hkeeps.isPlaying,
        hkeeps'.generation.trans hkeeps.generation, hkeeps'.last.trans hkeeps.last⟩, ?_⟩
      rw [← hsame.time]
      exact htimes
    · intro hempty
      obtain ⟨hdraggedEmpty, hasks⟩ := hover.segments hempty
      exact ⟨(segments_of_bundle hsame.bundle).symm.trans hdraggedEmpty, hasks⟩
  · rw [if_neg (by rw [hgeneration]; exact uint64_succ_ne _)]
    -- the seek stopped playback, so the hover cannot be of a running one
    have hnotPlaying : moved.isPlaying = false := by
      rw [← hmoved]
      obtain ⟨c, z, heq⟩ := dragged.updateTimelineHover_effect position
      rw [heq]
      exact hstopped
    refine ⟨.inl ?_, by rw [hnotPlaying]; rintro ⟨⟩, ?_⟩
    · rcases hover.settled with ⟨front, last, hasks, hsame⟩ | ⟨hasks, hsame⟩
      · exact ⟨[dragged] ++ front, last, by rw [hasks, List.append_assoc], hsame⟩
      · exact ⟨[], dragged, by rw [hasks]; rfl, hsame⟩
    · intro hempty
      obtain ⟨hdraggedEmpty, hasks⟩ := hover.segments hempty
      refine ⟨hsegs hdraggedEmpty, fun e he => ?_⟩
      rcases List.mem_append.mp he with he | he
      · rwa [List.mem_singleton.mp he]
      · exact hasks e he

theorem previewed_mouseMove (dragging : Bool) (position : PointerPosition) :
    Previewed editor (editor.mouseMove dragging position)
      (editor.asks (.mouseMove dragging position)) := by
  cases hdrag : editor.videoSegmentDrag with
  | some drag =>
    simp only [mouseMove, asks, asksMouseMove, hdrag]
    exact previewed_dragged (dragVideoSegment_dragsOrSeeks _) position
  | none =>
    simp only [mouseMove, asks, asksMouseMove, hdrag]
    exact previewed_dragged (dragZoomSegment_dragsOrSeeks _) position

theorem previewed_finishZoomDrag :
    Previewed editor editor.finishZoomSegmentDrag editor.asksFinishZoomDrag := by
  have hkeeps := editor.finishZoomSegmentDrag_keepsPlayback
  rcases editor.finishZoomSegmentDrag_effect with
    heq | ⟨drag, edge, zooms, hdrag, hkind, hmoved, hset, heq⟩
  · -- nothing is written, so asking or not comes to the same
    have hsame : SamePreview editor editor.finishZoomSegmentDrag := by
      rw [heq]
      exact ⟨rfl, rfl, rfl⟩
    unfold asksFinishZoomDrag
    split
    · exact .same hsame hkeeps
    split
    · exact .once (fun _ => hkeeps) (KeepsSegments.of_bundle hsame.bundle)
    · exact .same hsame hkeeps
  · have hfound : editor.bundle.zoomSegments.any (fun segment => segment.id == drag.id) = true := by
      rcases setZoomRange_cases editor.bundle.zoomSegments drag.id drag.draftStartSecs
        drag.draftEndSecs with ⟨hnone, -⟩ | ⟨pre, zoom, post, hlist, hid, -⟩
      · rw [hnone] at hset
        cases hset
      · rw [hlist, List.any_eq_true]
        exact ⟨zoom, by simp, by simpa using hid⟩
    have hasks : editor.asksFinishZoomDrag = [editor.finishZoomSegmentDrag] := by
      simp only [asksFinishZoomDrag, hdrag]
      exact if_pos ⟨by rw [hkind]; rintro ⟨⟩, hmoved, hfound⟩
    rw [hasks]
    refine .once (fun _ => hkeeps) ?_
    rw [heq]
    exact fun h => h

theorem previewed_finishVideoDrag :
    Previewed editor editor.finishVideoSegmentDrag editor.asksFinishVideoDrag := by
  have hkeeps := editor.finishVideoSegmentDrag_keepsPlayback
  have hsegs := editor.finishVideoSegmentDrag_keepsSegments
  unfold asksFinishVideoDrag
  rcases editor.finishVideoSegmentDrag_effect with heq | ⟨drag, pre, segment, post, -, heffect⟩
  · have hsame : SamePreview editor editor.finishVideoSegmentDrag := by
      rw [heq]
      exact ⟨rfl, rfl, rfl⟩
    split
    · exact .same hsame hkeeps
    split
    · exact .once (fun _ => hkeeps) hsegs
    · exact .same hsame hkeeps
  · have hfound : editor.segments.any (fun segment => segment.id == drag.id) = true := by
      rw [segments_of_some heffect.before_segments, List.any_eq_true]
      exact ⟨segment, by simp, by simpa using heffect.id⟩
    rw [heffect.inProgress]
    simp only
    rw [if_pos hfound]
    exact .once (fun _ => hkeeps) hsegs

theorem previewed_mouseUp :
    Previewed editor (editor.handle .mouseUp) (editor.asks .mouseUp) := by
  refine .append previewed_finishZoomDrag previewed_finishVideoDrag ?_
  rcases editor.finishZoomSegmentDrag_effect with heq | ⟨_, _, _, -, -, -, -, heq⟩ <;> rw [heq] <;>
    rfl

/-- The callback of a playback frame finds the end of the timeline. -/
def endsPlayback (editor : BundleEditor) (generation : UInt64) (now : Secs) : Bool :=
  editor.isPlaying && editor.playbackGeneration == generation &&
    editor.playbackStartedAt.any fun started =>
      (playbackPosition started.2 (max (now - started.1) 0) editor.durationSecs).2

theorem previewed_playbackFrame {generation : UInt64} {now : Secs}
    (hend : editor.endsPlayback generation now = false) :
    Previewed editor (editor.playbackFrame generation now)
      (editor.asks (.playbackFrame generation now)) := by
  simp only [asks, playbackFrame, asksPlaybackFrame]
  split
  · exact .same (.refl _) (.refl _)
  next hcurrent =>
  cases hstarted : editor.playbackStartedAt with
  | none => exact .same (.refl _) (.refl _)
  | some started =>
    rw [not_or, Bool.not_eq_false, not_not] at hcurrent
    have hgoing : (playbackPosition started.2 (max (now - started.1) 0)
        editor.durationSecs).2 = false := by
      simpa [endsPlayback, hcurrent.1, hcurrent.2, hstarted] using hend
    simp only [hgoing, Bool.false_eq_true, if_false]
    exact .once (fun _ => ⟨rfl, rfl, rfl⟩) fun h => h

/-- The events that leave the preview asked for: any but a start or stop of playback, its last frame
and a press on a segment's edge with the cursor off the playhead. -/
def previewsEvent (editor : BundleEditor) : EditorOp → Prop
  | .togglePlayback _ _ => False
  | .playbackFrame generation now => editor.endsPlayback generation now = false
  | .pressVideoSegmentEdge _ _ _ => editor.previewTimeSecs = editor.currentTimeSecs
  | _ => True

theorem previewed {op : EditorOp} (h : editor.previewsEvent op) :
    Previewed editor (editor.handle op) (editor.asks op) := by
  cases op with
  | layout | setReduceMotion | toggleCutMode | escape =>
    exact .same ⟨rfl, rfl, rfl⟩ ⟨rfl, rfl, rfl⟩
  | moveTimelineZoomSlider bounds x =>
    simp only [handle, asks, setTimelineZoom]
    split
    · exact .same (.refl _) (.refl _)
    · exact .same ⟨rfl, rfl, rfl⟩ ⟨rfl, rfl, rfl⟩
  | resizeTick task elapsed =>
    simp only [handle, asks, resizeTick]
    split
    · exact .same ⟨rfl, rfl, rfl⟩ ⟨rfl, rfl, rfl⟩
    · split <;> exact .same ⟨rfl, rfl, rfl⟩ ⟨rfl, rfl, rfl⟩
  | deleteSelected =>
    exact .edited (fun _ => editor.deleteSelected_keepsPlayback) editor.deleteSelected_keepsSegments
  | openCropDialog => exact .once (by rintro ⟨⟩) fun h => h
  | pressTimeline x => exact previewed_pressTimeline x
  | pressVideoSegment id x => exact previewed_pressVideoSegment id x
  | pressVideoSegmentEdge id edge x =>
    rcases editor.beginVideoSegmentDrag_cases id edge x with
      ⟨heq, -⟩ | ⟨_, _, _, -, -, -, heq⟩ <;> simp only [handle, asks] <;> rw [heq]
    · exact .same (.refl _) (.refl _)
    · exact .same ⟨rfl, h.symm, rfl⟩ ⟨rfl, rfl, rfl⟩
  | pressZoomTrack x => exact previewed_pressZoomTrack x
  | pressZoomSegment id x => exact previewed_pressZoomSegment id x
  | pressZoomSegmentEdge id edge x => exact previewed_beginZoomDrag id (.resize edge) x
  | clickCut rightId =>
    exact .edited (fun _ => editor.activateVideoCut_keepsPlayback rightId)
      (editor.activateVideoCut_keepsSegments rightId)
  | clickVideoSegmentEdge id edge =>
    exact .edited (fun _ => editor.activateVideoSegmentEdge_keepsPlayback id edge)
      (editor.activateVideoSegmentEdge_keepsSegments id edge)
  | mouseMove dragging position => exact previewed_mouseMove dragging position
  | mouseUp => exact previewed_mouseUp
  | mouseExit =>
    simp only [handle, asks]
    obtain ⟨c, z, heq⟩ := editor.exitTimeline_effect
    rw [heq]
    exact .edited (fun _ => ⟨rfl, rfl, rfl⟩) fun h => h
  | pinch event =>
    refine .edited (fun _ => ?_) (KeepsSegments.of_bundle (editor.handle_quiet rfl).bundle)
    simp only [handle, zoomTimeline]
    split
    · exact .refl _
    · split <;> exact ⟨rfl, rfl, rfl⟩
  | scroll event =>
    refine .edited (fun _ => ?_) (KeepsSegments.of_bundle (editor.handle_quiet rfl).bundle)
    simp only [handle, panTimeline]
    split
    · exact .refl _
    · split <;> exact ⟨rfl, rfl, rfl⟩
  | playbackBack => exact @Previewed.seek editor editor rfl _
  | playbackForward => exact @Previewed.seek editor editor rfl _
  | togglePlayback now audioStarts => exact h.elim
  | playbackFrame generation now => exact previewed_playbackFrame h

end BundleEditor

end Blip.Capture
