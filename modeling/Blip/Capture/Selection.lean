import Blip.Capture.EditorEffects

/-!
# The two selections of the editor

A zoom or a video segment can be selected, each in a field of its own, and every handler that sets
one clears the other by hand. `activate_video_cut` does not: it compares the selected segment with
the one a merge removed, and when it filled a gap instead and nothing was selected, both are absent
and compare equal. `selection_coherent` says that this is the only way to a broken selection.
-/

namespace Blip.Capture

open Splice
open BundleEditor (KeepsTimeline)

/-- At most one selection is set, and it names a segment that exists. -/
structure SelectionWf (editor : BundleEditor) : Prop where
  atMostOne : editor.selectedZoom = none ∨ editor.selectedVideoSegment = none
  zoom : ∀ id, editor.selectedZoom = some id → ∃ z ∈ editor.bundle.zoomSegments, z.id = id
  videoSegment : ∀ id, editor.selectedVideoSegment = some id → ∃ s ∈ editor.segments, s.id = id

/-- Activating a cut leaves the selection alone, unless it merged the selected segment into its left
neighbour, which is then selected. -/
def CutKeepsSelection (editor : BundleEditor) (rightId : UInt64) : Prop :=
  (editor.activateVideoCut rightId).selectedZoom = editor.selectedZoom ∧
    ((editor.activateVideoCut rightId).selectedVideoSegment = editor.selectedVideoSegment ∨
      ∃ pre left right post merged, editor.segments = pre ++ left :: right :: post ∧
        (editor.activateVideoCut rightId).segments = pre ++ merged :: post ∧
        right.id = rightId ∧ merged.id = left.id ∧
        editor.selectedVideoSegment = some right.id ∧
        (editor.activateVideoCut rightId).selectedVideoSegment = some left.id)

/-- Whether activating a cut fills a gap, rather than merging the segments beside it. -/
def BundleEditor.fillsGap (editor : BundleEditor) (rightId : UInt64) : Bool :=
  (editor.bundle.videoSegments.bind fun segments => editVideoCut segments rightId).any
    fun result => result.1.removedId.isNone

/-- The steps that keep the selection coherent: a gap is filled while a segment is selected. -/
def SelectionStepOk (editor : BundleEditor) : EditorOp → Prop
  | .clickCut rightId => editor.fillsGap rightId = true → editor.selectedVideoSegment ≠ none
  | _ => True

/-- A segment drag begins with the zoom selection cleared, and nothing under it sets one. -/
structure SelectionInv (editor : BundleEditor) : Prop extends SelectionWf editor where
  drag : editor.videoSegmentDrag ≠ none → editor.selectedZoom = none

/-! ## Activating a cut -/

theorem fillsGap_of_cut {editor : BundleEditor} {rightId : UInt64} {edit : VideoCutEdit}
    {segments segments' : List VideoSegment}
    (hsegs : editor.bundle.videoSegments = some segments)
    (hcut : editVideoCut segments rightId = some (edit, segments')) :
    editor.fillsGap rightId = edit.removedId.isNone := by
  simp [BundleEditor.fillsGap, hsegs, hcut]

theorem cutKeepsSelection {editor : BundleEditor} {rightId : UInt64}
    (hok : SelectionStepOk editor (.clickCut rightId)) : CutKeepsSelection editor rightId := by
  rcases editor.activateVideoCut_effect rightId with
    ⟨heq, -⟩ | ⟨edit, list, list', hcut, heffect⟩
  · rw [CutKeepsSelection, heq]
    exact ⟨rfl, .inl rfl⟩
  have hgap := fillsGap_of_cut heffect.before_segments hcut
  refine ⟨heffect.selectedZoom, ?_⟩
  rw [heffect.selectedVideoSegment, segments_of_edited heffect.edited]
  obtain ⟨pre, left, right, post, rfl, hid, hleft, -, ⟨-, -, hnone, -⟩ | ⟨-, -, hremoved, rfl⟩⟩ :=
    editVideoCut_cases hcut
  · -- a filled gap removes nothing, and something was selected
    rw [hnone, Option.isNone_none] at hgap
    rw [hnone, if_neg (hok hgap)]
    exact .inl rfl
  · rw [hremoved]
    split
    · next hselected =>
      exact .inr ⟨pre, left, right, post, _, segments_of_some heffect.before_segments, rfl, hid,
        rfl, hselected, by rw [hleft]⟩
    · exact .inl rfl

/-! ## What each operation keeps -/

section Steps

variable {editor editor' : BundleEditor}

/-- An operation that keeps both selections keeps them coherent, as long as it keeps the identifiers
they may name and begins no segment drag. -/
theorem SelectionInv.keep (h : SelectionInv editor)
    (hzoom : editor'.selectedZoom = editor.selectedZoom)
    (hvideo : editor'.selectedVideoSegment = editor.selectedVideoSegment)
    (hzooms : editor'.selectedZoom ≠ none → ∀ z ∈ editor.bundle.zoomSegments,
      ∃ z' ∈ editor'.bundle.zoomSegments, z'.id = z.id)
    (hsegs : ∀ s ∈ editor.segments, ∃ s' ∈ editor'.segments, s'.id = s.id)
    (hdrag : editor'.videoSegmentDrag ≠ none → editor.videoSegmentDrag ≠ none) :
    SelectionInv editor' := by
  refine ⟨⟨?_, ?_, ?_⟩, fun h' => hzoom.trans (h.drag (hdrag h'))⟩
  · rw [hzoom, hvideo]
    exact h.atMostOne
  · intro id hid
    obtain ⟨z, hz, rfl⟩ := h.zoom id (hzoom ▸ hid)
    exact hzooms (by rw [hid]; exact Option.some_ne_none _) z hz
  · intro id hid
    obtain ⟨s, hs, rfl⟩ := h.videoSegment id (hvideo ▸ hid)
    exact hsegs s hs

/-- An operation on neither selection, bundle nor drags. -/
theorem SelectionInv.same (h : SelectionInv editor) (hsame : KeepsTimeline editor editor') :
    SelectionInv editor' := by
  refine h.keep hsame.selectedZoom hsame.selectedVideoSegment ?_ ?_ ?_
  · intro _ z hz
    exact ⟨z, hsame.bundle ▸ hz, rfl⟩
  · intro s hs
    exact ⟨s, segments_of_bundle hsame.bundle ▸ hs, rfl⟩
  · intro hne
    rwa [← hsame.videoSegmentDrag]

/-- A zoom segment keeps its identifier when its range is written. -/
theorem exists_id_setZoomRange {zooms zooms' : List ZoomSegment} {id : UInt64} {a b : Secs}
    (h : setZoomRange zooms id a b = some zooms') :
    ∀ z ∈ zooms, ∃ z' ∈ zooms', z'.id = z.id := by
  rcases BundleEditor.setZoomRange_cases zooms id a b with
    ⟨hnone, -⟩ | ⟨pre, zoom, post, rfl, -, hset⟩
  · rw [hnone] at h
    cases h
  rw [hset] at h
  cases h
  exact exists_key_middle rfl

theorem selectionInv_clearSelection (editor : BundleEditor) :
    SelectionInv editor.clearSelection :=
  ⟨⟨.inl rfl, nofun, nofun⟩, fun _ => rfl⟩

theorem SelectionInv.setPlaybackTime (h : SelectionInv editor) (t : Secs) :
    SelectionInv (editor.setPlaybackTime t) :=
  h.same ⟨rfl, rfl, rfl, rfl, rfl, rfl⟩

theorem selectionInv_pressTimeline (editor : BundleEditor) (x : ℚ) :
    SelectionInv (editor.pressTimeline x) := by
  rcases editor.pressTimeline_effect x with heq | ⟨t, heq⟩ <;> rw [heq]
  · exact selectionInv_clearSelection editor
  · exact (selectionInv_clearSelection editor).setPlaybackTime t

theorem SelectionInv.beginZoomDrag (h : SelectionInv editor) (hfree : editor.videoSegmentDrag = none)
    (id : UInt64) (kind : ZoomSegmentDragKind) (x : ℚ) :
    SelectionInv (editor.beginZoomSegmentDrag id kind x) := by
  rcases editor.beginZoomSegmentDrag_effect id kind x with heq | ⟨zoom, hzoom, hid, heq⟩
  · rwa [heq]
  rw [heq]
  refine ⟨⟨.inr rfl, ?_, nofun⟩, fun h' => absurd hfree h'⟩
  intro id' hid'
  cases hid'
  exact ⟨zoom, hzoom, hid⟩

theorem SelectionInv.addZoom (h : SelectionInv editor) (hfree : editor.videoSegmentDrag = none)
    (a b : Secs) : SelectionInv (editor.addZoom a b) := by
  unfold BundleEditor.addZoom
  split
  · exact h
  · refine ⟨⟨.inr rfl, ?_, nofun⟩, fun h' => absurd hfree h'⟩
    intro id hid
    cases hid
    exact ⟨_, List.mem_append_right _ (List.mem_singleton_self _), rfl⟩

theorem SelectionInv.pressZoomTrack (h : SelectionInv editor)
    (hfree : editor.videoSegmentDrag = none) (x : ℚ) : SelectionInv (editor.pressZoomTrack x) := by
  rcases editor.pressZoomTrack_effect x with
    heq | ⟨id, t, heq⟩ | ⟨t, range, -, -, -, heq⟩ <;> rw [heq]
  · exact selectionInv_pressTimeline editor x
  · exact (h.beginZoomDrag hfree id .move x).setPlaybackTime t
  · exact h.addZoom hfree _ _

theorem SelectionInv.pressVideoSegment (h : SelectionInv editor) (id : UInt64) (x : ℚ) :
    SelectionInv (editor.pressVideoSegment id x) := by
  rcases editor.pressVideoSegment_effect id x with
    heq | ⟨t, -, ⟨-, heq⟩ | ⟨-, heq⟩⟩ <;> rw [heq]
  · exact h
  · rcases editor.splitVideoSegment_cases id t with
      hsplit | ⟨pre, segment, post, -, -, -, hsplit⟩ <;> rw [hsplit]
    · exact h
    refine ⟨⟨.inl rfl, nofun, ?_⟩, fun _ => rfl⟩
    intro id' hid'
    cases hid'
    exact ⟨_, List.mem_append_right _ (List.mem_cons_of_mem _ List.mem_cons_self), rfl⟩
  · rcases editor.selectVideoSegment_effect id with hselect | ⟨hexists, hselect⟩ <;> rw [hselect]
    · exact h.setPlaybackTime t
    · refine ⟨⟨.inl rfl, nofun, ?_⟩, fun _ => rfl⟩
      intro id' hid'
      cases hid'
      exact hexists

theorem SelectionInv.beginVideoDrag (h : SelectionInv editor) (id : UInt64)
    (edge : VideoSegmentEdge) (x : ℚ) :
    SelectionInv (editor.beginVideoSegmentDrag id edge x) := by
  rcases editor.beginVideoSegmentDrag_cases id edge x with
    ⟨heq, -⟩ | ⟨pre, segment, post, hsegs, hid, -, heq⟩ <;> rw [heq]
  · exact h
  refine ⟨⟨.inl rfl, nofun, ?_⟩, fun _ => rfl⟩
  intro id' hid'
  cases hid'
  refine ⟨segment, ?_, hid⟩
  have hmem : segment ∈ editor.segments := by
    rw [segments_of_some hsegs]
    simp
  exact hmem

theorem SelectionInv.deleteSelected (h : SelectionInv editor) :
    SelectionInv editor.deleteSelected := by
  rcases editor.deleteSelected_cases with heq | ⟨id, hselected, heq⟩ | heq <;> rw [heq]
  · exact h
  · -- deleting the selected zoom leaves at most the other selection, and no zoom was dragged over
    refine ⟨⟨.inl rfl, nofun, ?_⟩, fun _ => rfl⟩
    intro id' hid'
    exact h.videoSegment id' hid'
  rcases editor.deleteSelectedVideoSegment_effect with heq | ⟨pre, segment, post, -, heffect⟩
  · rwa [heq]
  have hzoom : editor.deleteSelectedVideoSegment.selectedZoom = none := by
    rw [heffect.selectedZoom]
    exact h.atMostOne.resolve_right (by rw [heffect.selected]; exact Option.some_ne_none _)
  obtain ⟨s, hs, hnext⟩ := heffect.selectedVideoSegment
  refine ⟨⟨.inl hzoom, by rw [hzoom]; exact nofun, ?_⟩, fun _ => hzoom⟩
  intro id hid
  rw [hnext] at hid
  cases hid
  exact ⟨s, by rwa [segments_of_edited heffect.edited], rfl⟩

theorem SelectionInv.activateCut (h : SelectionInv editor) {rightId : UInt64}
    (hok : SelectionStepOk editor (.clickCut rightId))
    (hfree : editor.videoSegmentDrag = none) :
    SelectionInv (editor.activateVideoCut rightId) := by
  rcases editor.activateVideoCut_effect rightId with
    ⟨heq, -⟩ | ⟨edit, list, list', hcut, heffect⟩
  · rwa [heq]
  have hdrag : (editor.activateVideoCut rightId).videoSegmentDrag = none :=
    heffect.videoSegmentDrag.trans hfree
  have hgap := fillsGap_of_cut heffect.before_segments hcut
  have hsegs := segments_of_edited heffect.edited
  have hlist := segments_of_some heffect.before_segments
  -- the zooms keep their identifiers, whether or not a range was opened
  have hzooms : ∀ z ∈ editor.bundle.zoomSegments,
      ∃ z' ∈ (editor.activateVideoCut rightId).bundle.zoomSegments, z'.id = z.id := by
    intro z hz
    rw [heffect.edited.bundle]
    split
    · exact ⟨_, List.mem_map_of_mem hz, rfl⟩
    · exact ⟨z, hz, rfl⟩
  have hzoom : ∀ id, (editor.activateVideoCut rightId).selectedZoom = some id →
      ∃ z ∈ (editor.activateVideoCut rightId).bundle.zoomSegments, z.id = id := by
    intro id hid
    rw [heffect.selectedZoom] at hid
    obtain ⟨z, hz, rfl⟩ := h.zoom id hid
    exact hzooms z hz
  obtain ⟨pre, left, right, post, rfl, -, hleft, -, ⟨-, -, hnone, rfl⟩ | ⟨-, -, hremoved, rfl⟩⟩ :=
    editVideoCut_cases hcut
  · -- a filled gap keeps the selection
    rw [hnone, Option.isNone_none] at hgap
    refine h.keep heffect.selectedZoom ?_ (fun _ => hzooms) ?_ (by rw [hdrag]; exact absurd rfl)
    · rw [heffect.selectedVideoSegment, hnone, if_neg (hok hgap)]
    · rw [hlist, hsegs]
      exact exists_key_middle rfl
  · -- a merge keeps it, or moves it from the removed segment to the left one
    refine ⟨⟨?_, hzoom, ?_⟩, fun h' => absurd hdrag h'⟩
    · rw [heffect.selectedZoom, heffect.selectedVideoSegment, hremoved]
      rcases h.atMostOne with hz | hv
      · exact .inl hz
      · rw [hv, if_neg (Option.some_ne_none _).symm]
        exact .inr rfl
    · intro id hid
      rw [heffect.selectedVideoSegment, hremoved] at hid
      rw [hsegs]
      split at hid
      · cases hid
        exact ⟨_, List.mem_append_right _ List.mem_cons_self, hleft.symm⟩
      · next hother =>
        obtain ⟨s, hs, rfl⟩ := h.videoSegment id hid
        rw [hlist] at hs
        rcases List.mem_append.mp hs with hs | hs
        · exact ⟨s, by simp [hs], rfl⟩
        rcases List.mem_cons.mp hs with rfl | hs
        · exact ⟨_, List.mem_append_right _ List.mem_cons_self, rfl⟩
        rcases List.mem_cons.mp hs with rfl | hs
        · exact absurd hid hother
        · exact ⟨s, by simp [hs], rfl⟩

theorem SelectionInv.expandEdge (h : SelectionInv editor) (id : UInt64) (edge : VideoSegmentEdge) :
    SelectionInv (editor.activateVideoSegmentEdge id edge) := by
  rcases editor.activateVideoSegmentEdge_effect id edge with
    heq | ⟨pre, segment, post, -, -, heffect⟩
  · rwa [heq]
  refine h.keep heffect.selectedZoom heffect.selectedVideoSegment ?_ ?_
    (by rw [heffect.videoSegmentDrag]; exact fun h' => h')
  · intro _ z hz
    rw [heffect.edited.bundle]
    exact ⟨_, List.mem_map_of_mem hz, rfl⟩
  · rw [segments_of_some heffect.before_segments, segments_of_edited heffect.edited]
    have hid : (editor.expandSegmentEdge segment edge (totalDuration pre)).1.id = segment.id := by
      cases edge <;> rfl
    exact exists_key_middle hid

theorem SelectionInv.mouseMove (h : SelectionInv editor) (dragging : Bool)
    (position : PointerPosition) : SelectionInv (editor.mouseMove dragging position) := by
  unfold BundleEditor.mouseMove
  simp only
  have hover : ∀ moved : BundleEditor, SelectionInv moved →
      SelectionInv (moved.updateTimelineHover position) := by
    intro moved hmoved
    obtain ⟨c, z, heq⟩ := moved.updateTimelineHover_effect position
    rw [heq]
    exact hmoved.same ⟨rfl, rfl, rfl, rfl, rfl, rfl⟩
  apply hover
  split
  · rcases editor.dragVideoSegment_effect { positionX := position.x, dragging } with
      heq | ⟨drag, delta, t, hdrag, heq⟩ <;> rw [heq]
    · exact h
    · apply SelectionInv.setPlaybackTime
      refine h.keep rfl rfl (fun _ z hz => ⟨z, hz, rfl⟩) (fun s hs => ⟨s, hs, rfl⟩) ?_
      intro _
      rw [hdrag]
      exact Option.some_ne_none _
  · rcases editor.dragZoomSegment_effect { positionX := position.x, dragging } with
      heq | heq | ⟨drag, delta, zooms, t, -, -, hset, heq⟩ | ⟨drag, edge, delta, t, -, -, heq⟩ <;>
      rw [heq]
    · exact h
    · exact h.keep rfl rfl (fun _ z hz => ⟨z, hz, rfl⟩) (fun s hs => ⟨s, hs, rfl⟩) id
    · apply SelectionInv.setPlaybackTime
      exact h.keep rfl rfl (fun _ => exists_id_setZoomRange hset) (fun s hs => ⟨s, hs, rfl⟩) id
    · exact h.keep rfl rfl (fun _ z hz => ⟨z, hz, rfl⟩) (fun s hs => ⟨s, hs, rfl⟩) id

theorem SelectionInv.mouseUp (h : SelectionInv editor) :
    SelectionInv editor.finishZoomSegmentDrag.finishVideoSegmentDrag := by
  have hzoom : SelectionInv editor.finishZoomSegmentDrag := by
    rcases editor.finishZoomSegmentDrag_effect with
      heq | ⟨drag, edge, zooms, -, -, -, hset, heq⟩ <;> rw [heq]
    · exact h.keep rfl rfl (fun _ z hz => ⟨z, hz, rfl⟩) (fun s hs => ⟨s, hs, rfl⟩) id
    · exact h.keep rfl rfl (fun _ => exists_id_setZoomRange hset) (fun s hs => ⟨s, hs, rfl⟩) id
  generalize editor.finishZoomSegmentDrag = released at hzoom
  rcases released.finishVideoSegmentDrag_effect with
    heq | ⟨drag, pre, segment, post, -, heffect⟩
  · rw [heq]
    exact hzoom.keep rfl rfl (fun _ z hz => ⟨z, hz, rfl⟩) (fun s hs => ⟨s, hs, rfl⟩) nofun
  -- the release writes back the zooms of the drag's start, but no zoom is selected
  have hnone : released.selectedZoom = none :=
    hzoom.drag (by rw [heffect.inProgress]; exact Option.some_ne_none _)
  refine hzoom.keep heffect.selectedZoom heffect.selectedVideoSegment ?_ ?_ ?_
  · intro hne
    exact absurd (heffect.selectedZoom.trans hnone) hne
  · rw [segments_of_some heffect.before_segments, segments_of_edited heffect.edited]
    exact exists_key_middle rfl
  · rw [heffect.videoSegmentDrag]
    exact absurd rfl

/-- Every step that meets `SelectionStepOk` keeps the selections coherent. -/
theorem SelectionInv.step (h : SelectionInv editor) {op : EditorOp}
    (hok : SelectionStepOk editor op) (hstep : editorSystem.step editor op editor') :
    SelectionInv editor' := by
  obtain ⟨hcan, rfl⟩ := hstep
  have hfree : editor.buttonFree = true → editor.videoSegmentDrag = none :=
    fun h' => (buttonFree_iff.mp h').2
  cases op with
  | layout | setReduceMotion | toggleCutMode | openCropDialog | moveTimelineZoomSlider | mouseExit
  | pinch | scroll | resizeTick | playbackBack | playbackForward | togglePlayback | playbackFrame =>
    exact h.same (editor.handle_quiet rfl)
  | escape => exact selectionInv_clearSelection editor
  | deleteSelected => exact h.deleteSelected
  | pressTimeline x => exact selectionInv_pressTimeline editor x
  | pressVideoSegment id x => exact h.pressVideoSegment id x
  | pressVideoSegmentEdge id edge x => exact h.beginVideoDrag id edge x
  | pressZoomTrack x => exact h.pressZoomTrack (hfree hcan) x
  | pressZoomSegment id x =>
    have hbegin := h.beginZoomDrag (hfree hcan) id .move x
    rcases editor.pressZoomSegment_effect id x with heq | ⟨t, heq⟩ <;>
      rw [BundleEditor.handle, heq]
    · exact hbegin
    · exact hbegin.setPlaybackTime t
  | pressZoomSegmentEdge id edge x => exact h.beginZoomDrag (hfree hcan) id _ x
  | clickCut rightId => exact h.activateCut hok (hfree hcan)
  | clickVideoSegmentEdge id edge => exact h.expandEdge id edge
  | mouseMove dragging position => exact h.mouseMove dragging position
  | mouseUp => exact h.mouseUp

end Steps

/-- A zoom as `add_zoom` makes it. -/
def plainZoom (id : UInt64) (startSecs endSecs : Secs) : ZoomSegment where
  id := id
  startSecs := startSecs
  endSecs := endSecs
  target := (1 / 2, 1 / 2)
  amount := 2
  transition := .medium

/-- Two segments with a second of the source between them, under a zoom. -/
def gapBundle : BlipBundle where
  zoomSegments := [plainZoom 1 1 3]
  videoSegments := some [{ id := 1, sourceStartSecs := 0, sourceEndSecs := 4 },
    { id := 2, sourceStartSecs := 5, sourceEndSecs := 10 }]

/-- Select the second segment, then fill the gap before it and merge the two. -/
def selectThenCutOps : List EditorOp :=
  [.layout { originX := 0, width := 100 }, .pressVideoSegment 2 60, .clickCut 2, .clickCut 2]

/-- Select the zoom, then fill the gap. -/
def zoomThenCutOps : List EditorOp :=
  [.layout { originX := 0, width := 100 }, .pressZoomSegment 1 20, .mouseUp, .clickCut 2]

end Blip.Capture
