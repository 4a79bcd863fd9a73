import Mathlib.Tactic.Ring
import Blip.Capture.ZoomRanges
import Blip.Capture.EditorDuration
import Blip.Capture.Selection

/-!
# The zooms of an edited timeline

Every edit of the video segments moves the zooms by a rule of its own, a new zoom looks for a slot,
and a drag keeps the limits it found when the button went down. `zooms_stay_valid` says that under
all of them the zooms stay positive, disjoint, on the timeline and distinct. The ways out are a zoom
resized with less than 0.01 s between its limits, a merge of overlapping segments, which shortens the
timeline under the zooms, and identifiers that are used twice.
-/

namespace Blip.Capture

open Splice
open BundleEditor (KeepsTimeline movedZoomRange)

/-- A segment drag in progress: as long as its segment is there, nothing it started from changed. -/
structure VideoDragFresh (editor : BundleEditor) (drag : VideoSegmentDrag) : Prop where
  selectedZoom : editor.selectedZoom = none
  selected : editor.selectedVideoSegment = none ∨ editor.selectedVideoSegment = some drag.id
  zooms : drag.originalZoomSegments = editor.bundle.zoomSegments
  segment : ∃ pre segment post, editor.segments = pre ++ segment :: post ∧ segment.id = drag.id ∧
    (∀ s ∈ pre, s.id ≠ drag.id) ∧ drag.timelineStartSecs = totalDuration pre ∧
    drag.originalSourceStartSecs = segment.sourceStartSecs ∧
    drag.originalSourceEndSecs = segment.sourceEndSecs

/-- The zooms fit the timeline, and a drag in progress can only write what fits. -/
structure ZoomInv (editor : BundleEditor) : Prop where
  zooms : ZoomsWf editor.durationSecs editor.bundle.zoomSegments
  oneDrag : editor.zoomSegmentDrag = none ∨ editor.videoSegmentDrag = none
  zoomDrag : ∀ drag, editor.zoomSegmentDrag = some drag →
    ZoomDragWf editor.durationSecs editor.bundle.zoomSegments drag ∧
      editor.selectedVideoSegment = none
  videoDrag : ∀ drag, editor.videoSegmentDrag = some drag → editor.selectedZoom = none ∧
    ((∀ s ∈ editor.segments, s.id ≠ drag.id) ∨ VideoDragFresh editor drag)

/-- A press on the zoom track that adds a zoom. -/
def BundleEditor.addsZoom (editor : BundleEditor) (x : ℚ) : Prop :=
  ∃ timeSecs, editor.timelineTimeAt x = some timeSecs ∧
    (∀ z ∈ editor.bundle.zoomSegments, z.contains timeSecs = false) ∧
    (zoomSegmentRangeAt timeSecs editor.durationSecs editor.bundle.zoomSegments).isSome = true

/-- The steps that keep the zooms valid. A new zoom's identifier is not taken, a resized zoom has
room, merged segments do not overlap, and a segment deleted under its own drag leaves none with its
identifier behind. -/
def ZoomStepOk (editor : BundleEditor) : EditorOp → Prop
  | .pressZoomTrack x => editor.addsZoom x →
      ∀ z ∈ editor.bundle.zoomSegments, z.id ≠ nextZoomId editor.bundle.zoomSegments
  | .mouseUp => ∀ drag, editor.zoomSegmentDrag = some drag →
      (drag.draftStartSecs, drag.draftEndSecs) = (drag.originalStartSecs, drag.originalEndSecs) ∨
        drag.HasRoom
  | .clickCut rightId => ∀ pre left right post, editor.segments = pre ++ left :: right :: post →
      right.id = rightId → left.sourceEndSecs ≤ right.sourceStartSecs
  | .deleteSelected => ∀ drag, editor.videoSegmentDrag = some drag →
      editor.selectedVideoSegment = some drag.id →
      editor.segments.countP (fun s => s.id == drag.id) ≤ 1
  | _ => True

section Steps

variable {editor editor' : BundleEditor}

/-- Without a drag, only the zooms matter. -/
theorem ZoomInv.free (hzooms : ZoomsWf editor.durationSecs editor.bundle.zoomSegments)
    (hzoom : editor.zoomSegmentDrag = none) (hvideo : editor.videoSegmentDrag = none) :
    ZoomInv editor :=
  ⟨hzooms, .inl hzoom, fun drag hdrag => absurd (hzoom.symm.trans hdrag) (Option.some_ne_none drag).symm,
    fun drag hdrag => absurd (hvideo.symm.trans hdrag) (Option.some_ne_none drag).symm⟩

theorem ZoomInv.same (h : ZoomInv editor) (hsame : KeepsTimeline editor editor') :
    ZoomInv editor' := by
  have hsegs := segments_of_bundle hsame.bundle
  refine ⟨?_, ?_, ?_, ?_⟩
  · rw [hsame.durationSecs, hsame.bundle]
    exact h.zooms
  · rw [hsame.zoomSegmentDrag, hsame.videoSegmentDrag]
    exact h.oneDrag
  · intro drag hdrag
    rw [hsame.durationSecs, hsame.bundle, hsame.selectedVideoSegment]
    exact h.zoomDrag drag (hsame.zoomSegmentDrag ▸ hdrag)
  · intro drag hdrag
    obtain ⟨hzoom, hstate⟩ := h.videoDrag drag (hsame.videoSegmentDrag ▸ hdrag)
    refine ⟨hsame.selectedZoom.trans hzoom, ?_⟩
    rcases hstate with hgone | hfresh
    · exact .inl (hsegs ▸ hgone)
    · refine .inr ⟨hsame.selectedZoom.trans hzoom, ?_, ?_, hsegs ▸ hfresh.segment⟩
      · rw [hsame.selectedVideoSegment]
        exact hfresh.selected
      · rw [hsame.bundle]
        exact hfresh.zooms

theorem ZoomInv.setPlaybackTime (h : ZoomInv editor) (t : Secs) :
    ZoomInv (editor.setPlaybackTime t) :=
  h.same ⟨rfl, rfl, rfl, rfl, rfl, rfl⟩

/-- Closing the selection leaves every drag as it is. -/
theorem ZoomInv.clearSelection (h : ZoomInv editor) : ZoomInv editor.clearSelection := by
  refine ⟨h.zooms, h.oneDrag, fun drag hdrag => ⟨(h.zoomDrag drag hdrag).1, rfl⟩, ?_⟩
  intro drag hdrag
  refine ⟨rfl, (h.videoDrag drag hdrag).2.imp id fun hfresh => ?_⟩
  exact ⟨rfl, .inl rfl, hfresh.zooms, hfresh.segment⟩

theorem ZoomInv.pressTimeline (h : ZoomInv editor) (x : ℚ) : ZoomInv (editor.pressTimeline x) := by
  rcases editor.pressTimeline_effect x with heq | ⟨t, heq⟩ <;> rw [heq]
  · exact h.clearSelection
  · exact h.clearSelection.setPlaybackTime t

/-- A zoom drag that ends without writing anything. -/
theorem ZoomInv.dropZoomDrag (h : ZoomInv editor) :
    ZoomInv { editor with zoomSegmentDrag := none } := by
  refine ⟨h.zooms, .inl rfl, fun drag hdrag => absurd hdrag (Option.some_ne_none drag).symm,
    fun drag hdrag => ?_⟩
  obtain ⟨hzoom, hstate⟩ := h.videoDrag drag hdrag
  exact ⟨hzoom, hstate.imp id fun hfresh => ⟨hzoom, hfresh.selected, hfresh.zooms, hfresh.segment⟩⟩

/-! ## Zooms -/

theorem ZoomInv.beginZoomDrag (h : ZoomInv editor) (hfree : editor.videoSegmentDrag = none)
    (id : UInt64) (kind : ZoomSegmentDragKind) (x : ℚ) :
    ZoomInv (editor.beginZoomSegmentDrag id kind x) := by
  rcases editor.beginZoomSegmentDrag_effect id kind x with heq | ⟨zoom, hzoom, -, heq⟩ <;> rw [heq]
  · exact h
  refine ⟨h.zooms, .inr hfree, ?_, fun drag hdrag => ?_⟩
  · rintro drag ⟨⟩
    exact ⟨zoomDragWf_new h.zooms hzoom kind x, rfl⟩
  · exact absurd (hfree.symm.trans hdrag) nofun

/-- A zoom added where there is room, under an identifier that is not taken. -/
theorem ZoomInv.addZoom (h : ZoomInv editor) (hbutton : editor.buttonFree = true)
    {timeSecs : Secs} {range : Secs × Secs}
    (hfresh : ∀ z ∈ editor.bundle.zoomSegments, z.id ≠ nextZoomId editor.bundle.zoomSegments)
    (hoff : ∀ z ∈ editor.bundle.zoomSegments, z.contains timeSecs = false)
    (hrange : zoomSegmentRangeAt timeSecs editor.durationSecs editor.bundle.zoomSegments =
      some range) : ZoomInv (editor.addZoom range.1 range.2) := by
  obtain ⟨hzoom, hvideo⟩ := buttonFree_iff.mp hbutton
  unfold BundleEditor.addZoom
  split
  · exact h
  next hpositive =>
  obtain ⟨hlow, hhigh, hapart⟩ := h.zooms.rangeAt hoff hrange
  refine .free ?_ hzoom hvideo
  refine .perm ?_ (List.perm_append_singleton _ _)
  exact zoomsWf_cons_iff.mpr ⟨h.zooms, ⟨not_le.mp hpositive, hlow, hhigh, hapart, hfresh⟩⟩

theorem ZoomInv.pressZoomTrack (h : ZoomInv editor) (hbutton : editor.buttonFree = true) {x : ℚ}
    (hok : ZoomStepOk editor (.pressZoomTrack x)) : ZoomInv (editor.pressZoomTrack x) := by
  rcases editor.pressZoomTrack_effect x with
    heq | ⟨id, t, heq⟩ | ⟨t, range, htime, hoff, hrange, heq⟩ <;> rw [heq]
  · exact h.pressTimeline x
  · exact (h.beginZoomDrag (buttonFree_iff.mp hbutton).2 id .move x).setPlaybackTime t
  · exact h.addZoom hbutton (hok ⟨t, htime, hoff, by rw [hrange]; rfl⟩) hoff hrange

/-- A pointer move writes the range of a moved zoom, or proposes a draft. -/
theorem ZoomInv.dragZoom (h : ZoomInv editor) (event : MouseMoveEvent) :
    ZoomInv (editor.dragZoomSegment event) := by
  rcases editor.dragZoomSegment_effect event with
    heq | heq | ⟨drag, delta, zooms, t, hdrag, -, hset, heq⟩ |
      ⟨drag, edge, delta, t, hdrag, hkind, heq⟩ <;> rw [heq]
  · exact h
  · exact h.dropZoomDrag
  · apply ZoomInv.setPlaybackTime
    obtain ⟨hwf, hselected⟩ := h.zoomDrag drag hdrag
    obtain ⟨hpositive, hlow, hhigh⟩ := hwf.moved delta
    have hvideo : editor.videoSegmentDrag = none :=
      h.oneDrag.resolve_left (by rw [hdrag]; exact Option.some_ne_none _)
    refine ⟨hwf.setRange h.zooms hset hpositive hlow hhigh, .inr hvideo, ?_, ?_⟩
    · intro drag' hdrag'
      cases hdrag.symm.trans hdrag'
      exact ⟨hwf.mono (mem_setZoomRange hset), hselected⟩
    · intro drag' hdrag'
      exact absurd (hvideo.symm.trans hdrag') nofun
  · apply ZoomInv.setPlaybackTime
    obtain ⟨hwf, hselected⟩ := h.zoomDrag drag hdrag
    have hvideo : editor.videoSegmentDrag = none :=
      h.oneDrag.resolve_left (by rw [hdrag]; exact Option.some_ne_none _)
    refine ⟨h.zooms, .inr hvideo, ?_, ?_⟩
    · rintro drag' ⟨⟩
      exact ⟨{ hwf with draft := .inr ⟨edge, delta, hkind, rfl⟩ }, hselected⟩
    · intro drag' hdrag'
      exact absurd (hvideo.symm.trans hdrag') nofun

theorem ZoomInv.finishZoomDrag (h : ZoomInv editor) (hok : ZoomStepOk editor .mouseUp) :
    ZoomInv editor.finishZoomSegmentDrag := by
  rcases editor.finishZoomSegmentDrag_effect with
    heq | ⟨drag, edge, zooms, hdrag, -, hmoved, hset, heq⟩ <;> rw [heq]
  · exact h.dropZoomDrag
  obtain ⟨hwf, -⟩ := h.zoomDrag drag hdrag
  have hroom : drag.HasRoom := by
    refine (hok drag hdrag).resolve_left fun hsame => ?_
    obtain ⟨hstart, hend⟩ := Prod.mk.inj hsame
    exact hmoved.elim (absurd hstart) (absurd hend)
  obtain ⟨hpositive, hlow, hhigh⟩ := hwf.resized hroom
  have hvideo : editor.videoSegmentDrag = none :=
    h.oneDrag.resolve_left (by rw [hdrag]; exact Option.some_ne_none _)
  exact .free (@ZoomDragWf.setRange _ _ _ _ (_, _) hwf h.zooms hset hpositive hlow hhigh) rfl hvideo

/-! ## Video segments -/

theorem ZoomInv.pressVideoSegment (h : ZoomInv editor) (hbutton : editor.buttonFree = true)
    (id : UInt64) (x : ℚ) : ZoomInv (editor.pressVideoSegment id x) := by
  obtain ⟨hzoom, hvideo⟩ := buttonFree_iff.mp hbutton
  rcases editor.pressVideoSegment_effect id x with
    heq | ⟨t, -, ⟨-, heq⟩ | ⟨-, heq⟩⟩ <;> rw [heq]
  · exact h
  · rcases editor.splitVideoSegment_cases id t with hsplit | ⟨_, _, _, -, -, -, hsplit⟩ <;>
      rw [hsplit]
    · exact h
    · exact .free h.zooms hzoom hvideo
  · rcases editor.selectVideoSegment_effect id with hselect | ⟨-, hselect⟩ <;> rw [hselect]
    · exact h.setPlaybackTime t
    · exact .free h.zooms hzoom hvideo

theorem ZoomInv.beginVideoDrag (h : ZoomInv editor) (hfree : editor.zoomSegmentDrag = none)
    (id : UInt64) (edge : VideoSegmentEdge) (x : ℚ) :
    ZoomInv (editor.beginVideoSegmentDrag id edge x) := by
  rcases editor.beginVideoSegmentDrag_cases id edge x with
    ⟨heq, -⟩ | ⟨pre, segment, post, hsegs, hid, hpre, heq⟩ <;> rw [heq]
  · exact h
  refine ⟨h.zooms, .inl hfree,
    fun drag hdrag => absurd (hfree.symm.trans hdrag) (Option.some_ne_none drag).symm, ?_⟩
  rintro drag ⟨⟩
  refine ⟨rfl, .inr ⟨rfl, .inr ?_, rfl, pre, segment, post, ?_, rfl, ?_, ?_, rfl, rfl⟩⟩
  · exact congrArg some hid.symm
  · exact segments_of_some hsegs
  · intro s hs
    exact fun heq => hpre s hs (heq.trans hid)
  · exact congrArg totalDuration (take_middle pre post segment)

/-- A pointer move only replaces the draft of a segment drag. -/
theorem ZoomInv.dragVideo (h : ZoomInv editor) (event : MouseMoveEvent) :
    ZoomInv (editor.dragVideoSegment event) := by
  rcases editor.dragVideoSegment_effect event with heq | ⟨drag, delta, t, hdrag, heq⟩ <;> rw [heq]
  · exact h
  apply ZoomInv.setPlaybackTime
  obtain ⟨hzoom, hstate⟩ := h.videoDrag drag hdrag
  have hnone : editor.zoomSegmentDrag = none :=
    h.oneDrag.resolve_right (by rw [hdrag]; exact Option.some_ne_none _)
  refine ⟨h.zooms, .inl hnone, h.zoomDrag, ?_⟩
  rintro drag' ⟨⟩
  exact ⟨hzoom, hstate.imp id fun hfresh =>
    ⟨hzoom, hfresh.selected, hfresh.zooms, hfresh.segment⟩⟩

theorem ZoomInv.mouseMove (h : ZoomInv editor) (dragging : Bool) (position : PointerPosition) :
    ZoomInv (editor.mouseMove dragging position) := by
  have hover : ∀ moved : BundleEditor, ZoomInv moved →
      ZoomInv (moved.updateTimelineHover position) := by
    intro moved hmoved
    obtain ⟨c, z, heq⟩ := moved.updateTimelineHover_effect position
    rw [heq]
    exact hmoved.same ⟨rfl, rfl, rfl, rfl, rfl, rfl⟩
  unfold BundleEditor.mouseMove
  apply hover
  split
  · exact h.dragVideo _
  · exact h.dragZoom _

/-- Exchanging one positive segment changes the duration by the difference. -/
theorem totalDuration_middle {pre post : List VideoSegment} (segment : VideoSegment) :
    totalDuration (pre ++ segment :: post) =
      totalDuration pre + segment.durationSecs + totalDuration post := by
  rw [totalDuration_append, totalDuration_cons, add_assoc]

/-- The zooms of a finished drag fit the timeline it leaves. -/
theorem ZoomsWf.rippleDrag {drag : VideoSegmentDrag} {restSecs : Secs} (hrest : 0 ≤ restSecs)
    (h : ZoomsWf (drag.timelineStartSecs +
      (drag.originalSourceEndSecs - drag.originalSourceStartSecs) + restSecs)
      drag.originalZoomSegments)
    (hstart : 0 ≤ drag.timelineStartSecs)
    (hdraft : drag.draftSourceStartSecs < drag.draftSourceEndSecs) :
    ZoomsWf (drag.timelineStartSecs + (drag.draftSourceEndSecs - drag.draftSourceStartSecs) +
      restSecs) (BundleEditor.rippleDrag drag) := by
  unfold BundleEditor.rippleDrag
  simp only
  split
  · next hshorter =>
    rw [show drag.timelineStartSecs + (drag.draftSourceEndSecs - drag.draftSourceStartSecs) +
      restSecs = drag.timelineStartSecs +
        (drag.originalSourceEndSecs - drag.originalSourceStartSecs) + restSecs -
        (drag.originalSourceEndSecs - drag.originalSourceStartSecs -
          (drag.draftSourceEndSecs - drag.draftSourceStartSecs)) by ring]
    cases drag.edge with
    | start => exact h.rippleDelete hstart (by linarith)
    | «end» => exact h.rippleDelete (by simp only; linarith) (by simp only; linarith)
  · next hlonger =>
    rw [show drag.timelineStartSecs + (drag.draftSourceEndSecs - drag.draftSourceStartSecs) +
      restSecs = drag.timelineStartSecs +
        (drag.originalSourceEndSecs - drag.originalSourceStartSecs) + restSecs +
        (drag.draftSourceEndSecs - drag.draftSourceStartSecs -
          (drag.originalSourceEndSecs - drag.originalSourceStartSecs)) by ring]
    exact h.rippleInsert (by linarith)

theorem ZoomInv.finishVideoDrag (h : ZoomInv editor) (hduration : DurationInv editor)
    (hfree : editor.zoomSegmentDrag = none) : ZoomInv editor.finishVideoSegmentDrag := by
  rcases editor.finishVideoSegmentDrag_effect with
    heq | ⟨drag, pre, segment, post, hpre, heffect⟩
  · rw [heq]
    exact .free h.zooms hfree rfl
  have hlist := segments_of_some heffect.before_segments
  have hpositive := hduration.positive segment (by rw [hlist]; simp)
  have hdraft := (hduration.drag drag heffect.inProgress).2
  -- the dragged segment is still there, so the drag started from the present state
  obtain ⟨-, hgone | hfresh⟩ := h.videoDrag drag heffect.inProgress
  · exact absurd heffect.id (hgone segment (by rw [hlist]; simp))
  obtain ⟨pre', segment', post', hlist', hid', hpre', hstart, hfrom, hto⟩ := hfresh.segment
  obtain ⟨rfl, rfl, rfl⟩ := first_match_unique (hlist.symm.trans hlist') heffect.id hid' hpre hpre'
  refine .free ?_ (heffect.zoomSegmentDrag.trans hfree) heffect.videoSegmentDrag
  have hzooms := h.zooms
  rw [← hfresh.zooms, hduration.durationSecs, hlist, totalDuration_middle,
    VideoSegment.durationSecs_eq hpositive.le, ← hstart, ← hfrom, ← hto] at hzooms
  rw [heffect.edited.durationSecs, heffect.edited.bundle, totalDuration_middle,
    VideoSegment.durationSecs_eq hdraft.le, ← hstart]
  exact hzooms.rippleDrag (totalDuration_nonneg post) (hstart ▸ totalDuration_nonneg pre) hdraft

theorem ZoomInv.mouseUp (h : ZoomInv editor) (hduration : DurationInv editor)
    (hok : ZoomStepOk editor .mouseUp) :
    ZoomInv editor.finishZoomSegmentDrag.finishVideoSegmentDrag := by
  have hreleased := h.finishZoomDrag hok
  rcases editor.finishZoomSegmentDrag_effect with heq | ⟨_, _, _, -, -, -, -, heq⟩ <;>
    rw [heq] at hreleased ⊢ <;>
    exact hreleased.finishVideoDrag (hduration.same rfl rfl rfl) rfl

theorem ZoomInv.deleteSelected (h : ZoomInv editor) (hduration : DurationInv editor)
    (hok : ZoomStepOk editor .deleteSelected) : ZoomInv editor.deleteSelected := by
  rcases editor.deleteSelected_effect with
    heq | ⟨id, hselected, heq⟩ | ⟨pre, segment, post, -, -, heffect⟩
  · rwa [heq]
  · rw [heq]
    -- a segment drag clears the zoom selection, so none is in progress
    have hvideo : editor.videoSegmentDrag = none := by
      cases hdrag : editor.videoSegmentDrag with
      | none => rfl
      | some drag => exact absurd (hselected.symm.trans (h.videoDrag drag hdrag).1) nofun
    exact .free (h.zooms.sublist List.filter_sublist) rfl hvideo
  have hlist := segments_of_some heffect.before_segments
  have hlist' := segments_of_edited heffect.edited
  have hselected := heffect.selected
  have hzoom : editor.zoomSegmentDrag = none := by
    cases hdrag : editor.zoomSegmentDrag with
    | none => rfl
    | some drag => exact absurd (hselected.symm.trans (h.zoomDrag drag hdrag).2) nofun
  refine ⟨?_, .inl (heffect.zoomSegmentDrag.trans hzoom), ?_, ?_⟩
  · have hbefore := hduration.durationSecs
    rw [hlist, totalDuration_middle] at hbefore
    have hpre := totalDuration_nonneg pre
    have hpost := totalDuration_nonneg post
    have hafter : editor.deleteSelected.durationSecs =
        editor.durationSecs - segment.durationSecs := by
      rw [heffect.edited.durationSecs, totalDuration_append]
      linarith
    rw [hafter, heffect.edited.bundle]
    exact h.zooms.rippleDelete hpre (by linarith)
  · rw [heffect.zoomSegmentDrag, hzoom]
    exact fun drag hdrag => absurd hdrag (Option.some_ne_none drag).symm
  · intro drag hdrag
    rw [heffect.videoSegmentDrag] at hdrag
    obtain ⟨hnozoom, hstate⟩ := h.videoDrag drag hdrag
    refine ⟨heffect.selectedZoom.trans hnozoom, .inl ?_⟩
    rw [hlist']
    rcases hstate with hgone | hfresh
    · intro s hs
      refine hgone s ?_
      rw [hlist]
      rcases List.mem_append.mp hs with hs | hs <;> simp [hs]
    -- the deleted segment is the dragged one, and no other has its identifier
    have hid : editor.selectedVideoSegment = some drag.id :=
      hfresh.selected.resolve_left (by rw [hselected]; exact Option.some_ne_none _)
    have hsegment : segment.id = drag.id := Option.some.inj (hselected.symm.trans hid)
    have hcount := hok drag hdrag hid
    rw [hlist, List.countP_append, List.countP_cons_of_pos (by simpa using hsegment)] at hcount
    have hnone : (pre ++ post).countP (fun s => s.id == drag.id) = 0 := by
      rw [List.countP_append]
      omega
    intro s hs
    simpa using List.countP_eq_zero.mp hnone s hs

theorem ZoomInv.activateCut (h : ZoomInv editor) (hduration : DurationInv editor)
    (hbutton : editor.buttonFree = true) {rightId : UInt64}
    (hok : ZoomStepOk editor (.clickCut rightId)) : ZoomInv (editor.activateVideoCut rightId) := by
  obtain ⟨hzoom, hvideo⟩ := buttonFree_iff.mp hbutton
  rcases editor.activateVideoCut_effect rightId with
    ⟨heq, -⟩ | ⟨edit, list, list', hcut, heffect⟩
  · rwa [heq]
  refine .free ?_ (heffect.zoomSegmentDrag.trans hzoom) (heffect.videoSegmentDrag.trans hvideo)
  have hlist := segments_of_some heffect.before_segments
  have hbefore := hduration.durationSecs
  have hε : (0 : Secs) < f64Epsilon := by norm_num [f64Epsilon]
  obtain ⟨pre, left, right, post, rfl, hid, -, -, ⟨hgap, hinserted, -, rfl⟩ |
    ⟨-, hinserted, -, rfl⟩⟩ := editVideoCut_cases hcut
  · have hleft := hduration.positive left (by rw [hlist]; simp)
    rw [hlist, totalDuration_middle, VideoSegment.durationSecs_eq hleft.le] at hbefore
    have hafter : (editor.activateVideoCut rightId).durationSecs =
        editor.durationSecs + edit.insertedDurationSecs := by
      rw [heffect.edited.durationSecs, totalDuration_middle, hbefore, hinserted,
        VideoSegment.durationSecs_eq (by simp only; linarith)]
      ring
    rw [hafter, heffect.edited.bundle, if_pos (by linarith)]
    exact h.zooms.rippleInsert (by linarith)
  · -- neighbours that do not overlap merge into a segment at least as long as both
    have hleft := hduration.positive left (by rw [hlist]; simp)
    have hright := hduration.positive right (by rw [hlist]; simp)
    have hapart := hok pre left right post hlist hid
    have hmax : max left.sourceEndSecs right.sourceEndSecs = right.sourceEndSecs :=
      max_eq_right (by linarith)
    rw [hlist, totalDuration_middle, totalDuration_cons, VideoSegment.durationSecs_eq hleft.le,
      VideoSegment.durationSecs_eq hright.le] at hbefore
    rw [heffect.edited.durationSecs, heffect.edited.bundle, if_neg (by rw [hinserted]; simp)]
    refine h.zooms.longer ?_
    rw [totalDuration_middle, VideoSegment.durationSecs_eq (by simp only; linarith), hmax]
    linarith

theorem ZoomInv.expandEdge (h : ZoomInv editor) (hduration : DurationInv editor)
    (hbutton : editor.buttonFree = true) (id : UInt64) (edge : VideoSegmentEdge) :
    ZoomInv (editor.activateVideoSegmentEdge id edge) := by
  obtain ⟨hzoom, hvideo⟩ := buttonFree_iff.mp hbutton
  rcases editor.activateVideoSegmentEdge_effect id edge with
    heq | ⟨pre, segment, post, -, -, heffect⟩
  · rwa [heq]
  refine .free ?_ (heffect.zoomSegmentDrag.trans hzoom) (heffect.videoSegmentDrag.trans hvideo)
  have hlist := segments_of_some heffect.before_segments
  have hsegment := hduration.positive segment (by rw [hlist]; simp)
  have hbefore := hduration.durationSecs
  rw [hlist, totalDuration_middle, VideoSegment.durationSecs_eq hsegment.le] at hbefore
  have hε : (0 : Secs) < f64Epsilon := by norm_num [f64Epsilon]
  have hlong := heffect.long
  have hafter : (editor.activateVideoSegmentEdge id edge).durationSecs = editor.durationSecs +
      (editor.expandSegmentEdge segment edge (totalDuration pre)).2.2 := by
    rw [heffect.edited.durationSecs, totalDuration_middle, hbefore]
    cases edge with
    | start =>
      simp only [BundleEditor.expandSegmentEdge] at hlong ⊢
      have hpos := (lt_max_iff.mp hlong).resolve_right (by linarith)
      rw [max_eq_left (by linarith), VideoSegment.durationSecs_eq (by simp only; linarith)]
      ring
    | «end» =>
      simp only [BundleEditor.expandSegmentEdge] at hlong ⊢
      have hpos := (lt_max_iff.mp hlong).resolve_right (by linarith)
      rw [max_eq_left (by linarith), VideoSegment.durationSecs_eq (by simp only; linarith)]
      ring
  rw [hafter, heffect.edited.bundle]
  exact h.zooms.rippleInsert (by linarith)

/-- Every step that meets `ZoomStepOk` keeps the zooms valid. -/
theorem ZoomInv.step (h : ZoomInv editor) (hduration : DurationInv editor) {op : EditorOp}
    (hok : ZoomStepOk editor op) (hcan : editor.canHandle op = true) :
    ZoomInv (editor.handle op) := by
  cases op with
  | layout | setReduceMotion | toggleCutMode | openCropDialog | moveTimelineZoomSlider | mouseExit
  | pinch | scroll | resizeTick | playbackBack | playbackForward | togglePlayback | playbackFrame =>
    exact h.same (editor.handle_quiet rfl)
  | escape => exact h.clearSelection
  | deleteSelected => exact h.deleteSelected hduration hok
  | pressTimeline x => exact h.pressTimeline x
  | pressVideoSegment id x => exact h.pressVideoSegment hcan id x
  | pressVideoSegmentEdge id edge x =>
    exact h.beginVideoDrag (buttonFree_iff.mp hcan).1 id edge x
  | pressZoomTrack x => exact h.pressZoomTrack hcan hok
  | pressZoomSegment id x =>
    have hbegin := h.beginZoomDrag (buttonFree_iff.mp hcan).2 id .move x
    rcases editor.pressZoomSegment_effect id x with heq | ⟨t, heq⟩ <;>
      rw [BundleEditor.handle, heq]
    · exact hbegin
    · exact hbegin.setPlaybackTime t
  | pressZoomSegmentEdge id edge x => exact h.beginZoomDrag (buttonFree_iff.mp hcan).2 id _ x
  | clickCut rightId => exact h.activateCut hduration hcan hok
  | clickVideoSegmentEdge id edge =>
    refine h.expandEdge hduration ?_ id edge
    exact (Bool.and_eq_true _ _ ▸ hcan : _ ∧ _).1
  | mouseMove dragging position => exact h.mouseMove dragging position
  | mouseUp => exact h.mouseUp hduration hok

end Steps

/-- In every run from a bundle whose zooms fit the timeline it opens with, under the conditions of
`ZoomStepOk`, the zooms fit the timeline: positive, disjoint, inside it and distinct. -/
theorem zooms_stay_valid {bundle : BlipBundle} {sourceRanges : List (Secs × Secs)}
    {reduceMotion : Bool} {ops : List EditorOp} {editor : BundleEditor}
    (hvalid : ZoomsWf (BundleEditor.openBundle bundle sourceRanges reduceMotion).durationSecs
      (BundleEditor.openBundle bundle sourceRanges reduceMotion).bundle.zoomSegments)
    (hrun : (editorSystem.restrict ZoomStepOk).Run
      (BundleEditor.openBundle bundle sourceRanges reduceMotion) ops editor) :
    ZoomsWf editor.durationSecs editor.bundle.zoomSegments := by
  have hopen : ZoomInv (BundleEditor.openBundle bundle sourceRanges reduceMotion) ∧
      DurationInv (BundleEditor.openBundle bundle sourceRanges reduceMotion) :=
    ⟨.free hvalid rfl rfl, durationInv_open bundle sourceRanges reduceMotion⟩
  have hstep : ∀ before op after, ZoomInv before ∧ DurationInv before →
      (editorSystem.restrict ZoomStepOk).step before op after →
      ZoomInv after ∧ DurationInv after := by
    rintro before op after ⟨hzooms, hduration⟩ ⟨hok, hcan, rfl⟩
    exact ⟨hzooms.step hduration hok hcan, hduration.handle op⟩
  exact (hrun.invariant hstep hopen).1.zooms

/-- Add a zoom, stretch the first one up to it, then delete the segment they both reach into. -/
def stretchThenDeleteOps : List EditorOp :=
  [.layout { originX := 0, width := 100 }, .pressZoomTrack 50, .pressZoomSegmentEdge 1 .end 25,
    .mouseMove true { x := 75, overRows := true, overZoomTrack := true }, .mouseUp,
    .pressVideoSegment 2 60, .deleteSelected]

theorem zooms_stay_valid_stretchThenDelete :
    ((BundleEditor.openBundle gapBundle [(0, 10)] true).handleAll
        stretchThenDeleteOps).bundle.zoomSegments = [plainZoom 1 1 4] ∧
      ZoomsWf 4 [plainZoom 1 1 4] := by
  have hrun : (editorSystem.restrict ZoomStepOk).Run
      (BundleEditor.openBundle gapBundle [(0, 10)] true) stretchThenDeleteOps
      ((BundleEditor.openBundle gapBundle [(0, 10)] true).handleAll stretchThenDeleteOps) := by
    refine .cons ⟨trivial, rfl, rfl⟩ (.cons ⟨fun _ => ?_, ?_, rfl⟩ (.cons ⟨trivial, ?_, rfl⟩
      (.cons ⟨trivial, rfl, rfl⟩ (.cons ⟨?_, rfl, rfl⟩ (.cons ⟨trivial, ?_, rfl⟩
        (.cons ⟨?_, rfl, rfl⟩ (.nil _)))))))
    · decide +kernel
    · decide +kernel
    · decide +kernel
    · intro drag hdrag
      refine .inr ⟨fun _ => ?_, fun _ => ?_⟩ <;> revert drag
      all_goals
        show ∀ drag ∈ BundleEditor.zoomSegmentDrag _, _
        decide +kernel
    · decide +kernel
    · intro drag hdrag
      exact absurd (hdrag.symm.trans (by decide +kernel : _ = none)) (Option.some_ne_none drag)
  have hvalid : ZoomsWf (BundleEditor.openBundle gapBundle [(0, 10)] true).durationSecs
      (BundleEditor.openBundle gapBundle [(0, 10)] true).bundle.zoomSegments :=
    ⟨by decide +kernel, by decide +kernel, by decide +kernel, by decide +kernel⟩
  have hzooms : ((BundleEditor.openBundle gapBundle [(0, 10)] true).handleAll
      stretchThenDeleteOps).bundle.zoomSegments = [plainZoom 1 1 4] := by decide +kernel
  have hduration : ((BundleEditor.openBundle gapBundle [(0, 10)] true).handleAll
      stretchThenDeleteOps).durationSecs = 4 := by decide +kernel
  exact ⟨hzooms, hzooms ▸ hduration ▸ zooms_stay_valid hvalid hrun⟩

/-- Two zooms that touch, the second of them shorter than a resize leaves one. -/
def touchingZoomsBundle : BlipBundle where
  zoomSegments := [plainZoom 1 0 1, plainZoom 2 1 (201 / 200)]
  videoSegments := some [{ id := 1, sourceStartSecs := 0, sourceEndSecs := 10 }]

/-- Move the start of the second zoom by a pixel. -/
def nudgeStartOps : List EditorOp :=
  [.layout { originX := 0, width := 100 }, .pressZoomSegmentEdge 2 .start 10,
    .mouseMove true { x := 11, overRows := true, overZoomTrack := true }, .mouseUp]

/-- The 0.01 s a resize keeps pushes the start of a short zoom into its neighbour. -/
theorem nudged_zoom_overlaps :
    ZoomsWf (BundleEditor.openBundle touchingZoomsBundle [(0, 10)] true).durationSecs
        (BundleEditor.openBundle touchingZoomsBundle [(0, 10)] true).bundle.zoomSegments ∧
      editorSystem.Run (BundleEditor.openBundle touchingZoomsBundle [(0, 10)] true) nudgeStartOps
        ((BundleEditor.openBundle touchingZoomsBundle [(0, 10)] true).handleAll nudgeStartOps) ∧
      ¬ ZoomsWf ((BundleEditor.openBundle touchingZoomsBundle [(0, 10)] true).handleAll
          nudgeStartOps).durationSecs
        ((BundleEditor.openBundle touchingZoomsBundle [(0, 10)] true).handleAll
          nudgeStartOps).bundle.zoomSegments := by
  refine ⟨⟨by decide +kernel, by decide +kernel, by decide +kernel, by decide +kernel⟩,
    run_handleAll (by decide +kernel), fun h => ?_⟩
  have hdisjoint := h.disjoint
  revert hdisjoint
  decide +kernel

end Blip.Capture
