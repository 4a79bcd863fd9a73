import Blip.Capture.SegmentTimeMap
import Blip.Capture.EditorInvariant

/-!
# Every edit of the editor follows one time map

`CommittedEdit` lists the edits that can be committed, each with the map its content and its zooms
follow, and `edits_follow_timeMaps` says that the editor's methods commit these and nothing else.

The one edit with two maps is a cut across a gap of at most `f64::EPSILON`, which `edit_video_cut`
treats as no gap: the merged segment covers the gap, and the zoom segments stay.
-/

namespace Blip.Capture

open TimeMap
open BundleEditor (rippleDrag splitList)

/-- Segments in source order, none reversed, none overlapping. -/
structure SortedSegments (segments : List VideoSegment) : Prop where
  sorted : segments.Pairwise (fun a b => a.sourceEndSecs ≤ b.sourceStartSecs)
  ordered : ∀ s ∈ segments, s.sourceStartSecs ≤ s.sourceEndSecs

/-! ## Committed edits -/

/-- What can happen between the press and the release of an edge drag. -/
inductive DragEvent
  | layout (bounds : TimelineBounds)
  | toggleCutMode
  | move (event : MouseMoveEvent)
deriving DecidableEq, Repr

def BundleEditor.performDragEvent (editor : BundleEditor) : DragEvent → BundleEditor
  | .layout bounds => { editor with timelineBounds := bounds }
  | .toggleCutMode => editor.toggleCutMode
  | .move event => editor.dragVideoSegment event

/-- An edit of the timeline, from the press that starts it to the one that commits it. -/
inductive TimelineGesture
  | split (id : UInt64) (timelineTimeSecs : Secs)
  | drag (id : UInt64) (edge : VideoSegmentEdge) (positionX : ℚ) (events : List DragEvent)
  | deleteSelected
  | cut (rightId : UInt64)
  | expand (id : UInt64) (edge : VideoSegmentEdge)
deriving DecidableEq, Repr

/-- The editor after a gesture. -/
def BundleEditor.commit (editor : BundleEditor) : TimelineGesture → BundleEditor
  | .split id timelineTimeSecs => editor.splitVideoSegment id timelineTimeSecs
  | .drag id edge positionX events =>
    (events.foldl BundleEditor.performDragEvent
      (editor.beginVideoSegmentDrag id edge positionX)).finishVideoSegmentDrag
  | .deleteSelected => editor.deleteSelectedVideoSegment
  | .cut rightId => editor.activateVideoCut rightId
  | .expand id edge => editor.activateVideoSegmentEdge id edge

/-- A drag starts on the handle of a segment; anything else may be attempted at any time. -/
def BundleEditor.canStart (editor : BundleEditor) : TimelineGesture → Prop
  | .drag id _ _ _ => ∃ s ∈ editor.segments, s.id = id
  | _ => True

/-- The change each committed edit makes: the new segments, the edit their content follows and the
edit the zooms follow. -/
inductive CommittedEdit (editor : BundleEditor) :
    TimelineGesture → List VideoSegment → TimeEdit Secs → TimeEdit Secs → Prop
  | split {pre segment post t} (h : editor.segments = pre ++ segment :: post)
      (hcan : canSplitVideoSegment segment.durationSecs (t - totalDuration pre) = true) :
      CommittedEdit editor (.split segment.id t)
        (splitList pre segment post (t - totalDuration pre)) .keep .keep
  | delete {pre segment post} (h : editor.segments = pre ++ segment :: post)
      (hselected : editor.selectedVideoSegment = some segment.id) :
      CommittedEdit editor .deleteSelected (pre ++ post)
        (.remove [(totalDuration pre, segment.durationSecs)])
        (.remove [(totalDuration pre, segment.durationSecs)])
  | trimStart {pre segment post x events startSecs}
      (h : editor.segments = pre ++ segment :: post)
      (hshrink : segment.sourceStartSecs < startSecs)
      (hrest : startSecs ≤ segment.sourceEndSecs) :
      CommittedEdit editor (.drag segment.id .start x events)
        (pre ++ segment.from startSecs :: post)
        (.remove [(totalDuration pre, startSecs - segment.sourceStartSecs)])
        (.remove [(totalDuration pre, startSecs - segment.sourceStartSecs)])
  | extendStart {pre segment post x events startSecs}
      (h : editor.segments = pre ++ segment :: post)
      (hgrow : startSecs ≤ segment.sourceStartSecs) :
      CommittedEdit editor (.drag segment.id .start x events)
        (pre ++ segment.from startSecs :: post)
        (.insert (totalDuration pre) (segment.sourceStartSecs - startSecs))
        (.insert (totalDuration pre) (segment.sourceStartSecs - startSecs))
  | trimEnd {pre segment post x events endSecs} (h : editor.segments = pre ++ segment :: post)
      (hshrink : endSecs < segment.sourceEndSecs)
      (hrest : segment.sourceStartSecs ≤ endSecs) :
      CommittedEdit editor (.drag segment.id .end x events)
        (pre ++ segment.before endSecs :: post)
        (.remove [(totalDuration pre + (endSecs - segment.sourceStartSecs),
          segment.sourceEndSecs - endSecs)])
        (.remove [(totalDuration pre + (endSecs - segment.sourceStartSecs),
          segment.sourceEndSecs - endSecs)])
  | extendEnd {pre segment post x events endSecs} (h : editor.segments = pre ++ segment :: post)
      (hgrow : segment.sourceEndSecs ≤ endSecs) :
      CommittedEdit editor (.drag segment.id .end x events)
        (pre ++ segment.before endSecs :: post)
        (.insert (totalDuration pre + segment.durationSecs) (endSecs - segment.sourceEndSecs))
        (.insert (totalDuration pre + segment.durationSecs) (endSecs - segment.sourceEndSecs))
  | fillGap {pre left right post} (h : editor.segments = pre ++ left :: right :: post)
      (hgap : f64Epsilon < right.sourceStartSecs - left.sourceEndSecs) :
      CommittedEdit editor (.cut right.id)
        (pre ++ left.before right.sourceStartSecs :: right :: post)
        (.insert (totalDuration (pre ++ [left])) (right.sourceStartSecs - left.sourceEndSecs))
        (.insert (totalDuration (pre ++ [left])) (right.sourceStartSecs - left.sourceEndSecs))
  | mergeTouching {pre left right post} (h : editor.segments = pre ++ left :: right :: post)
      (htouch : right.sourceStartSecs = left.sourceEndSecs) :
      CommittedEdit editor (.cut right.id) (pre ++ left.before right.sourceEndSecs :: post)
        .keep .keep
  /-- Within the tolerance the content after the gap moves by the gap, and the zooms do not. -/
  | mergeAcross {pre left right post} (h : editor.segments = pre ++ left :: right :: post)
      (hgap : 0 < right.sourceStartSecs - left.sourceEndSecs)
      (htolerance : right.sourceStartSecs - left.sourceEndSecs ≤ f64Epsilon) :
      CommittedEdit editor (.cut right.id) (pre ++ left.before right.sourceEndSecs :: post)
        (.insert (totalDuration (pre ++ [left])) (right.sourceStartSecs - left.sourceEndSecs)) .keep
  | expandStart {pre segment post} (h : editor.segments = pre ++ segment :: post)
      (hgrow : editor.sourceStartSecs < segment.sourceStartSecs) :
      CommittedEdit editor (.expand segment.id .start)
        (pre ++ segment.from editor.sourceStartSecs :: post)
        (.insert (totalDuration pre) (segment.sourceStartSecs - editor.sourceStartSecs))
        (.insert (totalDuration pre) (segment.sourceStartSecs - editor.sourceStartSecs))
  | expandEnd {pre segment post} (h : editor.segments = pre ++ segment :: post)
      (hgrow : segment.sourceEndSecs < editor.sourceEndSecs) :
      CommittedEdit editor (.expand segment.id .end)
        (pre ++ segment.before editor.sourceEndSecs :: post)
        (.insert (totalDuration pre + segment.durationSecs)
          (editor.sourceEndSecs - segment.sourceEndSecs))
        (.insert (totalDuration pre + segment.durationSecs)
          (editor.sourceEndSecs - segment.sourceEndSecs))

/-- The content of every committed edit follows the edit. -/
theorem CommittedEdit.listFollows {editor : BundleEditor} {gesture : TimelineGesture}
    {segments' : List VideoSegment} {edit zoomEdit : TimeEdit Secs}
    (hsorted : SortedSegments editor.segments)
    (h : CommittedEdit editor gesture segments' edit zoomEdit) :
    ListFollows editor.segments segments' edit := by
  have hordered : ∀ {pre segment post}, editor.segments = pre ++ segment :: post →
      segment.sourceStartSecs ≤ segment.sourceEndSecs := fun h =>
    hsorted.ordered _ (by rw [h]; simp)
  cases h with
  | @split pre segment post t h hcan =>
    obtain ⟨hleft, hright⟩ := canSplitVideoSegment_iff.mp hcan
    rw [VideoSegment.durationSecs_eq (hordered h)] at hright
    rw [h]
    have hlo : segment.sourceStartSecs ≤ segment.sourceStartSecs + (t - totalDuration pre) := by
      linarith
    have hhi : segment.sourceStartSecs + (t - totalDuration pre) ≤ segment.sourceEndSecs := by
      linarith
    refine SameTimeline.listFollows (sameTimeline_cut segment _ hlo hhi ?_ ?_)
    · rfl
    · rfl
  | delete h hselected => exact h ▸ listFollows_delete
  | trimStart h hshrink hrest => exact h ▸ listFollows_trimStart hshrink.le hrest
  | extendStart h hgrow => exact h ▸ listFollows_extendStart hgrow (hordered h)
  | trimEnd h hshrink hrest => exact h ▸ listFollows_trimEnd hrest hshrink.le
  | extendEnd h hgrow => exact h ▸ listFollows_extendEnd (hordered h) hgrow
  | @fillGap pre left right post h hgap =>
    have hε : (0 : Secs) < f64Epsilon := by norm_num [f64Epsilon]
    have htotal : totalDuration (pre ++ [left]) = totalDuration pre + left.durationSecs := by
      rw [totalDuration_append, totalDuration_cons, totalDuration_nil, add_zero]
    rw [h, htotal]
    exact listFollows_extendEnd (hordered h) (by linarith)
  | @mergeTouching pre left right post h htouch =>
    have hleft := hordered h
    have hright : right.sourceStartSecs ≤ right.sourceEndSecs :=
      hsorted.ordered _ (by rw [h]; simp)
    have hfrom : right.clip = ((left.before right.sourceEndSecs).from
        left.sourceEndSecs).clip := by
      rw [← htouch]
      rfl
    rw [h]
    exact (sameTimeline_cut (left.before right.sourceEndSecs) _ hleft (by rwa [← htouch]) rfl
      hfrom).symm.listFollows
  | @mergeAcross pre left right post h hgap htolerance =>
    have hright : right.sourceStartSecs ≤ right.sourceEndSecs :=
      hsorted.ordered _ (by rw [h]; simp)
    rw [h]
    exact listFollows_merge (hordered h) (by linarith) hright
  | expandStart h hgrow => exact h ▸ listFollows_extendStart hgrow.le (hordered h)
  | expandEnd h hgrow => exact h ▸ listFollows_extendEnd (hordered h) hgrow.le

/-- The ranges a committed edit removes from the zooms are in order. -/
theorem CommittedEdit.inOrder {editor : BundleEditor} {gesture : TimelineGesture}
    {segments' : List VideoSegment} {edit zoomEdit : TimeEdit Secs}
    (h : CommittedEdit editor gesture segments' edit zoomEdit) :
    ∀ ranges, zoomEdit = .remove ranges → InOrder ranges := by
  have hsingle : ∀ range : Secs × Secs, 0 ≤ range.2 → InOrder [range] := fun range hrange =>
    ⟨by simpa using hrange, List.pairwise_singleton _ _⟩
  have hnil : InOrder ([] : List (Secs × Secs)) := ⟨by simp, List.Pairwise.nil⟩
  cases h <;> rintro ranges ⟨⟩
  case split => exact hnil
  case delete segment _ _ _ => exact hsingle _ segment.durationSecs_nonneg
  case trimStart hshrink _ => exact hsingle _ (sub_nonneg.mpr hshrink.le)
  case trimEnd hshrink _ => exact hsingle _ (sub_nonneg.mpr hshrink.le)
  case mergeTouching => exact hnil
  case mergeAcross => exact hnil

/-- A drag of one edge of a segment, as `begin_video_segment_drag` recorded it: whatever the pointer
did since, only the draft of the dragged edge has changed. -/
structure DragsEdge (editor : BundleEditor) (pre : List VideoSegment) (segment : VideoSegment)
    (edge : VideoSegmentEdge) (drag : VideoSegmentDrag) : Prop where
  id_eq : drag.id = segment.id
  edge_eq : drag.edge = edge
  timelineStartSecs : drag.timelineStartSecs = totalDuration pre
  originalSourceStartSecs : drag.originalSourceStartSecs = segment.sourceStartSecs
  originalSourceEndSecs : drag.originalSourceEndSecs = segment.sourceEndSecs
  originalZoomSegments : drag.originalZoomSegments = editor.bundle.zoomSegments
  draft : match edge with
    | .start => drag.draftSourceEndSecs = segment.sourceEndSecs ∧
        drag.draftSourceStartSecs ≤ segment.sourceEndSecs
    | .end => drag.draftSourceStartSecs = segment.sourceStartSecs ∧
        segment.sourceStartSecs ≤ drag.draftSourceEndSecs

/-- The bundle is still as it was, and the drag of the edge is in progress. -/
structure DragInProgress (editor : BundleEditor) (pre : List VideoSegment)
    (segment : VideoSegment) (edge : VideoSegmentEdge) (editor' : BundleEditor) : Prop where
  bundle : editor'.bundle = editor.bundle
  durationSecs : editor'.durationSecs = editor.durationSecs
  drag : ∃ drag, editor'.videoSegmentDrag = some drag ∧ DragsEdge editor pre segment edge drag

section Drag

variable {editor editor' : BundleEditor} {pre post : List VideoSegment} {segment : VideoSegment}
  {edge : VideoSegmentEdge}

theorem DragInProgress.begin {x : ℚ}
    (hordered : segment.sourceStartSecs ≤ segment.sourceEndSecs)
    (heq : editor.beginVideoSegmentDrag segment.id edge x = { editor with
        videoSegmentDrag := some
          (editor.newVideoSegmentDrag (pre ++ segment :: post) pre.length segment edge x)
        videoTimelineResizeGeneration := editor.videoTimelineResizeGeneration + 1
        videoTimelineResizeAnimation := none
        selectedVideoSegment := some segment.id
        selectedZoom := none
        cursorTimeSecs := none }) :
    DragInProgress editor pre segment edge (editor.beginVideoSegmentDrag segment.id edge x) := by
  rw [heq]
  refine ⟨rfl, rfl, _, rfl, rfl, rfl, ?_, rfl, rfl, rfl, ?_⟩
  · simp only [BundleEditor.newVideoSegmentDrag, Splice.take_middle]
  · cases edge
    · exact ⟨rfl, hordered⟩
    · exact ⟨rfl, hordered⟩

/-- Pointer moves change the draft of the dragged edge only, and leave 0.01 s of the segment. -/
theorem DragInProgress.event (h : DragInProgress editor pre segment edge editor')
    (event : DragEvent) :
    DragInProgress editor pre segment edge (editor'.performDragEvent event) := by
  cases event with
  | layout bounds => exact ⟨h.bundle, h.durationSecs, h.drag⟩
  | toggleCutMode => exact ⟨h.bundle, h.durationSecs, h.drag⟩
  | move event =>
    rcases BundleEditor.dragVideoSegment_cases editor' event with
      heq | ⟨drag, deltaSecs, hdrag, -, hbundle, hduration, hdraft⟩
    · rw [BundleEditor.performDragEvent, heq]
      exact h
    obtain ⟨drag', hdrag', hof⟩ := h.drag
    rw [hdrag, Option.some.injEq] at hdrag'
    subst hdrag'
    refine ⟨hbundle.trans h.bundle, hduration.trans h.durationSecs, _, hdraft,
      { hof with draft := ?_ }⟩
    have hedge := hof.edge_eq
    have hstart := hof.originalSourceStartSecs
    have hend := hof.originalSourceEndSecs
    unfold BundleEditor.dragDraft resizeVideoSegmentRange
    cases edge with
    | start =>
      simp only [hedge, hstart, hend]
      refine ⟨trivial, (min_le_right _ _).trans ?_⟩
      linarith
    | «end» =>
      simp only [hedge, hstart, hend]
      refine ⟨trivial, le_trans ?_ (le_max_right _ _)⟩
      linarith

theorem DragInProgress.events (h : DragInProgress editor pre segment edge editor')
    (events : List DragEvent) :
    DragInProgress editor pre segment edge
      (events.foldl BundleEditor.performDragEvent editor') := by
  induction events generalizing editor' with
  | nil => exact h
  | cons event events ih => exact ih (h.event event)

/-- Releasing the start edge commits a trim or an extension of the start. -/
theorem DragsEdge.commit_start {drag : VideoSegmentDrag} {x : ℚ} {events : List DragEvent}
    (h : DragsEdge editor pre segment .start drag)
    (hsegs : editor.segments = pre ++ segment :: post) :
    ∃ edit, CommittedEdit editor (.drag segment.id .start x events)
        (pre ++ { segment with
          sourceStartSecs := drag.draftSourceStartSecs
          sourceEndSecs := drag.draftSourceEndSecs } :: post) edit edit ∧
      rippleDrag drag = rippleZooms edit editor.bundle.zoomSegments := by
  obtain ⟨hend, hle⟩ := h.draft
  unfold rippleDrag
  simp only [hend, h.originalSourceStartSecs, h.originalSourceEndSecs, h.edge_eq,
    h.timelineStartSecs, h.originalZoomSegments]
  by_cases hshrink : segment.sourceStartSecs < drag.draftSourceStartSecs
  · refine ⟨_, .trimStart hsegs hshrink hle, ?_⟩
    rw [if_pos (by linarith), rippleDeleteRanges_eq (by linarith)]
    congr 4
    ring
  · refine ⟨_, .extendStart hsegs (not_lt.mp hshrink), ?_⟩
    rw [if_neg (by linarith), rippleInsertRanges_eq]
    congr 2
    ring

/-- Releasing the end edge commits a trim or an extension of the end. -/
theorem DragsEdge.commit_end {drag : VideoSegmentDrag} {x : ℚ} {events : List DragEvent}
    (h : DragsEdge editor pre segment .end drag)
    (hordered : segment.sourceStartSecs ≤ segment.sourceEndSecs)
    (hsegs : editor.segments = pre ++ segment :: post) :
    ∃ edit, CommittedEdit editor (.drag segment.id .end x events)
        (pre ++ { segment with
          sourceStartSecs := drag.draftSourceStartSecs
          sourceEndSecs := drag.draftSourceEndSecs } :: post) edit edit ∧
      rippleDrag drag = rippleZooms edit editor.bundle.zoomSegments := by
  obtain ⟨hstart, hle⟩ := h.draft
  unfold rippleDrag
  simp only [hstart, h.originalSourceStartSecs, h.originalSourceEndSecs, h.edge_eq,
    h.timelineStartSecs, h.originalZoomSegments]
  by_cases hshrink : drag.draftSourceEndSecs < segment.sourceEndSecs
  · refine ⟨_, .trimEnd hsegs hshrink hle, ?_⟩
    rw [if_pos (by linarith), rippleDeleteRanges_eq (by linarith)]
    congr 4
    ring
  · refine ⟨_, .extendEnd hsegs (not_lt.mp hshrink), ?_⟩
    rw [if_neg (by linarith), rippleInsertRanges_eq, VideoSegment.durationSecs_eq hordered]
    congr 2
    ring

end Drag

/-! ## The editor's edits -/

/-- What a gesture does to the bundle: nothing, or one committed edit that everything follows. -/
def CommitsOneEdit (editor : BundleEditor) (gesture : TimelineGesture) : Prop :=
  ((editor.commit gesture).bundle = editor.bundle ∧
      (editor.commit gesture).durationSecs = editor.durationSecs) ∨
    ∃ segments' edit zoomEdit, CommittedEdit editor gesture segments' edit zoomEdit ∧
      (editor.commit gesture).bundle.videoSegments = some segments' ∧
      FollowsEdit editor.bundle (editor.commit gesture).bundle edit zoomEdit ∧
      (editor.durationSecs = videoTimelineDuration editor.bundle →
        (editor.commit gesture).durationSecs = editor.durationSecs + edit.change)

section Commit

variable {editor : BundleEditor}

/-- A committed edit whose zooms are rippled is followed by the whole bundle. -/
theorem CommittedEdit.commits {gesture : TimelineGesture} {segments segments' : List VideoSegment}
    {edit zoomEdit : TimeEdit Secs} (hsorted : SortedSegments editor.segments)
    (hsegs : editor.bundle.videoSegments = some segments)
    (h : CommittedEdit editor gesture segments' edit zoomEdit)
    (hsegs' : (editor.commit gesture).bundle.videoSegments = some segments')
    (hzooms : (editor.commit gesture).bundle.zoomSegments =
      rippleZooms zoomEdit editor.bundle.zoomSegments)
    (hduration : (editor.commit gesture).durationSecs = totalDuration segments' ∨
      (editor.commit gesture).durationSecs = editor.durationSecs + edit.change) :
    CommitsOneEdit editor gesture := by
  have hlist := h.listFollows hsorted
  rw [segments_of_some hsegs] at hlist
  refine .inr ⟨segments', edit, zoomEdit, h, hsegs',
    .of_list hsegs hsegs' hlist hzooms (h.inOrder), ?_⟩
  intro heditor
  rcases hduration with hduration | hduration
  · rw [hduration, hlist.total, heditor, videoTimelineDuration, hsegs, Option.getD_some]
  · exact hduration

theorem commits_split (hsorted : SortedSegments editor.segments) (id : UInt64) (t : Secs) :
    CommitsOneEdit editor (.split id t) := by
  rcases BundleEditor.splitVideoSegment_cases editor id t with
    heq | ⟨pre, segment, post, hsegs, rfl, hcan, heq⟩
  · exact .inl ⟨congrArg BundleEditor.bundle heq, congrArg BundleEditor.durationSecs heq⟩
  have hlist := segments_of_some hsegs
  refine (CommittedEdit.split hlist hcan).commits hsorted hsegs ?_ ?_ (.inr ?_)
  · rw [BundleEditor.commit, heq]
  · rw [BundleEditor.commit, heq]
    rfl
  · rw [BundleEditor.commit, heq]
    simp [TimeEdit.change, TimeEdit.keep]

theorem commits_deleteSelected (hsorted : SortedSegments editor.segments) :
    CommitsOneEdit editor .deleteSelected := by
  rcases BundleEditor.deleteSelectedVideoSegment_cases editor with
    heq | ⟨id, pre, segment, post, hsel, hsegs, -, rfl, -, -, hedit⟩
  · exact .inl ⟨congrArg BundleEditor.bundle heq, congrArg BundleEditor.durationSecs heq⟩
  have hlist := segments_of_some hsegs
  refine (CommittedEdit.delete hlist hsel).commits hsorted hsegs ?_ ?_ (.inl hedit.durationSecs)
  · rw [BundleEditor.commit, hedit.bundle]
  · rw [BundleEditor.commit, hedit.bundle]
    exact rippleDeleteRanges_eq segment.durationSecs_nonneg _

theorem commits_cut (hsorted : SortedSegments editor.segments) (rightId : UInt64) :
    CommitsOneEdit editor (.cut rightId) := by
  have hε : (0 : Secs) < f64Epsilon := by norm_num [f64Epsilon]
  rcases BundleEditor.activateVideoCut_cases editor rightId with
    heq | ⟨segments, edit, segments', hsegs, hcut, -, hedit⟩
  · exact .inl ⟨congrArg BundleEditor.bundle heq, congrArg BundleEditor.durationSecs heq⟩
  obtain ⟨pre, left, right, post, rfl, rfl, -, hat, hcases⟩ := editVideoCut_cases hcut
  have hlist := segments_of_some hsegs
  have hbundle : (editor.commit (.cut right.id)).bundle = _ := hedit.bundle
  rcases hcases with ⟨hgap, hinserted, -, rfl⟩ | ⟨hgap, hinserted, -, rfl⟩
  · refine (CommittedEdit.fillGap hlist hgap).commits hsorted hsegs ?_ ?_ (.inl hedit.durationSecs)
    · rw [hbundle]
      rfl
    · rw [hbundle, hinserted, if_pos (by linarith), hat]
      rfl
  · have hsorted' := hsorted
    rw [hlist] at hsorted'
    have hleft : left ∈ pre ++ left :: right :: post := by simp
    have htouch : left.sourceEndSecs ≤ right.sourceStartSecs :=
      (List.pairwise_cons.mp (List.pairwise_append.mp hsorted'.sorted).2.1).1 right (by simp)
    have hright := hsorted'.ordered right (by simp)
    have hmax : max left.sourceEndSecs right.sourceEndSecs = right.sourceEndSecs :=
      max_eq_right (by linarith)
    have hsegs' : (editor.commit (.cut right.id)).bundle.videoSegments =
        some (pre ++ left.before right.sourceEndSecs :: post) := by
      rw [hbundle, hmax]
      rfl
    have hzooms : (editor.commit (.cut right.id)).bundle.zoomSegments =
        rippleZooms .keep editor.bundle.zoomSegments := by
      rw [hbundle, hinserted, if_neg (lt_irrefl 0)]
      rfl
    have hduration : (editor.commit (.cut right.id)).durationSecs =
        totalDuration (pre ++ left.before right.sourceEndSecs :: post) := by
      rw [← hmax]
      exact hedit.durationSecs
    rcases htouch.eq_or_lt with htouch | htouch
    · exact (CommittedEdit.mergeTouching hlist htouch.symm).commits hsorted hsegs hsegs' hzooms
        (.inl hduration)
    · exact (CommittedEdit.mergeAcross hlist (by linarith) hgap).commits hsorted hsegs hsegs'
        hzooms (.inl hduration)

theorem commits_expand (hsorted : SortedSegments editor.segments) (id : UInt64)
    (edge : VideoSegmentEdge) : CommitsOneEdit editor (.expand id edge) := by
  have hε : (0 : Secs) < f64Epsilon := by norm_num [f64Epsilon]
  rcases BundleEditor.activateVideoSegmentEdge_cases editor id edge with
    heq | ⟨pre, segment, post, hsegs, rfl, -, hlong, -, hedit⟩
  · exact .inl ⟨congrArg BundleEditor.bundle heq, congrArg BundleEditor.durationSecs heq⟩
  have hlist := segments_of_some hsegs
  have hbundle : (editor.commit (.expand segment.id edge)).bundle = _ := hedit.bundle
  cases edge with
  | start =>
    simp only [BundleEditor.expandSegmentEdge] at hlong hbundle
    have hgrow : 0 < segment.sourceStartSecs - editor.sourceStartSecs := by
      rcases lt_max_iff.mp hlong with h | h <;> linarith
    rw [max_eq_left hgrow.le] at hbundle
    refine (CommittedEdit.expandStart hlist (by linarith)).commits hsorted hsegs ?_ ?_
      (.inl hedit.durationSecs)
    · rw [hbundle]
      rfl
    · rw [hbundle]
      rfl
  | «end» =>
    simp only [BundleEditor.expandSegmentEdge] at hlong hbundle
    have hgrow : 0 < editor.sourceEndSecs - segment.sourceEndSecs := by
      rcases lt_max_iff.mp hlong with h | h <;> linarith
    rw [max_eq_left hgrow.le] at hbundle
    refine (CommittedEdit.expandEnd hlist (by linarith)).commits hsorted hsegs ?_ ?_
      (.inl hedit.durationSecs)
    · rw [hbundle]
      rfl
    · rw [hbundle]
      rfl

theorem commits_drag (hsorted : SortedSegments editor.segments) {id : UInt64}
    {edge : VideoSegmentEdge} {x : ℚ} {events : List DragEvent}
    (hstart : editor.canStart (.drag id edge x events)) :
    CommitsOneEdit editor (.drag id edge x events) := by
  obtain ⟨s, hs, hsid⟩ := hstart
  rcases BundleEditor.beginVideoSegmentDrag_cases editor id edge x with
    ⟨-, hnone⟩ | ⟨pre, segment, post, hsegs, rfl, hpre, heq⟩
  · exact absurd hsid (hnone s hs)
  have hlist := segments_of_some hsegs
  have hordered := hsorted.ordered segment (by rw [hlist]; simp)
  have hprogress := (DragInProgress.begin hordered heq).events events
  -- the release finds the segment the press recorded
  rcases (BundleEditor.finishVideoSegmentDrag_cases (events.foldl BundleEditor.performDragEvent
      (editor.beginVideoSegmentDrag segment.id edge x))).2 with
    ⟨-, hbundle, hduration⟩ | ⟨drag, pre', segment', post', hdrag, hsegs', hid, hpre', hedit⟩
  · exact .inl ⟨hbundle.trans hprogress.bundle, hduration.trans hprogress.durationSecs⟩
  obtain ⟨drag', hdrag', hof⟩ := hprogress.drag
  rw [hdrag, Option.some.injEq] at hdrag'
  subst hdrag'
  rw [hprogress.bundle, hsegs, Option.some.injEq] at hsegs'
  rw [hof.id_eq] at hid hpre'
  obtain ⟨rfl, rfl, rfl⟩ := Splice.first_match_unique (p := fun s => s.id = segment.id)
    hsegs' rfl hid hpre hpre'
  have hbundle : (editor.commit (.drag segment.id edge x events)).bundle = _ := hedit.bundle
  obtain ⟨edit, hcommitted, hripple⟩ : ∃ edit, CommittedEdit editor
      (.drag segment.id edge x events) (pre ++ { segment with
        sourceStartSecs := drag.draftSourceStartSecs
        sourceEndSecs := drag.draftSourceEndSecs } :: post) edit edit ∧
      rippleDrag drag = rippleZooms edit editor.bundle.zoomSegments := by
    cases edge with
    | start => exact hof.commit_start hlist
    | «end» => exact hof.commit_end hordered hlist
  refine hcommitted.commits hsorted hsegs ?_ ?_ (.inl hedit.durationSecs)
  · rw [hbundle]
  · rw [hbundle]
    exact hripple

end Commit

/-- A zoom from six to eight seconds. -/
def lateZoom : ZoomSegment where
  id := 1
  startSecs := 6
  endSecs := 8
  target := (0, 0)
  amount := 2
  transition := .slow

/-- Two segments half of `f64::EPSILON` apart. -/
def nearlyTouchingBundle : BlipBundle where
  zoomSegments := [lateZoom]
  videoSegments := some [{ id := 1, sourceStartSecs := 0, sourceEndSecs := 5 },
    { id := 2, sourceStartSecs := 5 + f64Epsilon / 2, sourceEndSecs := 10 }]

end Blip.Capture
