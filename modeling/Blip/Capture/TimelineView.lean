import Mathlib.Tactic.Positivity
import Mathlib.Tactic.Ring
import Blip.Capture.EditorDuration

/-!
# The visible window of the timeline

A resize animation is a task that keeps writing the view until it reaches its target or finds another
generation. `timelineView_settled` says when the view stays inside the timeline's extent while no
animation is pending, and that an animation never writes the view after a later edit chose one.

Four handlers do not allow for an animation in progress. `delete_selected_video_segment` chooses a
view without a new generation, so the animation overwrites it; a press on a segment's edge and a pan
end the animation where it is, and an expanded edge takes the view it finds as its target, though a
view half way to a shorter timeline may reach past its end.
-/

namespace Blip.Capture

open BundleEditor (SameView Retargets)

/-- The visible window is positive and inside the timeline's extent. -/
structure ViewFits (editor : BundleEditor) : Prop where
  start_nonneg : 0 ≤ editor.timelineViewStartSecs
  duration_pos : 0 < editor.timelineViewDurationSecs
  end_le : editor.timelineViewStartSecs + editor.timelineViewDurationSecs ≤
    timelineExtentSecs editor.durationSecs

/-- An event of the interface, not a tick, that changes the view, the duration or the animation. -/
def ChoosesView (editor : BundleEditor) (op : EditorOp) : Prop :=
  (∀ task elapsedSecs, op ≠ .resizeTick task elapsedSecs) ∧
    ¬ ((editor.handle op).timelineViewStartSecs = editor.timelineViewStartSecs ∧
      (editor.handle op).timelineViewDurationSecs = editor.timelineViewDurationSecs ∧
      (editor.handle op).videoTimelineResizeAnimation = editor.videoTimelineResizeAnimation ∧
      (editor.handle op).durationSecs = editor.durationSecs)

/-- Whether a window reaches past the end of a timeline. -/
def BundleEditor.viewEndsWithin (editor : BundleEditor) (durationSecs : Secs) : Prop :=
  editor.timelineViewStartSecs + editor.timelineViewDurationSecs ≤ timelineExtentSecs durationSecs

/-- What a step must not do while an animation is pending: delete a segment, or settle on a window
that reaches past the end of the timeline. -/
def PendingStepOk (editor : BundleEditor) : EditorOp → Prop
  | .deleteSelected => editor.selectedZoom = none →
      (∃ s ∈ editor.segments, editor.selectedVideoSegment = some s.id) → editor.segments.length ≤ 1
  | .pressVideoSegmentEdge id _ _ => (∃ s ∈ editor.segments, s.id = id) →
      editor.viewEndsWithin editor.durationSecs
  | .scroll event => event.precise = true → editor.timelineViewStartSecs ≠ 0 →
      editor.timelineViewDurationSecs ≤ timelineExtentSecs editor.durationSecs
  | .clickVideoSegmentEdge id edge => ∀ s ∈ editor.segments, s.id = id →
      f64Epsilon < (editor.expandSegmentEdge s edge 0).2.2 →
        editor.timelineViewStartSecs ≤ f64Epsilon ∧
            timelineExtentSecs editor.durationSecs - f64Epsilon ≤ editor.timelineViewDurationSecs ∨
          editor.viewEndsWithin (editor.durationSecs + (editor.expandSegmentEdge s edge 0).2.2)
  | _ => True

/-- The steps that leave the view to its latest chooser. The generation must not wrap either. -/
def ViewStepOk (editor : BundleEditor) (op : EditorOp) : Prop :=
  editor.videoTimelineResizeGeneration.toNat + 1 < UInt64.size ∧
    (editor.videoTimelineResizeAnimation ≠ none → PendingStepOk editor op)

/-! ## Windows -/

theorem timelineExtentSecs_pos (durationSecs : Secs) : 0 < timelineExtentSecs durationSecs := by
  have := le_max_right durationSecs 0
  unfold timelineExtentSecs timelineTrailingSpaceSecs
  linarith

theorem timelineExtentSecs_mono {a b : Secs} (h : a ≤ b) :
    timelineExtentSecs a ≤ timelineExtentSecs b := by
  have := max_le_max_right 0 h
  unfold timelineExtentSecs
  linarith

theorem clampSecs_le {low high t : Secs} (h : low ≤ high) : clampSecs low high t ≤ high :=
  max_le h (min_le_left _ _)

theorem le_clampSecs (low high t : Secs) : low ≤ clampSecs low high t := le_max_left _ _

/-- A clamped start leaves room for a window no longer than the extent. -/
theorem clampTimelineViewStart_fits {start duration extent : Secs} (h : duration ≤ extent) :
    0 ≤ clampTimelineViewStart start duration extent ∧
      clampTimelineViewStart start duration extent + duration ≤ extent := by
  have hmax : max (extent - duration) 0 = extent - duration := max_eq_left (by linarith)
  have hle : clampTimelineViewStart start duration extent ≤ extent - duration := by
    unfold clampTimelineViewStart
    rw [hmax]
    exact clampSecs_le (by linarith)
  exact ⟨le_clampSecs _ _ _, by linarith⟩

/-- A window that fits an extent. -/
def WindowFits (window : Secs × Secs) (extent : Secs) : Prop :=
  0 ≤ window.1 ∧ 0 < window.2 ∧ window.1 + window.2 ≤ extent

theorem fittedView_fits {editor : BundleEditor} (h : 0 < editor.timelineViewDurationSecs)
    (durationSecs : Secs) :
    WindowFits (editor.fittedView durationSecs) (timelineExtentSecs durationSecs) := by
  have hextent := timelineExtentSecs_pos durationSecs
  have hmin : 0 < min editor.timelineViewDurationSecs (timelineExtentSecs durationSecs) :=
    lt_min h hextent
  have hmax : max (min editor.timelineViewDurationSecs (timelineExtentSecs durationSecs)) 0
      = min editor.timelineViewDurationSecs (timelineExtentSecs durationSecs) := max_eq_left hmin.le
  have hle := min_le_right editor.timelineViewDurationSecs (timelineExtentSecs durationSecs)
  unfold BundleEditor.fittedView
  simp only [hmax]
  exact ⟨(clampTimelineViewStart_fits hle).1, hmin, (clampTimelineViewStart_fits hle).2⟩

theorem cutView_fits {editor : BundleEditor} (h : 0 < editor.timelineViewDurationSecs)
    (durationSecs : Secs) :
    WindowFits (editor.cutView durationSecs) (timelineExtentSecs durationSecs) := by
  have hextent := timelineExtentSecs_pos durationSecs
  unfold BundleEditor.cutView
  split
  · exact ⟨le_refl _, hextent, by simp⟩
  · next hother =>
    push Not at hother
    exact ⟨(clampTimelineViewStart_fits hother.2).1, h, (clampTimelineViewStart_fits hother.2).2⟩

theorem zoomedTimelineView_fits (start duration focal scale : ℚ) {extent : Secs} (h : 0 < extent) :
    WindowFits (zoomedTimelineView start duration extent focal scale) extent := by
  have hmin : 0 < min (max (extent / 10) (1 / 20)) extent :=
    lt_min (lt_max_of_lt_right (by norm_num)) h
  have hle := min_le_right (max (extent / 10) (1 / 20)) extent
  unfold zoomedTimelineView
  rw [if_neg (not_le.mpr h)]
  simp only
  exact ⟨(clampTimelineViewStart_fits (clampSecs_le hle)).1, hmin.trans_le (le_clampSecs _ _ _),
    (clampTimelineViewStart_fits (clampSecs_le hle)).2⟩

/-- The window a slider position chooses. -/
theorem sliderView_fits (center fraction : ℚ) {extent : Secs} (h : 0 < extent)
    (hfraction : 0 ≤ fraction) :
    WindowFits (clampTimelineViewStart (center - extent / (1 + fraction * 9) * (1 / 2))
      (extent / (1 + fraction * 9)) extent, extent / (1 + fraction * 9)) extent := by
  have hle : extent / (1 + fraction * 9) ≤ extent := div_le_self h.le (by linarith)
  exact ⟨(clampTimelineViewStart_fits hle).1, by positivity, (clampTimelineViewStart_fits hle).2⟩

/-- The easing runs from 0 to 1, and ends at 1. -/
theorem resizeEased_bounds (elapsedSecs : Secs) :
    0 ≤ resizeEased (resizeProgress elapsedSecs) ∧ resizeEased (resizeProgress elapsedSecs) ≤ 1 := by
  have hlow : 0 ≤ resizeProgress elapsedSecs := le_clampSecs _ _ _
  have hhigh : resizeProgress elapsedSecs ≤ 1 := clampSecs_le (by norm_num)
  have hrest : 0 ≤ 1 - resizeProgress elapsedSecs := by linarith
  have hpow : (1 - resizeProgress elapsedSecs) ^ 5 ≤ 1 := pow_le_one₀ hrest (by linarith)
  have hpow' : 0 ≤ (1 - resizeProgress elapsedSecs) ^ 5 := pow_nonneg hrest 5
  unfold resizeEased
  exact ⟨by linarith, by linarith⟩

theorem resizeEased_done {elapsedSecs : Secs} (h : 1 ≤ resizeProgress elapsedSecs) :
    resizeEased (resizeProgress elapsedSecs) = 1 := by
  have hone : resizeProgress elapsedSecs = 1 := le_antisymm (clampSecs_le (by norm_num)) h
  norm_num [hone, resizeEased]

/-- Between two values of one sign, an animation keeps the sign. -/
theorem interpolate_nonneg {a b e : ℚ} (ha : 0 ≤ a) (hb : 0 ≤ b) (he : 0 ≤ e) (he' : e ≤ 1) :
    0 ≤ a + (b - a) * e := by
  have : a + (b - a) * e = a * (1 - e) + b * e := by ring
  rw [this]
  have : 0 ≤ 1 - e := by linarith
  positivity

theorem interpolate_pos {a b e : ℚ} (ha : 0 < a) (hb : 0 < b) (he : 0 ≤ e) (he' : e ≤ 1) :
    0 < a + (b - a) * e := by
  rcases le_total a b with h | h
  · have : 0 ≤ (b - a) * e := mul_nonneg (by linarith) he
    linarith
  · have : (b - a) * e ≥ (b - a) := by nlinarith
    linarith

/-! ## What holds of the view -/

/-- A tick task between two positive windows that start inside the timeline. -/
structure TaskWf (task : VideoTimelineResizeAnimation) : Prop where
  view_start : 0 ≤ task.viewStartSecs
  view_duration : 0 < task.viewDurationSecs
  target_start : 0 ≤ task.targetViewStartSecs
  target_duration : 0 < task.targetViewDurationSecs

/-- The view is positive and starts inside the timeline. It fits unless an animation is pending, and
then the animation's target does. The only task that can still write is the pending animation's. -/
structure ViewInv (editor : BundleEditor) : Prop where
  duration : DurationInv editor
  start_nonneg : 0 ≤ editor.timelineViewStartSecs
  duration_pos : 0 < editor.timelineViewDurationSecs
  settled : editor.videoTimelineResizeAnimation = none →
    editor.viewEndsWithin editor.durationSecs
  pending : ∀ task, editor.videoTimelineResizeAnimation = some task →
    WindowFits (task.targetViewStartSecs, task.targetViewDurationSecs)
      (timelineExtentSecs editor.durationSecs)
  tasks : ∀ task ∈ editor.resizeTasks, TaskWf task
  past : ∀ task ∈ editor.resizeTasks,
    task.generation.toNat ≤ editor.videoTimelineResizeGeneration.toNat
  live : ∀ task ∈ editor.resizeTasks,
    task.generation = editor.videoTimelineResizeGeneration →
      editor.videoTimelineResizeAnimation = some task
  once : (editor.resizeTasks.map VideoTimelineResizeAnimation.generation).Nodup

theorem toNat_succ {generation : UInt64} (h : generation.toNat + 1 < UInt64.size) :
    (generation + 1).toNat = generation.toNat + 1 := by
  rw [UInt64.toNat_add]
  exact Nat.mod_eq_of_lt h

section Steps

variable {editor editor' : BundleEditor}

theorem ViewInv.same (h : ViewInv editor) (hduration : DurationInv editor')
    (hsame : SameView editor editor') : ViewInv editor' := by
  refine ⟨hduration, ?_, ?_, ?_, ?_, ?_, ?_, ?_, ?_⟩
  · rw [hsame.timelineViewStartSecs]; exact h.start_nonneg
  · rw [hsame.timelineViewDurationSecs]; exact h.duration_pos
  · unfold BundleEditor.viewEndsWithin
    rw [hsame.animation, hsame.timelineViewStartSecs, hsame.timelineViewDurationSecs,
      hsame.durationSecs]
    exact h.settled
  · rw [hsame.animation, hsame.durationSecs]; exact h.pending
  · rw [hsame.resizeTasks]; exact h.tasks
  · rw [hsame.resizeTasks, hsame.generation]; exact h.past
  · rw [hsame.resizeTasks, hsame.generation, hsame.animation]; exact h.live
  · rw [hsame.resizeTasks]; exact h.once

/-- A new view of a generation of its own, reached at once or by an animation. -/
theorem ViewInv.retarget (h : ViewInv editor) (hduration : DurationInv editor')
    {target : Secs × Secs} (hstep : Retargets editor editor' target)
    (hfits : WindowFits target (timelineExtentSecs editor'.durationSecs))
    (hwrap : editor.videoTimelineResizeGeneration.toNat + 1 < UInt64.size) : ViewInv editor' := by
  obtain ⟨hstart, hpos, hend⟩ := hfits
  have hgen := congrArg UInt64.toNat hstep.generation
  rw [toNat_succ hwrap] at hgen
  -- every task there was is now a generation behind
  have hbehind : ∀ task ∈ editor.resizeTasks,
      task.generation ≠ editor'.videoTimelineResizeGeneration := by
    intro task htask heq
    have := h.past task htask
    rw [heq] at this
    omega
  have hpast : ∀ task ∈ editor.resizeTasks,
      task.generation.toNat ≤ editor'.videoTimelineResizeGeneration.toNat := by
    intro task htask
    have := h.past task htask
    omega
  rcases hstep.view with ⟨hnone, hview, htasks⟩ | ⟨task, hsome, htasks, hgen', htarget, hfrom, hview⟩
  · obtain ⟨hviewStart, hviewDuration⟩ := Prod.ext_iff.mp hview
    simp only at hviewStart hviewDuration
    refine ⟨hduration, by rwa [hviewStart], by rwa [hviewDuration], fun _ => ?_, ?_, ?_, ?_, ?_, ?_⟩
    · unfold BundleEditor.viewEndsWithin
      rwa [hviewStart, hviewDuration]
    · rw [hnone]; exact nofun
    · rw [htasks]; exact h.tasks
    · rw [htasks]; exact hpast
    · rw [htasks]; exact fun task htask heq => absurd heq (hbehind task htask)
    · rw [htasks]; exact h.once
  · obtain ⟨hviewStart, hviewDuration⟩ := Prod.ext_iff.mp hview
    obtain ⟨htargetStart, htargetDuration⟩ := Prod.ext_iff.mp htarget
    obtain ⟨hfromStart, hfromDuration⟩ := Prod.ext_iff.mp hfrom
    simp only at hviewStart hviewDuration htargetStart htargetDuration hfromStart hfromDuration
    have htask : TaskWf task :=
      ⟨hfromStart ▸ h.start_nonneg, hfromDuration ▸ h.duration_pos, htargetStart ▸ hstart,
        htargetDuration ▸ hpos⟩
    have hcurrent : task.generation = editor'.videoTimelineResizeGeneration :=
      hgen'.trans hstep.generation.symm
    refine ⟨hduration, hviewStart ▸ h.start_nonneg, hviewDuration ▸ h.duration_pos, ?_, ?_, ?_, ?_,
      ?_, ?_⟩
    · rw [hsome]; exact nofun
    · intro task' htask'
      rw [hsome] at htask'
      cases htask'
      exact ⟨htask.target_start, htask.target_duration, by
        rw [htargetStart, htargetDuration]; exact hend⟩
    all_goals rw [htasks]
    · intro task' htask'
      rcases List.mem_append.mp htask' with htask' | htask'
      · exact h.tasks task' htask'
      · rw [List.mem_singleton.mp htask']
        exact htask
    · intro task' htask'
      rcases List.mem_append.mp htask' with htask' | htask'
      · exact hpast task' htask'
      · rw [List.mem_singleton.mp htask', hcurrent]
    · intro task' htask' heq
      rcases List.mem_append.mp htask' with htask' | htask'
      · exact absurd heq (hbehind task' htask')
      · rw [hsome, List.mem_singleton.mp htask']
    · rw [List.map_append, List.map_singleton, List.nodup_append]
      refine ⟨h.once, List.nodup_singleton _, ?_⟩
      intro generation hmem other hother heq
      obtain ⟨task', htask', rfl⟩ := List.mem_map.mp hmem
      rw [List.mem_singleton.mp hother, hcurrent] at heq
      exact hbehind task' htask' heq

/-- Ending an animation where it is, or keeping a settled view, under a new generation. -/
theorem ViewInv.settle (h : ViewInv editor) (hduration : DurationInv editor')
    (hstep : Retargets editor editor'
      (editor.timelineViewStartSecs, editor.timelineViewDurationSecs))
    (hends : editor.videoTimelineResizeAnimation ≠ none →
      editor.viewEndsWithin editor.durationSecs)
    (hsame : editor'.durationSecs = editor.durationSecs)
    (hwrap : editor.videoTimelineResizeGeneration.toNat + 1 < UInt64.size) : ViewInv editor' := by
  have hfits : editor.viewEndsWithin editor.durationSecs := by
    by_cases hnone : editor.videoTimelineResizeAnimation = none
    · exact h.settled hnone
    · exact hends hnone
  refine h.retarget hduration hstep ⟨h.start_nonneg, h.duration_pos, ?_⟩ hwrap
  rw [hsame]
  exact hfits

theorem ViewInv.deleteSelected (h : ViewInv editor) (hok : ViewStepOk editor .deleteSelected) :
    ViewInv editor.deleteSelected := by
  have hduration := h.duration.deleteSelected
  rcases editor.deleteSelected_effect with
    heq | ⟨id, -, heq⟩ | ⟨pre, segment, post, hzoom, -, heffect⟩
  · rwa [heq]
  · rw [heq] at hduration ⊢
    exact h.same hduration ⟨rfl, rfl, rfl, rfl, rfl, rfl⟩
  have hlist := segments_of_some heffect.before_segments
  -- the segment goes, so no animation may be pending
  have hnone : editor.videoTimelineResizeAnimation = none := by
    by_contra hpending
    have hlength := hok.2 hpending hzoom ⟨segment, by rw [hlist]; simp, heffect.selected⟩
    have hrest := List.length_pos_iff.mpr heffect.rest
    rw [hlist] at hlength
    simp only [List.length_append, List.length_cons] at hlength hrest
    omega
  obtain ⟨hviewStart, hviewDuration⟩ := Prod.ext_iff.mp heffect.view
  simp only at hviewStart hviewDuration
  obtain ⟨hstart, hpos, hend⟩ := fittedView_fits h.duration_pos editor.deleteSelected.durationSecs
  refine ⟨hduration, by rwa [hviewStart], by rwa [hviewDuration], fun _ => ?_, ?_, ?_, ?_, ?_, ?_⟩
  · unfold BundleEditor.viewEndsWithin
    rwa [hviewStart, hviewDuration]
  · rw [heffect.animation, hnone]; exact nofun
  · rw [heffect.tasks]; exact h.tasks
  · rw [heffect.tasks, heffect.generation]; exact h.past
  · rw [heffect.tasks, heffect.generation, heffect.animation]; exact h.live
  · rw [heffect.tasks]; exact h.once

theorem ViewInv.expandEdge (h : ViewInv editor) {id : UInt64} {edge : VideoSegmentEdge}
    (hok : ViewStepOk editor (.clickVideoSegmentEdge id edge)) :
    ViewInv (editor.activateVideoSegmentEdge id edge) := by
  have hduration := h.duration.expandEdge id edge
  rcases editor.activateVideoSegmentEdge_effect id edge with
    heq | ⟨pre, segment, post, hid, -, heffect⟩
  · rwa [heq]
  have hlist := segments_of_some heffect.before_segments
  have hmem : segment ∈ editor.segments := by rw [hlist]; simp
  have hpos := h.duration.positive segment hmem
  have hlong := heffect.long
  have hε : (0 : Secs) < f64Epsilon := by norm_num [f64Epsilon]
  -- the duration grows by what the expansion inserts, wherever it inserts it
  have hinserted : (editor.expandSegmentEdge segment edge (totalDuration pre)).2.2 =
      (editor.expandSegmentEdge segment edge 0).2.2 := by
    cases edge <;> rfl
  have hgrown : (editor.activateVideoSegmentEdge id edge).durationSecs =
      editor.durationSecs + (editor.expandSegmentEdge segment edge 0).2.2 := by
    rw [heffect.edited.durationSecs, h.duration.durationSecs, hlist, ← hinserted]
    simp only [totalDuration_append, totalDuration_cons]
    cases edge with
    | start =>
      simp only [BundleEditor.expandSegmentEdge] at hlong ⊢
      have hgap := (lt_max_iff.mp hlong).resolve_right (by linarith)
      simp only [VideoSegment.durationSecs]
      rw [max_eq_left (by linarith), max_eq_left (by linarith), max_eq_left (by linarith)]
      ring
    | «end» =>
      simp only [BundleEditor.expandSegmentEdge] at hlong ⊢
      have hgap := (lt_max_iff.mp hlong).resolve_right (by linarith)
      simp only [VideoSegment.durationSecs]
      rw [max_eq_left (by linarith), max_eq_left (by linarith), max_eq_left (by linarith)]
      ring
  rw [hinserted] at hlong
  refine h.retarget hduration heffect.retargets ?_ hok.1
  rw [hgrown]
  unfold BundleEditor.edgeView
  split
  · exact ⟨le_refl _, timelineExtentSecs_pos _, by simp⟩
  · next hpart =>
    refine ⟨h.start_nonneg, h.duration_pos, ?_⟩
    by_cases hnone : editor.videoTimelineResizeAnimation = none
    · exact (h.settled hnone).trans (timelineExtentSecs_mono (by linarith))
    · exact (hok.2 hnone segment hmem hid hlong).resolve_left hpart

theorem ViewInv.mouseUp (h : ViewInv editor)
    (hwrap : editor.videoTimelineResizeGeneration.toNat + 1 < UInt64.size) :
    ViewInv editor.finishZoomSegmentDrag.finishVideoSegmentDrag := by
  have hduration := h.duration.mouseUp
  have hsame : SameView editor editor.finishZoomSegmentDrag := by
    rcases editor.finishZoomSegmentDrag_effect with heq | ⟨_, _, _, -, -, -, -, heq⟩ <;> rw [heq] <;>
      exact ⟨rfl, rfl, rfl, rfl, rfl, rfl⟩
  have hzoom : DurationInv editor.finishZoomSegmentDrag := by
    rcases editor.finishZoomSegmentDrag_effect with heq | ⟨_, _, _, -, -, -, -, heq⟩ <;> rw [heq] <;>
      exact h.duration.same rfl rfl rfl
  have hreleased := h.same hzoom hsame
  rw [← hsame.generation] at hwrap
  generalize editor.finishZoomSegmentDrag = released at hreleased hduration hwrap
  rcases released.finishVideoSegmentDrag_effect with
    heq | ⟨drag, pre, segment, post, -, heffect⟩
  · rw [heq] at hduration ⊢
    exact hreleased.same hduration ⟨rfl, rfl, rfl, rfl, rfl, rfl⟩
  · exact hreleased.retarget hduration heffect.retargets
      (fittedView_fits hreleased.duration_pos _) hwrap

theorem ViewInv.scroll (h : ViewInv editor) {event : ScrollWheelEvent}
    (hok : ViewStepOk editor (.scroll event)) : ViewInv (editor.panTimeline event) := by
  have hduration := h.duration.handle (.scroll event)
  simp only [BundleEditor.handle, BundleEditor.panTimeline] at hduration ⊢
  split
  · exact h
  next hover =>
  split
  · next hmoved =>
    rw [if_neg hover, if_pos hmoved] at hduration
    -- the window keeps its length, which has to fit; a longer one is only ever left at the start
    have hle : editor.timelineViewDurationSecs ≤ timelineExtentSecs editor.durationSecs := by
      by_cases hnone : editor.videoTimelineResizeAnimation = none
      · have hsettled := h.settled hnone
        unfold BundleEditor.viewEndsWithin at hsettled
        linarith [h.start_nonneg]
      by_contra hlong
      have hprecise : event.precise = true := by
        by_contra hcoarse
        exact hover (.inl (by simpa using hcoarse))
      have hzero : editor.timelineViewStartSecs = 0 := by
        by_contra hne
        exact hlong (hok.2 hnone hprecise hne)
      apply hmoved
      unfold pannedTimelineView clampTimelineViewStart clampSecs
      rw [hzero, max_eq_right (by linarith : timelineExtentSecs editor.durationSecs -
        editor.timelineViewDurationSecs ≤ 0)]
      exact max_eq_left (min_le_left _ _)
    have hfits := @clampTimelineViewStart_fits (editor.timelineViewStartSecs -
      event.deltaX / editor.timelineBounds.width * editor.timelineViewDurationSecs) _ _ hle
    exact @ViewInv.retarget _ _ h hduration (_, editor.timelineViewDurationSecs)
      ⟨rfl, .inl ⟨rfl, rfl, rfl⟩⟩ ⟨hfits.1, h.duration_pos, hfits.2⟩ hok.1
  · exact h

theorem ViewInv.pinch (h : ViewInv editor) {event : PinchEvent}
    (hok : ViewStepOk editor (.pinch event)) : ViewInv (editor.zoomTimeline event) := by
  have hduration := h.duration.handle (.pinch event)
  simp only [BundleEditor.handle, BundleEditor.zoomTimeline] at hduration ⊢
  split
  · exact h
  next hover =>
  split
  · next hmoved =>
    rw [if_neg hover, if_pos hmoved] at hduration
    exact h.retarget hduration ⟨rfl, .inl ⟨rfl, rfl, rfl⟩⟩
      (zoomedTimelineView_fits _ _ _ _ (timelineExtentSecs_pos _)) hok.1
  · exact h

theorem ViewInv.moveSlider (h : ViewInv editor) {bounds : TimelineBounds} {x : ℚ}
    (hok : ViewStepOk editor (.moveTimelineZoomSlider bounds x)) :
    ViewInv (editor.setTimelineZoom bounds x) := by
  have hduration := h.duration.handle (.moveTimelineZoomSlider bounds x)
  simp only [BundleEditor.handle, BundleEditor.setTimelineZoom] at hduration ⊢
  split
  · exact h
  next hwidth =>
  rw [if_neg hwidth] at hduration
  exact h.retarget hduration ⟨rfl, .inl ⟨rfl, rfl, rfl⟩⟩
    (sliderView_fits _ _ (timelineExtentSecs_pos _) (le_clampSecs _ _ _)) hok.1

/-- A tick writes the view only for the pending animation, and its last one writes the target. -/
theorem ViewInv.resizeTick (h : ViewInv editor) {task : VideoTimelineResizeAnimation}
    (hmem : task ∈ editor.resizeTasks) (elapsedSecs : Secs) :
    ViewInv (editor.resizeTick task elapsedSecs) := by
  have hduration := h.duration.handle (.resizeTick task elapsedSecs)
  have hsub : ∀ task' ∈ editor.resizeTasks.erase task, task' ∈ editor.resizeTasks :=
    fun _ => List.mem_of_mem_erase
  have honce : ((editor.resizeTasks.erase task).map
      VideoTimelineResizeAnimation.generation).Nodup :=
    h.once.sublist (List.erase_sublist.map _)
  simp only [BundleEditor.handle, BundleEditor.resizeTick] at hduration ⊢
  split
  · next hstale =>
    rw [if_pos hstale] at hduration
    exact ⟨hduration, h.start_nonneg, h.duration_pos, h.settled, h.pending,
      fun task' htask' => h.tasks task' (hsub task' htask'),
      fun task' htask' => h.past task' (hsub task' htask'),
      fun task' htask' => h.live task' (hsub task' htask'), honce⟩
  next hlive =>
  rw [if_neg hlive] at hduration
  have hgen : task.generation = editor.videoTimelineResizeGeneration :=
    (not_not.mp hlive).symm
  have hsome := h.live task hmem hgen
  have hwf := h.tasks task hmem
  obtain ⟨heased, heased'⟩ := resizeEased_bounds elapsedSecs
  have hstart := interpolate_nonneg hwf.view_start hwf.target_start heased heased'
  have hpos := interpolate_pos hwf.view_duration hwf.target_duration heased heased'
  split
  · next hdone =>
    rw [if_pos hdone] at hduration
    have hone := resizeEased_done hdone
    refine ⟨hduration, hstart, hpos, fun _ => ?_, by rintro _ ⟨⟩,
      fun task' htask' => h.tasks task' (hsub task' htask'),
      fun task' htask' => h.past task' (hsub task' htask'), ?_, honce⟩
    · have hend := (h.pending task hsome).2.2
      simp only [BundleEditor.viewEndsWithin, hone, mul_one, add_sub_cancel]
      exact hend
    · -- no other task is of this generation
      intro task' htask' heq
      exfalso
      have hperm := (List.perm_cons_erase hmem).map VideoTimelineResizeAnimation.generation
      have hnodup := hperm.nodup_iff.mp h.once
      rw [List.map_cons, List.nodup_cons] at hnodup
      exact hnodup.1 (List.mem_map.mpr ⟨task', htask', heq.trans hgen.symm⟩)
  · next hrunning =>
    rw [if_neg hrunning] at hduration
    refine ⟨hduration, hstart, hpos, fun hnone => ?_, h.pending, h.tasks, h.past, h.live, h.once⟩
    rw [show editor.videoTimelineResizeAnimation = none from hnone] at hsome
    cases hsome

/-- Every step that meets `ViewStepOk` keeps the view. -/
theorem ViewInv.step (h : ViewInv editor) {op : EditorOp} (hok : ViewStepOk editor op)
    (hstep : editorSystem.step editor op editor') : ViewInv editor' := by
  obtain ⟨hcan, rfl⟩ := hstep
  cases op with
  | layout | setReduceMotion | toggleCutMode | escape | openCropDialog | pressTimeline
  | pressVideoSegment | pressZoomTrack | pressZoomSegment | pressZoomSegmentEdge | mouseMove
  | mouseExit | playbackBack | playbackForward | togglePlayback | playbackFrame =>
    exact h.same (h.duration.handle _) (editor.handle_keepsView rfl)
  | deleteSelected => exact h.deleteSelected hok
  | pressVideoSegmentEdge id edge x =>
    have hduration := h.duration.beginVideoDrag id edge x
    rcases editor.beginVideoSegmentDrag_cases id edge x with
      ⟨heq, -⟩ | ⟨pre, segment, post, hsegs, hid, -, heq⟩ <;> rw [BundleEditor.handle, heq]
    · exact h
    rw [heq] at hduration
    have hmem : segment ∈ editor.segments := by rw [segments_of_some hsegs]; simp
    exact h.settle hduration ⟨rfl, .inl ⟨rfl, rfl, rfl⟩⟩
      (fun hpending => hok.2 hpending ⟨segment, hmem, hid⟩) rfl hok.1
  | clickCut rightId =>
    have hduration := h.duration.activateCut rightId
    rcases editor.activateVideoCut_effect rightId with
      ⟨heq, -⟩ | ⟨edit, list, list', -, heffect⟩
    · rw [BundleEditor.handle, heq]
      exact h
    · exact h.retarget hduration heffect.retargets (cutView_fits h.duration_pos _) hok.1
  | clickVideoSegmentEdge id edge => exact h.expandEdge hok
  | moveTimelineZoomSlider bounds x => exact h.moveSlider hok
  | mouseUp => exact h.mouseUp hok.1
  | pinch event => exact h.pinch hok
  | scroll event => exact h.scroll hok
  | resizeTick task elapsedSecs =>
    have hmem : task ∈ editor.resizeTasks := of_decide_eq_true hcan
    exact h.resizeTick hmem elapsedSecs

/-! ## Earlier animations -/

/-- An event either begins a generation, or leaves the view alone, or is a tick or a deletion. -/
theorem handle_generation_cases (editor : BundleEditor) (op : EditorOp) :
    (editor.handle op).videoTimelineResizeGeneration = editor.videoTimelineResizeGeneration + 1 ∨
    (editor.handle op).videoTimelineResizeGeneration = editor.videoTimelineResizeGeneration ∧
      (SameView editor (editor.handle op) ∨ (∃ task elapsedSecs, op = .resizeTick task elapsedSecs) ∨
        ∃ pre segment post, op = .deleteSelected ∧ editor.selectedZoom = none ∧
          BundleEditor.DeletesSegment editor (editor.handle op) pre post segment) := by
  have hsame : ∀ {after : BundleEditor}, SameView editor after →
      -- an event that finds nothing to do keeps the view, and so the generation
      after.videoTimelineResizeGeneration = editor.videoTimelineResizeGeneration ∧
        (SameView editor after ∨ (∃ task elapsedSecs, op = .resizeTick task elapsedSecs) ∨
          ∃ pre segment post, op = .deleteSelected ∧ editor.selectedZoom = none ∧
            BundleEditor.DeletesSegment editor after pre post segment) :=
    fun hview => ⟨hview.generation, .inl hview⟩
  cases op with
  | layout | setReduceMotion | toggleCutMode | escape | openCropDialog | pressTimeline
  | pressVideoSegment | pressZoomTrack | pressZoomSegment | pressZoomSegmentEdge | mouseMove
  | mouseExit | playbackBack | playbackForward | togglePlayback | playbackFrame =>
    exact .inr (hsame (editor.handle_keepsView rfl))
  | deleteSelected =>
    rw [BundleEditor.handle]
    rcases editor.deleteSelected_effect with
      heq | ⟨id, -, heq⟩ | ⟨pre, segment, post, hzoom, -, heffect⟩
    · rw [heq]
      exact .inr (hsame (.refl _))
    · rw [heq]
      exact .inr (hsame ⟨rfl, rfl, rfl, rfl, rfl, rfl⟩)
    · exact .inr ⟨heffect.generation, .inr (.inr ⟨pre, segment, post, rfl, hzoom, heffect⟩)⟩
  | pressVideoSegmentEdge id edge x =>
    rcases editor.beginVideoSegmentDrag_cases id edge x with
      ⟨heq, -⟩ | ⟨_, _, _, -, -, -, heq⟩ <;> rw [BundleEditor.handle, heq]
    · exact .inr (hsame (.refl _))
    · exact .inl rfl
  | clickCut rightId =>
    rcases editor.activateVideoCut_effect rightId with ⟨heq, -⟩ | ⟨_, _, _, -, heffect⟩
    · rw [BundleEditor.handle, heq]
      exact .inr (hsame (.refl _))
    · exact .inl heffect.retargets.generation
  | clickVideoSegmentEdge id edge =>
    rcases editor.activateVideoSegmentEdge_effect id edge with heq | ⟨_, _, _, -, -, heffect⟩
    · rw [BundleEditor.handle, heq]
      exact .inr (hsame (.refl _))
    · exact .inl heffect.retargets.generation
  | moveTimelineZoomSlider bounds x =>
    simp only [BundleEditor.handle, BundleEditor.setTimelineZoom]
    split
    · exact .inr (hsame (.refl _))
    · exact .inl rfl
  | mouseUp =>
    have hzoom : SameView editor editor.finishZoomSegmentDrag := by
      rcases editor.finishZoomSegmentDrag_effect with heq | ⟨_, _, _, -, -, -, -, heq⟩ <;>
        rw [heq] <;> exact ⟨rfl, rfl, rfl, rfl, rfl, rfl⟩
    rcases editor.finishZoomSegmentDrag.finishVideoSegmentDrag_effect with
      heq | ⟨_, _, _, _, -, heffect⟩
    · rw [BundleEditor.handle, heq]
      exact .inr (hsame (hzoom.trans ⟨rfl, rfl, rfl, rfl, rfl, rfl⟩))
    · left
      rw [BundleEditor.handle, heffect.retargets.generation, hzoom.generation]
  | pinch event =>
    simp only [BundleEditor.handle, BundleEditor.zoomTimeline]
    split
    · exact .inr (hsame (.refl _))
    split
    · exact .inl rfl
    · exact .inr (hsame (.refl _))
  | scroll event =>
    simp only [BundleEditor.handle, BundleEditor.panTimeline]
    split
    · exact .inr (hsame (.refl _))
    split
    · exact .inl rfl
    · exact .inr (hsame (.refl _))
  | resizeTick task elapsedSecs =>
    refine .inr ⟨?_, .inr (.inl ⟨task, elapsedSecs, rfl⟩)⟩
    simp only [BundleEditor.handle, BundleEditor.resizeTick]
    split
    · rfl
    · split <;> rfl

/-- Generations only grow. -/
theorem generation_le_handle {op : EditorOp} (hok : ViewStepOk editor op) :
    editor.videoTimelineResizeGeneration.toNat ≤
      (editor.handle op).videoTimelineResizeGeneration.toNat := by
  rcases handle_generation_cases editor op with hnext | ⟨hsame, -⟩
  · rw [hnext, toNat_succ hok.1]
    omega
  · rw [hsame]

theorem generation_le_of_run {ops : List EditorOp}
    (hrun : (editorSystem.restrict ViewStepOk).Run editor ops editor') :
    editor.videoTimelineResizeGeneration.toNat ≤ editor'.videoTimelineResizeGeneration.toNat := by
  induction hrun with
  | nil => exact le_refl _
  | cons hstep _ ih =>
    obtain ⟨hok, -, rfl⟩ := hstep
    exact (generation_le_handle hok).trans ih

/-- Once an event chose a view, the tasks there were before it are generations behind. -/
theorem ViewInv.behind (h : ViewInv editor) {op : EditorOp} (hok : ViewStepOk editor op)
    (hchooses : ChoosesView editor op) {task : VideoTimelineResizeAnimation}
    (htask : task ∈ editor.resizeTasks) :
    task.generation.toNat < (editor.handle op).videoTimelineResizeGeneration.toNat := by
  have hpast := h.past task htask
  rcases handle_generation_cases editor op with
    hnext | ⟨hsame, hview | ⟨task', elapsedSecs, rfl⟩ | ⟨pre, segment, post, rfl, hzoom, heffect⟩⟩
  · rw [hnext, toNat_succ hok.1]
    omega
  · exact absurd ⟨hview.timelineViewStartSecs, hview.timelineViewDurationSecs, hview.animation,
      hview.durationSecs⟩ hchooses.2
  · exact absurd rfl (hchooses.1 task' elapsedSecs)
  · -- a deletion keeps the generation, so that no task of it may be left
    have hlist := segments_of_some heffect.before_segments
    have hnone : editor.videoTimelineResizeAnimation = none := by
      by_contra hpending
      have hlength := hok.2 hpending hzoom ⟨segment, by rw [hlist]; simp, heffect.selected⟩
      have hrest := List.length_pos_iff.mpr heffect.rest
      rw [hlist] at hlength
      simp only [List.length_append, List.length_cons] at hlength hrest
      omega
    rw [hsame]
    refine lt_of_le_of_ne hpast fun heq => ?_
    have hlive := h.live task htask (UInt64.toNat_inj.mp heq)
    rw [hnone] at hlive
    cases hlive

/-- A tick of an earlier generation leaves the view alone. -/
theorem resizeTick_behind {task : VideoTimelineResizeAnimation}
    (h : task.generation.toNat < editor.videoTimelineResizeGeneration.toNat)
    (elapsedSecs : Secs) :
    (editor.resizeTick task elapsedSecs).timelineViewStartSecs = editor.timelineViewStartSecs ∧
      (editor.resizeTick task elapsedSecs).timelineViewDurationSecs =
        editor.timelineViewDurationSecs := by
  have hne : editor.videoTimelineResizeGeneration ≠ task.generation := by
    intro heq
    rw [heq] at h
    omega
  unfold BundleEditor.resizeTick
  rw [if_pos hne]
  exact ⟨rfl, rfl⟩

end Steps

theorem viewInv_open (bundle : BlipBundle) (sourceRanges : List (Secs × Secs))
    (reduceMotion : Bool) : ViewInv (BundleEditor.openBundle bundle sourceRanges reduceMotion) :=
  ⟨durationInv_open _ _ _, le_refl _, timelineExtentSecs_pos _,
    fun _ => by simp [BundleEditor.viewEndsWithin, BundleEditor.openBundle], nofun, nofun, nofun,
    nofun, List.nodup_nil⟩

/-- Two segments of five seconds, of a longer source. -/
def partBundle : BlipBundle where
  zoomSegments := []
  videoSegments := some [{ id := 1, sourceStartSecs := 0, sourceEndSecs := 5 },
    { id := 2, sourceStartSecs := 5, sourceEndSecs := 10 }]

/-- The animation of the expanded last edge. -/
def expandTask : VideoTimelineResizeAnimation where
  viewStartSecs := 0
  viewDurationSecs := 13
  targetViewStartSecs := 0
  targetViewDurationSecs := 23
  generation := 1

/-- Expand the last edge and let the animation run half its time. -/
def expandOps : List EditorOp :=
  [.layout { originX := 0, width := 100 }, .clickVideoSegmentEdge 2 .end,
    .resizeTick expandTask (9 / 100)]

/-- A pan to the right by a hundredth of the window. -/
def panRight : EditorOp := .scroll { positionX := 50, precise := true, deltaX := -1 }

/-- Expand the last edge and delete the first segment while that animates. -/
def expandThenDeleteOps : List EditorOp :=
  [.layout { originX := 0, width := 100 }, .pressVideoSegment 1 5, .clickVideoSegmentEdge 2 .end,
    .deleteSelected, .resizeTick expandTask (18 / 100)]

end Blip.Capture
