import Blip.Capture.PreviewEffects
import Blip.Capture.EditorDuration

/-!
# The preview worker and the frame on screen

The editor, the worker's one-slot request channel, the worker and the results on their way back run
at their own pace. `preview_settles` says that once all is quiet the frame on screen is the one the
editor's state asks for. Two slips of the code are left out: a pause, and the end of a playback,
move on to a generation that drops the results of the last requests without asking again; and the
filter of a running playback drops a frame asked for at an earlier time than the last one shown.
Rendering is a function of the request, so a frame is told by what it was rendered from.
-/

namespace Blip.Capture

open BundleEditor

/-- Where `preview_worker` stands in its loop. -/
inductive PreviewWorker
  /-- In `recv_blocking`. -/
  | idle
  /-- In the `try_recv` loop, with the latest request so far. -/
  | received (request : PreviewRequest)
  | rendering (request : PreviewRequest)
deriving DecidableEq, Repr

def PreviewWorker.request : PreviewWorker → Option PreviewRequest
  | idle => none
  | received request | rendering request => some request

structure PreviewResult (F : Type*) where
  playbackGeneration : UInt64
  timelineTimeSecs : Secs
  frame : F
deriving DecidableEq, Repr

/-- The editor's window with its preview. `sends` are the requests the running handler has made and
not yet put into the channel: the worker runs beside it. -/
structure PreviewState (F : Type*) where
  editor : BundleEditor
  settings : PreviewSettings
  sends : List PreviewRequest
  previewRequests : Option PreviewRequest
  worker : PreviewWorker
  previewResults : List (PreviewResult F)
  currentFrame : Option F
deriving DecidableEq, Repr

inductive PreviewAction
  | event (op : EditorOp)
  /-- A control of the sidebar or the crop dialog. -/
  | changeSettings (settings : PreviewSettings)
  | setZoomAmount (amount : ℚ)
  | setZoomTransition (transition : ZoomTransitionSpeed)
  | setZoomTarget (target : ℚ × ℚ)
  /-- The handler's next `force_send`. -/
  | send
  /-- The worker's `recv_blocking` returns. -/
  | receive
  /-- The worker's `try_recv`: a later request replaces the one it holds. -/
  | tryReceive
  | render
  /-- The window takes the next result. -/
  | deliver
deriving DecidableEq, Repr

variable {F : Type*} (render : PreviewContent → F)

/-- The result a request is answered with. -/
def PreviewRequest.rendered (request : PreviewRequest) : PreviewResult F where
  playbackGeneration := request.playbackGeneration
  timelineTimeSecs := request.timelineTimeSecs
  frame := render request.content

/-- Whether the window takes a result: not of an earlier generation, nor, while playing, of a time
before the last one shown. -/
def PreviewResult.accepted (result : PreviewResult F) (editor : BundleEditor) : Bool :=
  result.playbackGeneration == editor.playbackGeneration &&
    !(editor.isPlaying && editor.lastPlaybackPreviewTimeSecs.any fun timeSecs =>
      decide (result.timelineTimeSecs < timeSecs))

/-- The last video segment is never deleted; without one there would be no frame to show. -/
def BundleEditor.clearsFrame (editor : BundleEditor) : EditorOp → Bool
  | .deleteSelected => editor.selectedZoom.isNone && decide (editor.deleteSelected ≠ editor) &&
      decide (editor.deleteSelected.durationSecs = 0)
  | _ => false

/-- `set_zoom_transition` and `set_zoom_target` ask once a zoom is selected. -/
def BundleEditor.asksSelectedZoom (editor after : BundleEditor) : List BundleEditor :=
  if editor.selectedZoom.any fun id => editor.bundle.zoomSegments.any fun segment =>
    segment.id == id then [after] else []

namespace PreviewState

variable (s : PreviewState F)

/-- A handler ran: it left the editor and the settings, and asked for previews on the way. -/
def handled (editor : BundleEditor) (settings : PreviewSettings) (asks : List BundleEditor) :
    PreviewState F :=
  { s with
    editor
    settings
    sends := asks.filterMap fun asking => asking.previewRequest settings }

def send : PreviewState F :=
  match s.sends with
  | [] => s
  | request :: sends => { s with sends, previewRequests := some request }

def receive : PreviewState F :=
  match s.worker, s.previewRequests with
  | .idle, some request => { s with worker := .received request, previewRequests := none }
  | _, _ => s

def tryReceive : PreviewState F :=
  match s.worker, s.previewRequests with
  | .received _, some request => { s with worker := .received request, previewRequests := none }
  | .received request, none => { s with worker := .rendering request }
  | _, _ => s

def finishRender : PreviewState F :=
  match s.worker with
  | .rendering request =>
    { s with worker := .idle, previewResults := s.previewResults ++ [request.rendered render] }
  | _ => s

def deliver : PreviewState F :=
  match s.previewResults with
  | [] => s
  | result :: previewResults =>
    if result.accepted s.editor then
      { s with
        previewResults
        currentFrame := some result.frame
        editor :=
          if s.editor.isPlaying then
            { s.editor with lastPlaybackPreviewTimeSecs := some result.timelineTimeSecs }
          else s.editor }
    else { s with previewResults }

def act : PreviewAction → PreviewState F
  | .event op =>
    { s.handled (s.editor.handle op) s.settings (s.editor.asks op) with
      currentFrame := if s.editor.clearsFrame op then none else s.currentFrame }
  | .changeSettings settings => s.handled s.editor settings [s.editor]
  | .setZoomAmount amount => s.handled (s.editor.setZoomAmount amount) s.settings
      (s.editor.asksIfEdited (s.editor.setZoomAmount amount))
  | .setZoomTransition transition => s.handled (s.editor.setZoomTransition transition) s.settings
      (s.editor.asksSelectedZoom (s.editor.setZoomTransition transition))
  | .setZoomTarget target => s.handled (s.editor.setZoomTarget target) s.settings
      (s.editor.asksSelectedZoom (s.editor.setZoomTarget target))
  | .send => s.send
  | .receive => s.receive
  | .tryReceive => s.tryReceive
  | .render => s.finishRender render
  | .deliver => s.deliver

/-- The window's own actions wait for the running handler. -/
def canAct : PreviewAction → Bool
  | .event op => s.sends.isEmpty && s.editor.canHandle op
  | .changeSettings _ | .setZoomAmount _ | .setZoomTransition _ | .setZoomTarget _ | .deliver =>
    s.sends.isEmpty
  | .send | .receive | .tryReceive | .render => true

/-- What is still on its way to the window, oldest first, as the results it leads to. -/
def pending : List (PreviewResult F) :=
  s.previewResults ++
    (s.worker.request.toList ++ s.previewRequests.toList ++ s.sends).map (·.rendered render)

/-- Nothing is on its way. -/
def Quiet : Prop :=
  s.sends = [] ∧ s.previewRequests = none ∧ s.worker = .idle ∧ s.previewResults = []

instance [DecidableEq F] : Decidable s.Quiet := inferInstanceAs (Decidable (_ ∧ _ ∧ _ ∧ _))

/-- The result the editor's state asks for. -/
def wanted : Option (PreviewResult F) :=
  (s.editor.previewRequest s.settings).map (·.rendered render)

/-- The frame on screen is the one for the previewed time and the current settings. -/
def ShowsWanted : Prop :=
  s.currentFrame = (s.editor.previewRequest s.settings).map fun request => render request.content

end PreviewState

/-- The window `open` creates: its first request is made at once. -/
def openPreview (F : Type*) (bundle : BlipBundle) (sourceRanges : List (Secs × Secs))
    (reduceMotion : Bool) (settings : PreviewSettings) : PreviewState F where
  editor := .openBundle bundle sourceRanges reduceMotion
  settings := settings
  sends := ((BundleEditor.openBundle bundle sourceRanges reduceMotion).previewRequest settings).toList
  previewRequests := none
  worker := .idle
  previewResults := []
  currentFrame := none

/-- The window and its preview worker, under every interleaving. -/
def previewSystem : System (PreviewState F) PreviewAction where
  init s := ∃ bundle sourceRanges reduceMotion settings,
    s = openPreview F bundle sourceRanges reduceMotion settings
  step s action s' := s.canAct action = true ∧ s' = s.act render action

/-- The steps that keep the preview up. Playback is paused with nothing on its way and does not reach
its end; a playback starts in a generation that nothing on its way has; an edge is pressed with the
cursor on the playhead; and a playback that goes on does not go back in time. -/
def PreviewStepOk (s : PreviewState F) : PreviewAction → Prop
  | .event (.togglePlayback _ _) =>
    (s.editor.isPlaying = true → s.pending render = []) ∧
      (s.editor.isPlaying = false → ∀ result ∈ s.pending render,
        result.playbackGeneration ≠ s.editor.playbackGeneration + 1)
  | .event op => s.editor.previewsEvent op ∧ ((s.editor.handle op).isPlaying = true →
      s.editor.previewTimeSecs ≤ (s.editor.handle op).previewTimeSecs)
  | _ => True

/-- The last of what is on its way is what the state asks for, and will be accepted; with nothing on
its way the frame on screen is. -/
structure PreviewInv (s : PreviewState F) : Prop where
  duration : DurationInv s.editor
  latest : ∀ result, (s.pending render).getLast? = some result → s.wanted render = some result
  shown : s.pending render = [] → s.ShowsWanted render
  last : s.editor.isPlaying = true → ∀ timeSecs,
    s.editor.lastPlaybackPreviewTimeSecs = some timeSecs → timeSecs ≤ s.editor.previewTimeSecs
  earlier : s.editor.isPlaying = true → ∀ result ∈ s.pending render,
    result.playbackGeneration = s.editor.playbackGeneration →
      result.timelineTimeSecs ≤ s.editor.previewTimeSecs

/-! ## Requests -/

theorem sourceTimeIn_eq_none_iff {segments : List VideoSegment} {timeSecs : Secs} :
    sourceTimeIn segments timeSecs = none ↔ segments = [] := by
  induction segments generalizing timeSecs with
  | nil => simp [sourceTimeIn]
  | cons segment rest ih =>
    simp only [sourceTimeIn, reduceCtorEq, iff_false]
    split
    · exact Option.some_ne_none _
    · next hlast =>
      rw [ih]
      exact fun hrest => hlast (.inr hrest)

/-- A request is made exactly when the timeline has a segment. -/
theorem previewRequest_eq_none_iff {editor : BundleEditor} {settings : PreviewSettings} :
    editor.previewRequest settings = none ↔ editor.segments = [] := by
  unfold previewRequest sourceTimeAt BundleEditor.segments
  rw [Option.map_eq_none_iff]
  cases editor.bundle.videoSegments with
  | none => simp
  | some segments => exact sourceTimeIn_eq_none_iff

theorem previewRequest_congr {before after : BundleEditor} (h : SamePreview before after)
    (settings : PreviewSettings) : after.previewRequest settings = before.previewRequest settings := by
  unfold previewRequest
  rw [h.bundle, h.time, h.generation]

theorem previewRequest_time {editor : BundleEditor} {settings : PreviewSettings}
    {request : PreviewRequest} (h : editor.previewRequest settings = some request) :
    request.timelineTimeSecs = editor.previewTimeSecs ∧
      request.playbackGeneration = editor.playbackGeneration := by
  obtain ⟨sourceTimeSecs, -, rfl⟩ := Option.map_eq_some_iff.mp h
  exact ⟨rfl, rfl⟩

/-- A deletion leaves a segment, so the frame stays. -/
theorem clearsFrame_eq_false {editor : BundleEditor} (h : DurationInv editor) (op : EditorOp) :
    editor.clearsFrame op = false := by
  unfold BundleEditor.clearsFrame
  cases op with
  | deleteSelected =>
    rcases editor.deleteSelected_effect with heq | ⟨id, hselected, -⟩ | ⟨_, _, _, -, -, heffect⟩
    · simp [heq]
    · simp [hselected]
    have hafter : DurationInv editor.deleteSelected := h.deleteSelected
    have hsegs := segments_of_edited heffect.edited
    have hpositive : 0 < editor.deleteSelected.durationSecs := by
      obtain ⟨segment, rest, hcons⟩ := List.exists_cons_of_ne_nil heffect.rest
      have hsegment := hafter.positive segment (by rw [hsegs, hcons]; simp)
      rw [hafter.durationSecs, hsegs, hcons, totalDuration_cons,
        VideoSegment.durationSecs_eq hsegment.le]
      linarith [totalDuration_nonneg rest]
    simp [hpositive.ne']
  | _ => rfl

/-! ## The window's handlers -/

section Steps

variable {render} {s : PreviewState F}

theorem PreviewState.pending_handled (hsends : s.sends = []) (after : BundleEditor)
    (settings : PreviewSettings) (asks : List BundleEditor) :
    (s.handled after settings asks).pending render = s.pending render ++
      (asks.filterMap fun asking => asking.previewRequest settings).map (·.rendered render) := by
  simp only [PreviewState.pending, PreviewState.handled, hsends, List.append_nil, List.map_append,
    List.append_assoc]

/-- The general form of a handler: what it asks for last is what its final state shows. -/
theorem PreviewInv.handled (h : PreviewInv render s) (hsends : s.sends = []) {after : BundleEditor}
    {settings : PreviewSettings} {asks : List BundleEditor} (hduration : DurationInv after)
    (hsettled : (∃ front last, asks = front ++ [last] ∧ SamePreview last after) ∨
      asks = [] ∧ settings = s.settings ∧ SamePreview s.editor after)
    (hsegments : after.segments = [] → s.editor.segments = [] ∧ ∀ e ∈ asks, e.segments = [])
    (hlast : after.isPlaying = true → ∀ timeSecs,
      after.lastPlaybackPreviewTimeSecs = some timeSecs → timeSecs ≤ after.previewTimeSecs)
    (hearlier : after.isPlaying = true → ∀ result ∈ s.pending render,
      result.playbackGeneration = after.playbackGeneration →
        result.timelineTimeSecs ≤ after.previewTimeSecs)
    (hasks : after.isPlaying = true → ∀ e ∈ asks, e.previewTimeSecs ≤ after.previewTimeSecs) :
    PreviewInv render (s.handled after settings asks) := by
  have hpending := @PreviewState.pending_handled _ render s hsends after settings asks
  have hearlier' : after.isPlaying = true →
      ∀ result ∈ (s.handled after settings asks).pending render,
        result.playbackGeneration = after.playbackGeneration →
          result.timelineTimeSecs ≤ after.previewTimeSecs := by
    intro hplaying result hresult hgeneration
    rw [hpending] at hresult
    rcases List.mem_append.mp hresult with hresult | hresult
    · exact hearlier hplaying result hresult hgeneration
    obtain ⟨request, hrequest, rfl⟩ := List.mem_map.mp hresult
    obtain ⟨e, he, hrequest⟩ := List.mem_filterMap.mp hrequest
    exact (previewRequest_time hrequest).1.trans_le (hasks hplaying e he)
  have hwanted : (s.handled after settings asks).wanted render =
      (after.previewRequest settings).map (·.rendered render) := rfl
  rcases hsettled with ⟨front, last, rfl, hsame⟩ | ⟨rfl, rfl, hsame⟩
  · cases hrequest : after.previewRequest settings with
    | some request =>
      rw [previewRequest_congr hsame] at hrequest
      have hconcat : (s.handled after settings (front ++ [last])).pending render =
          (s.pending render ++ (front.filterMap fun e => e.previewRequest settings).map
            (·.rendered render)) ++ [request.rendered render] := by
        rw [hpending, List.filterMap_append, List.map_append, List.append_assoc]
        simp [hrequest]
      refine ⟨hduration, ?_, ?_, hlast, hearlier'⟩
      · intro result hresult
        rw [hconcat, List.getLast?_concat] at hresult
        rw [hwanted, previewRequest_congr hsame, hrequest, ← hresult]
        rfl
      · intro hempty
        rw [hconcat] at hempty
        exact absurd hempty (List.append_ne_nil_of_right_ne_nil _ (List.cons_ne_nil _ _))
    | none =>
      -- without a segment nothing was ever asked for
      obtain ⟨hbefore, hfront⟩ := hsegments (previewRequest_eq_none_iff.mp hrequest)
      have hnone : (front ++ [last]).filterMap (fun e => e.previewRequest settings) = [] := by
        rw [List.filterMap_eq_nil_iff]
        exact fun e he => previewRequest_eq_none_iff.mpr (hfront e he)
      rw [hnone, List.map_nil, List.append_nil] at hpending
      have hwantedBefore : s.editor.previewRequest s.settings = none :=
        previewRequest_eq_none_iff.mpr hbefore
      have hnothing : s.pending render = [] := by
        cases hlist : (s.pending render).getLast? with
        | none => exact List.getLast?_eq_none_iff.mp hlist
        | some result =>
          have hsome := h.latest result hlist
          rw [PreviewState.wanted, hwantedBefore] at hsome
          cases hsome
      refine ⟨hduration, ?_, fun _ => ?_, hlast, hearlier'⟩
      · rw [hpending, hnothing]
        exact nofun
      · have hframe := h.shown hnothing
        unfold PreviewState.ShowsWanted at hframe ⊢
        rw [hwantedBefore] at hframe
        exact hframe.trans (by
          show none = (after.previewRequest settings).map _
          rw [hrequest]
          rfl)
  · rw [List.filterMap_nil, List.map_nil, List.append_nil] at hpending
    have hrequest := previewRequest_congr hsame s.settings
    refine ⟨hduration, ?_, ?_, hlast, hearlier'⟩
    · rw [hpending, hwanted, hrequest]
      exact h.latest
    · intro hempty
      rw [hpending] at hempty
      have hframe := h.shown hempty
      unfold PreviewState.ShowsWanted at hframe ⊢
      exact hframe.trans (congrArg _ hrequest.symm)

/-- A handler under which playback goes on as it was, or is stopped. -/
theorem PreviewInv.previewed (h : PreviewInv render s) (hsends : s.sends = [])
    {after : BundleEditor} {settings : PreviewSettings} {asks : List BundleEditor}
    (hduration : DurationInv after) (hprev : Previewed s.editor after asks)
    (hsettings : settings = s.settings ∨ asks ≠ [])
    (htime : after.isPlaying = true → s.editor.previewTimeSecs ≤ after.previewTimeSecs) :
    PreviewInv render (s.handled after settings asks) := by
  refine h.handled hsends hduration ?_ hprev.segments ?_ ?_ ?_
  · rcases hprev.settled with hasks | ⟨hasks, hsame⟩
    · exact .inl hasks
    · exact .inr ⟨hasks, hsettings.resolve_right (not_not_intro hasks), hsame⟩
  · intro hplaying timeSecs hlast
    obtain ⟨hkeeps, -⟩ := hprev.playing hplaying
    rw [hkeeps.isPlaying] at hplaying
    rw [hkeeps.last] at hlast
    exact (h.last hplaying timeSecs hlast).trans (htime (hkeeps.isPlaying.trans hplaying))
  · intro hplaying result hresult hgeneration
    obtain ⟨hkeeps, -⟩ := hprev.playing hplaying
    rw [hkeeps.generation] at hgeneration
    exact (h.earlier (hkeeps.isPlaying ▸ hplaying) result hresult hgeneration).trans
      (htime hplaying)
  · intro hplaying e he
    rcases (hprev.playing hplaying).2 e he with heq | heq
    · exact heq.trans_le (htime hplaying)
    · exact heq.le

/-- Out of a stopped playback a toggle starts one, or finds an empty timeline. -/
theorem BundleEditor.togglePlayback_stopped {editor : BundleEditor} (h : editor.isPlaying = false)
    (now : Secs) (audioStarts : Bool) : editor.togglePlayback now audioStarts = editor ∨
    ∃ currentTimeSecs, editor.togglePlayback now audioStarts = { editor with
      currentTimeSecs
      cursorTimeSecs := none
      zoomHoverRange := none
      isPlaying := true
      playbackGeneration := editor.playbackGeneration + 1
      lastPlaybackPreviewTimeSecs := none
      playbackStartedAt := some (now, currentTimeSecs)
      audioPlayback :=
        if audioStarts then some { segments := audioSegments editor.bundle }
        else editor.audioPlayback } := by
  unfold togglePlayback
  rw [if_neg (by rw [h]; exact Bool.false_ne_true)]
  split
  · exact .inl rfl
  · exact .inr ⟨_, rfl⟩

/-- A playback that starts is a new generation with nothing shown yet. -/
theorem PreviewInv.togglePlayback (h : PreviewInv render s) (hsends : s.sends = []) {now : Secs}
    {audioStarts : Bool} (hok : PreviewStepOk render s (.event (.togglePlayback now audioStarts))) :
    PreviewInv render (s.handled (s.editor.togglePlayback now audioStarts) s.settings
      (s.editor.asks (.togglePlayback now audioStarts))) := by
  have hduration : DurationInv (s.editor.togglePlayback now audioStarts) :=
    h.duration.handle (.togglePlayback now audioStarts)
  cases hplaying : s.editor.isPlaying with
  | true =>
    -- a pause with nothing on its way: the frame on screen stays the one wanted
    have hnothing := hok.1 hplaying
    have hstop : s.editor.togglePlayback now audioStarts = s.editor.stopPlayback := if_pos hplaying
    have hasks : s.editor.asks (.togglePlayback now audioStarts) = [] := if_pos hplaying
    rw [hstop, hasks]
    have hpending : (s.handled s.editor.stopPlayback s.settings []).pending render = [] := by
      rw [PreviewState.pending_handled hsends, hnothing]
      rfl
    refine ⟨hstop ▸ hduration, ?_, fun _ => ?_, by rintro ⟨⟩, by rintro ⟨⟩⟩
    · rw [hpending]
      rintro _ ⟨⟩
    · have hframe := h.shown hnothing
      unfold PreviewState.ShowsWanted previewRequest at hframe ⊢
      rw [Option.map_map] at hframe ⊢
      exact hframe
  | false =>
    have hfresh := hok.2 hplaying
    simp only [asks, hplaying, Bool.false_eq_true, if_false]
    rcases s.editor.togglePlayback_stopped hplaying now audioStarts with heq | ⟨current, heq⟩
    · rw [heq, asksIfEdited, if_pos rfl]
      exact h.previewed hsends h.duration (.same (.refl _) (.refl _)) (.inl rfl) (fun _ => le_refl _)
    · have hgeneration : (s.editor.togglePlayback now audioStarts).playbackGeneration =
          s.editor.playbackGeneration + 1 := by rw [heq]
      have hlast : (s.editor.togglePlayback now audioStarts).lastPlaybackPreviewTimeSecs = none := by
        rw [heq]
      have hbundle : (s.editor.togglePlayback now audioStarts).bundle = s.editor.bundle := by
        rw [heq]
      have hchanged : s.editor.togglePlayback now audioStarts ≠ s.editor := by
        intro hsame
        have := congrArg BundleEditor.playbackGeneration hsame
        rw [hgeneration] at this
        exact uint64_succ_ne _ this
      rw [asksIfEdited, if_neg hchanged]
      refine h.handled hsends hduration (.inl ⟨[], _, rfl, .refl _⟩) ?_ ?_ ?_ ?_
      · intro hempty
        refine ⟨KeepsSegments.of_bundle hbundle hempty, fun e he => ?_⟩
        rwa [List.mem_singleton.mp he]
      · rw [hlast]
        rintro _ _ ⟨⟩
      · intro _ result hresult heq'
        rw [hgeneration] at heq'
        exact absurd heq' (hfresh result hresult)
      · intro _ e he
        rw [List.mem_singleton.mp he]

theorem PreviewInv.event (h : PreviewInv render s) (hsends : s.sends = []) {op : EditorOp}
    (hok : PreviewStepOk render s (.event op)) :
    PreviewInv render (s.handled (s.editor.handle op) s.settings (s.editor.asks op)) := by
  cases op with
  | togglePlayback now audioStarts => exact h.togglePlayback hsends hok
  | _ =>
    exact h.previewed hsends (h.duration.handle _) (BundleEditor.previewed hok.1) (.inl rfl) hok.2

/-- The zoom inspector changes the selected zoom, if it is there. -/
theorem updateSelectedZoom_cases (editor : BundleEditor) (change : ZoomSegment → ZoomSegment) :
    editor.updateSelectedZoom change = editor ∨
    (editor.selectedZoom.any fun id => editor.bundle.zoomSegments.any fun segment =>
      segment.id == id) = true ∧ ∃ zoomSegments, editor.updateSelectedZoom change =
        { editor with bundle := { editor.bundle with zoomSegments } } := by
  unfold updateSelectedZoom
  split
  · exact .inl rfl
  next id hselected =>
  split
  · exact .inl rfl
  next index hfind =>
  obtain ⟨pre, zoom, post, hlist, rfl, hid, -⟩ := Splice.exists_split_of_findIdx? hfind
  split
  · exact .inl rfl
  · refine .inr ⟨?_, _, rfl⟩
    rw [hselected, Option.any_some, List.any_eq_true]
    exact ⟨zoom, by rw [hlist]; simp, hid⟩

/-- A change in the zoom inspector, asked for unless it changes nothing. -/
theorem PreviewInv.updateSelectedZoom (h : PreviewInv render s) (hsends : s.sends = [])
    (change : ZoomSegment → ZoomSegment) {asks : List BundleEditor}
    (hasks : asks = [s.editor.updateSelectedZoom change] ∨
      asks = [] ∧ s.editor.updateSelectedZoom change = s.editor) :
    PreviewInv render (s.handled (s.editor.updateSelectedZoom change) s.settings asks) := by
  rcases hasks with rfl | ⟨rfl, heq⟩
  · rcases updateSelectedZoom_cases s.editor change with heq | ⟨-, zoomSegments, heq⟩ <;> rw [heq]
    · exact h.previewed hsends h.duration (.once (fun _ => .refl _) fun hempty => hempty) (.inl rfl)
        (fun _ => le_refl _)
    · exact h.previewed hsends (h.duration.same rfl rfl rfl)
        (.once (fun _ => ⟨rfl, rfl, rfl⟩) fun hempty => hempty) (.inl rfl) (fun _ => le_refl _)
  · rw [heq]
    exact h.previewed hsends h.duration (.same (.refl _) (.refl _)) (.inl rfl) (fun _ => le_refl _)

theorem asksSelectedZoom_cases (editor : BundleEditor) (change : ZoomSegment → ZoomSegment) :
    editor.asksSelectedZoom (editor.updateSelectedZoom change) =
        [editor.updateSelectedZoom change] ∨
      editor.asksSelectedZoom (editor.updateSelectedZoom change) = [] ∧
        editor.updateSelectedZoom change = editor := by
  unfold asksSelectedZoom
  split
  · exact .inl rfl
  · next hnone =>
    exact .inr ⟨rfl, (updateSelectedZoom_cases editor change).resolve_right fun h => hnone h.1⟩

theorem asksIfEdited_cases (before after : BundleEditor) :
    asksIfEdited before after = [after] ∨ asksIfEdited before after = [] ∧ after = before := by
  unfold asksIfEdited
  split
  · next heq => exact .inr ⟨rfl, heq⟩
  · exact .inl rfl

/-! ## The worker and the results -/

/-- What moves a request on keeps the last one and adds none. -/
theorem PreviewInv.pipe (h : PreviewInv render s) {s' : PreviewState F}
    (heditor : s'.editor = s.editor) (hsettings : s'.settings = s.settings)
    (hframe : s'.currentFrame = s.currentFrame)
    (hlast : (s'.pending render).getLast? = (s.pending render).getLast?)
    (hsub : ∀ result ∈ s'.pending render, result ∈ s.pending render) : PreviewInv render s' := by
  have hwanted : s'.wanted render = s.wanted render := by
    rw [PreviewState.wanted, heditor, hsettings]
    rfl
  refine ⟨heditor ▸ h.duration, ?_, ?_, heditor ▸ h.last, ?_⟩
  · rw [hlast, hwanted]
    exact h.latest
  · intro hempty
    rw [hempty, List.getLast?_nil] at hlast
    have hshown := h.shown (List.getLast?_eq_none_iff.mp hlast.symm)
    rwa [PreviewState.ShowsWanted, heditor, hsettings, hframe]
  · rw [heditor]
    exact fun hplaying result hresult => h.earlier hplaying result (hsub result hresult)

/-- `force_send` puts a request in the slot, in place of one that was not taken. -/
theorem PreviewInv.send (h : PreviewInv render s) : PreviewInv render s.send := by
  unfold PreviewState.send
  cases hsends : s.sends with
  | nil => exact h
  | cons request sends =>
    have hbefore : s.pending render = s.previewResults ++ (s.worker.request.toList ++
        s.previewRequests.toList).map (·.rendered render) ++
          (request :: sends).map (·.rendered render) := by
      simp [PreviewState.pending, hsends]
    have hafter : ({ s with sends, previewRequests := some request } : PreviewState F).pending render =
        s.previewResults ++ s.worker.request.toList.map (·.rendered render) ++
          (request :: sends).map (·.rendered render) := by
      simp [PreviewState.pending]
    refine h.pipe rfl rfl rfl ?_ ?_
    · rw [hbefore, hafter, List.getLast?_append_of_ne_nil _ (by simp),
        List.getLast?_append_of_ne_nil _ (by simp)]
    · intro result hresult
      rw [hafter] at hresult
      rw [hbefore, List.map_append]
      simp only [List.mem_append] at hresult ⊢
      tauto

theorem PreviewInv.receive (h : PreviewInv render s) : PreviewInv render s.receive := by
  unfold PreviewState.receive
  split
  · next request hworker hslot =>
    have hpending : ({ s with worker := .received request, previewRequests := none } :
        PreviewState F).pending render = s.pending render := by
      simp [PreviewState.pending, hworker, hslot, PreviewWorker.request]
    exact h.pipe rfl rfl rfl (by rw [hpending]) (by rw [hpending]; exact fun _ => id)
  · exact h

theorem PreviewInv.tryReceive (h : PreviewInv render s) : PreviewInv render s.tryReceive := by
  unfold PreviewState.tryReceive
  split
  · next held request hworker hslot =>
    -- the held request makes way for a later one
    have hbefore : s.pending render = s.previewResults ++ [held.rendered render] ++
        (request :: s.sends).map (·.rendered render) := by
      simp [PreviewState.pending, hworker, hslot, PreviewWorker.request]
    have hafter : ({ s with worker := .received request, previewRequests := none } :
        PreviewState F).pending render =
          s.previewResults ++ (request :: s.sends).map (·.rendered render) := by
      simp [PreviewState.pending, PreviewWorker.request]
    refine h.pipe rfl rfl rfl ?_ ?_
    · rw [hbefore, hafter, List.getLast?_append_of_ne_nil _ (by simp),
        List.getLast?_append_of_ne_nil _ (by simp)]
    · intro result hresult
      rw [hafter] at hresult
      rw [hbefore]
      simp only [List.mem_append] at hresult ⊢
      tauto
  · next request hworker hslot =>
    have hpending : ({ s with worker := .rendering request } : PreviewState F).pending render =
        s.pending render := by
      simp [PreviewState.pending, hworker, PreviewWorker.request]
    exact h.pipe rfl rfl rfl (by rw [hpending]) (by rw [hpending]; exact fun _ => id)
  · exact h

theorem PreviewInv.finishRender (h : PreviewInv render s) :
    PreviewInv render (s.finishRender render) := by
  unfold PreviewState.finishRender
  split
  · next request hworker =>
    have hpending : ({ s with
        worker := .idle
        previewResults := s.previewResults ++ [request.rendered render] } :
          PreviewState F).pending render = s.pending render := by
      simp [PreviewState.pending, hworker, PreviewWorker.request]
    exact h.pipe rfl rfl rfl (by rw [hpending]) (by rw [hpending]; exact fun _ => id)
  · exact h

/-- The last result is accepted: it is of this generation and of no earlier time. -/
theorem PreviewInv.accepted (h : PreviewInv render s) {result : PreviewResult F}
    (hlast : s.pending render = [result]) : result.accepted s.editor = true := by
  have hwanted := h.latest result (by rw [hlast]; rfl)
  obtain ⟨request, hrequest, rfl⟩ := Option.map_eq_some_iff.mp hwanted
  obtain ⟨htime, hgeneration⟩ := previewRequest_time hrequest
  unfold PreviewResult.accepted
  rw [Bool.and_eq_true, Bool.not_eq_true', Bool.and_eq_false_imp]
  refine ⟨beq_iff_eq.mpr hgeneration, fun hplaying => ?_⟩
  rw [Option.any_eq_false]
  intro timeSecs hshown
  have hle := h.last hplaying timeSecs hshown
  rw [decide_eq_false_iff_not, not_lt]
  exact hle.trans htime.ge

theorem PreviewInv.deliver (h : PreviewInv render s) : PreviewInv render s.deliver := by
  unfold PreviewState.deliver
  cases hresults : s.previewResults with
  | nil => exact h
  | cons result results =>
    have hpending : s.pending render = result :: ({ s with previewResults := results } :
        PreviewState F).pending render := by
      simp [PreviewState.pending, hresults]
    generalize hrest : ({ s with previewResults := results } : PreviewState F).pending render =
      rest at hpending
    -- the ones behind it keep the last, if there are any
    have hlast : rest ≠ [] → (s.pending render).getLast? = rest.getLast? := by
      intro hne
      rw [hpending, List.getLast?_cons_of_ne_nil hne]
    have hsub : ∀ r ∈ rest, r ∈ s.pending render := by
      intro r hr
      rw [hpending]
      exact List.mem_cons_of_mem _ hr
    simp only
    split
    · next haccepted =>
      have hgeneration : result.playbackGeneration = s.editor.playbackGeneration :=
        beq_iff_eq.mp (Bool.and_eq_true_iff.mp haccepted).1
      -- the editor only notes the time of the frame
      generalize heditor : (if s.editor.isPlaying = true then
        { s.editor with lastPlaybackPreviewTimeSecs := some result.timelineTimeSecs }
        else s.editor) = editor
      have hsame : SamePreview s.editor editor ∧ editor.isPlaying = s.editor.isPlaying ∧
          DurationInv editor := by
        rw [← heditor]
        split
        · exact ⟨⟨rfl, rfl, rfl⟩, rfl, h.duration.same rfl rfl rfl⟩
        · exact ⟨.refl _, rfl, h.duration⟩
      obtain ⟨hpreview, hisPlaying, hduration⟩ := hsame
      have hrequest := previewRequest_congr hpreview s.settings
      refine ⟨hduration, ?_, ?_, ?_, ?_⟩
      · intro last hresult
        have hrest' : rest.getLast? = some last := hrest ▸ hresult
        have hne : rest ≠ [] := by
          rintro rfl
          cases hrest'
        rw [PreviewState.wanted, hrequest]
        exact h.latest last ((hlast hne).trans hrest')
      · intro hempty
        have hempty' : rest = [] := hrest.symm.trans hempty
        have hwanted := h.latest result (by rw [hpending, hempty']; rfl)
        obtain ⟨request, hsome, rfl⟩ := Option.map_eq_some_iff.mp hwanted
        rw [PreviewState.ShowsWanted, hrequest, hsome]
        rfl
      · intro hplaying timeSecs htime
        rw [hpreview.time]
        rw [hisPlaying] at hplaying
        rw [← heditor, if_pos hplaying] at htime
        cases htime
        exact h.earlier hplaying result (by rw [hpending]; simp) hgeneration
      · intro hplaying r hr heq
        rw [hpreview.time]
        rw [hisPlaying] at hplaying
        rw [hpreview.generation] at heq
        exact h.earlier hplaying r (hsub r (hrest ▸ hr)) heq
    · next hdropped =>
      have hne : rest ≠ [] := by
        rintro rfl
        exact hdropped (h.accepted hpending)
      refine h.pipe rfl rfl rfl ?_ ?_
      · rw [hrest]
        exact (hlast hne).symm
      · rw [hrest]
        exact hsub

/-- Every step that meets `PreviewStepOk` keeps the preview up. -/
theorem PreviewInv.act (h : PreviewInv render s) {action : PreviewAction}
    (hok : PreviewStepOk render s action) (hcan : s.canAct action = true) :
    PreviewInv render (s.act render action) := by
  cases action with
  | event op =>
    have hsends : s.sends = [] := List.isEmpty_iff.mp (Bool.and_eq_true_iff.mp hcan).1
    simp only [PreviewState.act, clearsFrame_eq_false h.duration op]
    exact h.event hsends hok
  | changeSettings settings =>
    exact h.previewed (List.isEmpty_iff.mp hcan) h.duration
      (.once (fun _ => .refl _) fun hempty => hempty) (.inr (List.cons_ne_nil _ _))
      (fun _ => le_refl _)
  | setZoomAmount amount =>
    exact h.updateSelectedZoom (List.isEmpty_iff.mp hcan) _ (asksIfEdited_cases _ _)
  | setZoomTransition transition =>
    exact h.updateSelectedZoom (List.isEmpty_iff.mp hcan) _ (asksSelectedZoom_cases _ _)
  | setZoomTarget target =>
    exact h.updateSelectedZoom (List.isEmpty_iff.mp hcan) _ (asksSelectedZoom_cases _ _)
  | send => exact h.send
  | receive => exact h.receive
  | tryReceive => exact h.tryReceive
  | render => exact h.finishRender
  | deliver => exact h.deliver

end Steps

theorem previewInv_open (bundle : BlipBundle) (sourceRanges : List (Secs × Secs))
    (reduceMotion : Bool) (settings : PreviewSettings) :
    PreviewInv render (openPreview F bundle sourceRanges reduceMotion settings) := by
  generalize hs : openPreview F bundle sourceRanges reduceMotion settings = s
  have hpending : s.pending render = (s.wanted render).toList := by
    rw [← hs]
    simp only [PreviewState.pending, PreviewState.wanted, openPreview, PreviewWorker.request,
      Option.toList_none, List.nil_append]
    cases (BundleEditor.openBundle bundle sourceRanges reduceMotion).previewRequest settings <;> rfl
  have hstopped : s.editor.isPlaying = false := by
    rw [← hs]
    rfl
  refine ⟨?_, ?_, ?_, ?_, ?_⟩
  · rw [← hs]
    exact durationInv_open bundle sourceRanges reduceMotion
  · rw [hpending]
    cases s.wanted render with
    | none => exact nofun
    | some result => exact fun _ h => h
  · intro hempty
    rw [hpending, Option.toList_eq_nil_iff, PreviewState.wanted, Option.map_eq_none_iff] at hempty
    rw [PreviewState.ShowsWanted, hempty, ← hs]
    rfl
  · rw [hstopped]
    exact nofun
  · rw [hstopped]
    exact nofun

/-- In every interleaving whose steps meet `PreviewStepOk`, once nothing is on its way the frame on
screen is the one for the cursor or playhead and the current settings. -/
theorem preview_settles {bundle : BlipBundle} {sourceRanges : List (Secs × Secs)}
    {reduceMotion : Bool} {settings : PreviewSettings} {actions : List PreviewAction}
    {s : PreviewState F}
    (hrun : ((previewSystem render).restrict (PreviewStepOk render)).Run
      (openPreview F bundle sourceRanges reduceMotion settings) actions s)
    (hquiet : s.Quiet) : s.ShowsWanted render := by
  have hstep : ∀ before action after, PreviewInv render before →
      ((previewSystem render).restrict (PreviewStepOk render)).step before action after →
      PreviewInv render after := by
    rintro before action after hinv ⟨hok, hcan, rfl⟩
    exact hinv.act hok hcan
  have hinv := hrun.invariant hstep
    (previewInv_open render bundle sourceRanges reduceMotion settings)
  obtain ⟨hsends, hslot, hworker, hresults⟩ := hquiet
  refine hinv.shown ?_
  simp [PreviewState.pending, hsends, hslot, hworker, hresults, PreviewWorker.request]

/-! ## Runs -/

/-- Taking actions in order. -/
def PreviewState.actAll (s : PreviewState F) (actions : List PreviewAction) : PreviewState F :=
  actions.foldl (fun s action => s.act render action) s

/-- Whether the window and its worker can take the actions in order. -/
def PreviewState.canActAll (s : PreviewState F) : List PreviewAction → Bool
  | [] => true
  | action :: actions => s.canAct action && (s.act render action).canActAll actions

theorem run_actAll {s : PreviewState F} {actions : List PreviewAction}
    (h : s.canActAll render actions = true) :
    (previewSystem render).Run s actions (s.actAll render actions) := by
  induction actions generalizing s with
  | nil => exact .nil s
  | cons action actions ih =>
    rw [PreviewState.canActAll, Bool.and_eq_true] at h
    exact .cons ⟨h.1, rfl⟩ (ih h.2)

/-- Settings without a background, shadow or crop. -/
def plainSettings : PreviewSettings where
  backgroundType := .color
  backgroundPreset := 0
  padding := 0
  aspectRatio := .auto
  borderRadius := 0
  shadow := 0
  cameraLayout := {
    size := 20
    position := .bottomRight
    edgePadding := 5
    zoomSizeReduction := 10
    shadow := 20
    crop := .circle }
  screenCrop := none

/-- A window on ten seconds of the source, nothing requested yet by an event. -/
def tenSecondPreview : PreviewState PreviewContent :=
  openPreview PreviewContent { zoomSegments := [], videoSegments := none } [(0, 10)] true
    plainSettings

/-- One request on its way from the handler to the screen. -/
def showFrame : List PreviewAction := [.send, .receive, .tryReceive, .render, .deliver]

/-- Play for a second and change a setting, every frame shown before the next event. -/
def playAndShow : List PreviewAction :=
  showFrame ++ .event (.togglePlayback 0 false) :: showFrame ++
    .event (.playbackFrame 1 1) :: showFrame ++
    .changeSettings { plainSettings with padding := 10 } :: showFrame ++
    [.event (.togglePlayback 1 false)]

/-- The steps of `playAndShow` are ones that keep the preview up. -/
theorem run_playAndShow : ((previewSystem id).restrict (PreviewStepOk id)).Run tenSecondPreview
    playAndShow (tenSecondPreview.actAll id playAndShow) := by
  have hshow : ∀ s : PreviewState PreviewContent, s.send.receive.tryReceive.sends = [] →
      ((previewSystem id).restrict (PreviewStepOk id)).Run s showFrame (s.actAll id showFrame) := by
    intro s hsends
    have hrendered : ((s.send.receive.tryReceive).finishRender id).sends = [] := by
      unfold PreviewState.finishRender
      split <;> exact hsends
    refine .cons ⟨trivial, rfl, rfl⟩ (.cons ⟨trivial, rfl, rfl⟩ (.cons ⟨trivial, rfl, rfl⟩
      (.cons ⟨trivial, rfl, rfl⟩ (.cons ⟨trivial, ?_, rfl⟩ (.nil _)))))
    exact List.isEmpty_iff.mpr hrendered
  refine .append (.append (.append (.append (hshow _ ?_) (.cons ⟨⟨?_, ?_⟩, ?_, rfl⟩ (hshow _ ?_)))
    (.cons ⟨⟨(?_ : endsPlayback _ 1 1 = false), ?_⟩, ?_, rfl⟩ (hshow _ ?_))) (.cons ⟨trivial, ?_, rfl⟩ (hshow _ ?_)))
    (.single ⟨⟨?_, ?_⟩, ?_, rfl⟩)
  all_goals decide +kernel

theorem preview_settles_playAndShow :
    (tenSecondPreview.actAll id playAndShow).Quiet ∧
      (tenSecondPreview.actAll id playAndShow).ShowsWanted id ∧
      (tenSecondPreview.actAll id playAndShow).currentFrame.map PreviewContent.timeSecs = some 1 :=
  ⟨by decide +kernel, preview_settles id run_playAndShow (by decide +kernel), by decide +kernel⟩

/-- Play for a second and pause while the frame of that second is on its way. -/
def playAndPause : List PreviewAction :=
  showFrame ++ .event (.togglePlayback 0 false) :: showFrame ++
    [.event (.playbackFrame 1 1), .send, .receive, .tryReceive, .render,
      .event (.togglePlayback 1 false), .deliver]

/-- A pause drops the frame of the time it stops at: the one before it stays on screen. -/
theorem paused_frame_dropped :
    (previewSystem id).Run tenSecondPreview playAndPause
        (tenSecondPreview.actAll id playAndPause) ∧
      (tenSecondPreview.actAll id playAndPause).Quiet ∧
      ¬ (tenSecondPreview.actAll id playAndPause).ShowsWanted id := by
  refine ⟨run_actAll id (by decide +kernel), by decide +kernel, ?_⟩
  unfold PreviewState.ShowsWanted
  decide +kernel

end Blip.Capture
