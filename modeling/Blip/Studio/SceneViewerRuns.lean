import Blip.Studio.FrameWakeups
import Blip.Studio.SceneViewer

/-!
# What the window shows

A request, or the picture composed for it, is in the queue, with the compositor, in the hub or shown, and
it passes through these in order. So the pictures are shown in the order of their requests, and once the
viewer has done what it can the last one shows the scene, with the newest frame of every source.
-/

namespace Blip.Studio.Exact

open Compositor (Gpu PixelBuffer)

variable {Frame : Type}

/-- The picture is what `compose_scene` made of its request. -/
def ComposedFrame.Composes (composed : ComposedFrame Frame) : Prop :=
  ∃ gpu, composeScene composed.request.frames composed.request.colors gpu composed.request.elements
    composed.request.lockedDimensions = .ok (composed.image, composed.dimensions, composed.elements)

@[simp] theorem CompositorThread.request_starting :
    (starting : CompositorThread Frame).request = none := rfl

@[simp] theorem CompositorThread.request_waiting :
    (waiting : CompositorThread Frame).request = none := rfl

@[simp] theorem CompositorThread.request_sleeping (request : RenderRequest Frame) :
    (sleeping request).request = some request := rfl

@[simp] theorem CompositorThread.request_composing (request : RenderRequest Frame) :
    (composing request).request = some request := rfl

@[simp] theorem CompositorThread.request_stopped :
    (stopped : CompositorThread Frame).request = none := rfl

theorem composeScene_dimensions {frames : SourceFrames Frame} {colors : Colors} {gpu : Gpu Frame}
    {elements : List PlacedElement} {lockedDimensions : Option (ℕ × ℕ)} {image : PixelBuffer Frame}
    {dimensions : ℕ × ℕ} {rendered : List PlacedTransform}
    (h : composeScene frames colors gpu elements lockedDimensions = .ok (image, dimensions, rendered)) :
    dimensions = Streams.composedDimensions lockedDimensions := by
  unfold composeScene at h
  simp only [bind, Except.bind] at h
  split at h
  · cases h
  · split at h
    · cases h
    · cases h
      rfl

/-- Only the size of the canvas matters, and not whether it is locked. -/
theorem composeScene_congr {lockedDimensions lockedDimensions' : Option (ℕ × ℕ)}
    (h : Streams.composedDimensions lockedDimensions = Streams.composedDimensions lockedDimensions')
    (frames : SourceFrames Frame) (colors : Colors) (gpu : Gpu Frame) (elements : List PlacedElement) :
    composeScene frames colors gpu elements lockedDimensions =
      composeScene frames colors gpu elements lockedDimensions' := by
  unfold Streams.composedDimensions at h
  unfold composeScene
  rw [h]

namespace SceneViewer

variable {s s' : SceneViewer Frame}

/-! ## What a step does -/

/-- The steps of the compositor's thread. -/
inductive CompositorSteps (s : SceneViewer Frame) : SceneViewer Frame → Prop
  | initialized (hcompositor : s.compositor = .starting) :
    CompositorSteps s { s with compositor := .waiting }
  | failed (hcompositor : s.compositor = .starting) : CompositorSteps s
      { s with
        compositor := .stopped
        compositionFailed := s.compositionFailed + 1 }
  | take (sleeps : Bool) {request : RenderRequest Frame} (hcompositor : s.compositor = .waiting)
    (hpending : s.pending = some request) : CompositorSteps s
      { s with
        compositor := if sleeps then .sleeping request else .composing request
        pending := none }
  | wake {request : RenderRequest Frame} (hcompositor : s.compositor = .sleeping request) :
    CompositorSteps s
      { s with
        compositor := .composing (s.pending.getD request)
        pending := none }
  | compose (gpu : Gpu Frame) {request : RenderRequest Frame}
    (hcompositor : s.compositor = .composing request) : CompositorSteps s (s.compose gpu request)

theorem runCompositor_steps {label : SceneViewerStep Frame} (h : s.runCompositor label = some s') :
    CompositorSteps s s' := by
  unfold SceneViewer.runCompositor at h
  split at h
  · split at h
    · rename_i hcompositor
      split at h <;> obtain rfl := Option.some.inj h
      · exact .initialized hcompositor
      · exact .failed hcompositor
    · cases h
  · split at h
    · rename_i sleeps _ _ request hcompositor hpending
      obtain rfl := Option.some.inj h
      exact .take sleeps hcompositor hpending
    · cases h
  · split at h
    · rename_i hcompositor
      obtain rfl := Option.some.inj h
      exact .wake hcompositor
    · cases h
  · split at h
    · rename_i gpu _ _ hcompositor
      obtain rfl := Option.some.inj h
      exact .compose gpu hcompositor
    · cases h
  · cases h

/-- The steps of the event loop. -/
inductive LoopSteps (s : SceneViewer Frame) : SceneViewerStep Frame → SceneViewer Frame → Prop
  | drain {hub : FrameLoop SourceId (SourceFrame Frame) (ComposedFrame Frame)}
    (hstep : s.hub.step .drain = some hub) : LoopSteps s .drain { s with hub }
  | render {hub : FrameLoop SourceId (SourceFrame Frame) (ComposedFrame Frame)}
    (hstep : s.hub.step .render = some hub) : LoopSteps s .render
      { s with
        hub
        pending := some s.renderRequest
        requests := s.requests ++ [s.renderRequest] }
  | showFrame (sent : Bool) {composed : ComposedFrame Frame}
    (hstep : s.hub.step .showFrame = some s.hub.showFrame) (hlatest : s.hub.latest = some composed) :
    LoopSteps s (.showFrame sent) (s.showFrame sent composed)
  | showNothing (sent : Bool) (hstep : s.hub.step .showFrame = some s.hub.showFrame)
    (hlatest : s.hub.latest = none) : LoopSteps s (.showFrame sent) { s with hub := s.hub.showFrame }
  | compositionFailed (hfailed : 0 < s.compositionFailed) : LoopSteps s .compositionFailed
      { s with
        compositionFailed := s.compositionFailed - 1
        running := false }
  | startStream {composed : ComposedFrame Frame} (hshown : s.shown.getLast? = some composed) :
    LoopSteps s .startStream { s with streamCanvas := some (evenDimensions composed.dimensions) }
  | stopStream : LoopSteps s .stopStream { s with streamCanvas := none }
  | quit : LoopSteps s .quit { s with running := false }

theorem handleEvent_steps {label : SceneViewerStep Frame} (h : s.handleEvent label = some s') :
    LoopSteps s label s' := by
  unfold SceneViewer.handleEvent at h
  split at h
  · obtain ⟨hub, hstep, rfl⟩ := Option.map_eq_some_iff.1 h
    exact .drain hstep
  · obtain ⟨hub, hstep, rfl⟩ := Option.map_eq_some_iff.1 h
    exact .render hstep
  · rename_i sent
    obtain ⟨hub, hstep, rfl⟩ := Option.map_eq_some_iff.1 h
    obtain rfl := (FrameLoop.step_spec hstep).2
    split
    · rename_i hlatest
      exact .showFrame sent hstep hlatest
    · rename_i hlatest
      exact .showNothing sent hstep hlatest
  · obtain ⟨hguard, h⟩ := Option.ite_none_right_eq_some.1 h
    obtain rfl := Option.some.inj h
    exact .compositionFailed hguard.1
  · split at h
    · rename_i hshown
      obtain rfl := Option.some.inj h
      exact .startStream hshown
    · cases h
  · obtain rfl := Option.some.inj (Option.ite_none_left_eq_some.1 h).2
    exact .stopStream
  · obtain rfl := Option.some.inj h
    exact .quit
  · cases h

/-! ## Requests on their way -/

/-- The compositor has composed what it took, as far as anybody knows. -/
structure Live (s : SceneViewer Frame) : Prop where
  compositionFailed : s.compositionFailed = 0
  running : s.running = true
  compositor : s.compositor ≠ .stopped

/-- The requests of the pictures shown, and those on their way, the newest at the end. -/
def inFlight (s : SceneViewer Frame) : List (RenderRequest Frame) :=
  s.shown.map ComposedFrame.request ++ (s.hub.latest.map ComposedFrame.request).toList ++
    s.compositor.request.toList ++ s.pending.toList

/-- Requests pass in order, and the last one is not lost. -/
structure Flow (s : SceneViewer Frame) : Prop where
  order : s.inFlight.Sublist s.requests
  last : s.Live → s.inFlight.getLast? = s.requests.getLast?
  composes : ∀ composed, composed ∈ s.shown ∨ s.hub.latest = some composed → composed.Composes

/-- Some of the requests on their way are dropped, but not the last one. -/
theorem Flow.drops (flow : s.Flow) (hrequests : s'.requests = s.requests)
    (horder : s'.inFlight.Sublist s.inFlight)
    (hlast : s'.Live → s.Live ∧ s'.inFlight.getLast? = s.inFlight.getLast?)
    (hcomposes : ∀ composed, composed ∈ s'.shown ∨ s'.hub.latest = some composed →
      (composed ∈ s.shown ∨ s.hub.latest = some composed) ∨ composed.Composes) : s'.Flow where
  order := hrequests ▸ horder.trans flow.order
  last := fun hlive => by
    rw [(hlast hlive).2, hrequests]
    exact flow.last (hlast hlive).1
  composes := fun composed hmem => (hcomposes composed hmem).elim (flow.composes composed) id

/-- A step of the hub alone. -/
theorem Flow.hub (flow : s.Flow)
    (hub : FrameLoop SourceId (SourceFrame Frame) (ComposedFrame Frame))
    (hlatest : hub.latest = s.hub.latest) (elements : List PlacedElement) (colors : Colors) :
    Flow { s with hub, elements, colors } := by
  have hinFlight : inFlight { s with hub, elements, colors } = s.inFlight := by
    simp only [inFlight, hlatest]
  refine flow.drops rfl (hinFlight ▸ List.Sublist.refl _)
    (fun hlive => ⟨⟨hlive.1, hlive.2, hlive.3⟩, ?_⟩)
    fun composed hmem => .inl (by simpa only [hlatest] using hmem)
  rw [hinFlight]

/-- The event loop ends. -/
theorem Flow.stops (flow : s.Flow) (compositionFailed : ℕ) :
    Flow { s with compositionFailed, running := false } :=
  flow.drops rfl (.refl _) (fun hlive => absurd hlive.running Bool.false_ne_true) fun _ hmem => .inl hmem

theorem Flow.lock (flow : s.Flow) (streamCanvas : Option (ℕ × ℕ)) : Flow { s with streamCanvas } :=
  flow.drops rfl (.refl _) (fun hlive => ⟨⟨hlive.1, hlive.2, hlive.3⟩, rfl⟩) fun _ hmem => .inl hmem

theorem Flow.render (flow : s.Flow)
    (hub : FrameLoop SourceId (SourceFrame Frame) (ComposedFrame Frame))
    (hlatest : hub.latest = s.hub.latest) (request : RenderRequest Frame) :
    Flow { s with hub, pending := some request, requests := s.requests ++ [request] } where
  order := by
    have horder : (s.shown.map ComposedFrame.request ++
        (s.hub.latest.map ComposedFrame.request).toList ++ s.compositor.request.toList).Sublist
        s.requests := (List.sublist_append_left _ _).trans flow.order
    simp only [inFlight, hlatest]
    exact horder.append (List.Sublist.refl [request])
  last := fun _ => by
    simp only [inFlight, Option.toList_some]
    rw [List.getLast?_concat, List.getLast?_concat]
  composes := fun composed hmem => flow.composes composed (by simpa only [hlatest] using hmem)

theorem Flow.compose (flow : s.Flow) {request : RenderRequest Frame}
    (hcompositor : s.compositor = .composing request) (gpu : Gpu Frame) :
    (s.compose gpu request).Flow := by
  have hlost : ∀ t : SceneViewer Frame, t.inFlight = s.shown.map ComposedFrame.request ++
      (s.hub.latest.map ComposedFrame.request).toList ++ s.pending.toList →
      t.inFlight.Sublist s.inFlight := by
    intro t ht
    rw [ht, inFlight]
    exact (List.sublist_append_left _ _).append (.refl _)
  unfold SceneViewer.compose
  split
  · rename_i image dimensions rendered hcomposed
    -- the picture takes the place of one that waits
    refine flow.drops rfl ?_ (fun hlive => ⟨⟨hlive.1, hlive.2, ?_⟩, ?_⟩) fun composed hmem => ?_
    · simp only [inFlight, hcompositor, FrameLoop.composed, CompositorThread.request_waiting,
        CompositorThread.request_composing, Option.map_some, Option.toList_some, Option.toList_none,
        List.append_nil]
      exact ((List.sublist_append_left _ _).append (.refl _)).append (.refl _)
    · rw [hcompositor]
      rintro ⟨⟩
    · simp only [inFlight, hcompositor, FrameLoop.composed, CompositorThread.request_waiting,
        CompositorThread.request_composing, Option.map_some, Option.toList_some, Option.toList_none,
        List.append_nil]
      cases s.pending with
      | none => simp
      | some pending => simp only [Option.toList_some, List.getLast?_concat]
    · rcases hmem with hshown | hlatest
      · exact .inl (.inl hshown)
      · obtain rfl := Option.some.inj hlatest
        exact .inr ⟨gpu, hcomposed⟩
  · split
    · exact flow.drops rfl (hlost _ (by simp [inFlight]))
        (fun hlive => absurd hlive.compositionFailed (Nat.succ_ne_zero _)) fun _ hmem => .inl hmem
    · exact flow.drops rfl (hlost _ (by simp [inFlight]))
        (fun hlive => (hlive.compositor rfl).elim) fun _ hmem => .inl hmem
  · exact flow.drops rfl (hlost _ (by simp [inFlight]))
      (fun hlive => (hlive.compositor rfl).elim) fun _ hmem => .inl hmem

theorem Flow.runCompositor (flow : s.Flow) (h : CompositorSteps s s') : s'.Flow := by
  cases h with
  | initialized hcompositor =>
    refine flow.drops rfl ?_ (fun hlive => ⟨⟨hlive.1, hlive.2, ?_⟩, ?_⟩) fun _ hmem => .inl hmem
    · simp [inFlight, hcompositor]
    · rw [hcompositor]
      rintro ⟨⟩
    · simp [inFlight, hcompositor]
  | failed hcompositor =>
    refine flow.drops rfl ?_ (fun hlive => (hlive.compositor rfl).elim) fun _ hmem => .inl hmem
    simp [inFlight, hcompositor]
  | @take sleeps request hcompositor hpending =>
    have hinFlight : inFlight
        { s with
          compositor := if sleeps then .sleeping request else .composing request
          pending := none } = s.inFlight := by
      cases sleeps <;> simp [inFlight, hcompositor, hpending]
    refine flow.drops rfl (hinFlight ▸ .refl _) (fun hlive => ⟨⟨hlive.1, hlive.2, ?_⟩, ?_⟩)
      fun _ hmem => .inl hmem
    · rw [hcompositor]
      rintro ⟨⟩
    · rw [hinFlight]
  | @wake request hcompositor =>
    refine flow.drops rfl ?_ (fun hlive => ⟨⟨hlive.1, hlive.2, ?_⟩, ?_⟩) fun _ hmem => .inl hmem
    · cases hpending : s.pending with
      | none => simp [inFlight, hcompositor, hpending]
      | some pending =>
        -- the request that it slept with is dropped
        simp only [inFlight, hcompositor, hpending, CompositorThread.request_sleeping,
          CompositorThread.request_composing, Option.getD_some, Option.toList_some, Option.toList_none,
          List.append_nil]
        exact (List.sublist_append_left _ _).append (.refl _)
    · rw [hcompositor]
      rintro ⟨⟩
    · cases hpending : s.pending with
      | none => simp [inFlight, hcompositor, hpending]
      | some pending =>
        simp only [inFlight, hcompositor, hpending, CompositorThread.request_sleeping,
          CompositorThread.request_composing, Option.getD_some, Option.toList_some, Option.toList_none,
          List.append_nil, List.getLast?_concat]
  | compose gpu hcompositor => exact flow.compose hcompositor gpu

theorem Flow.showFrame (flow : s.Flow) {composed : ComposedFrame Frame}
    (hlatest : s.hub.latest = some composed) (sent : Bool) : (s.showFrame sent composed).Flow := by
  have hinFlight : (s.showFrame sent composed).inFlight = s.inFlight := by
    simp [inFlight, SceneViewer.showFrame, FrameLoop.showFrame, hlatest]
  refine flow.drops rfl (hinFlight ▸ .refl _) (fun hlive => ⟨⟨hlive.1, hlive.2, hlive.3⟩, ?_⟩)
    fun shown hmem => .inl ?_
  · rw [hinFlight]
  · rcases hmem with hmem | hnone
    · rcases List.mem_append.1 hmem with hmem | hmem
      · exact .inl hmem
      · obtain rfl := List.mem_singleton.1 hmem
        exact .inr hlatest
    · cases hnone

/-! ## The scene and the canvas -/

/-- The elements have the sources in use, and the last request has the frames that the loop keeps, and
the scene unless another request follows. Every canvas has the same size. -/
structure Tracks (s : SceneViewer Frame) : Prop where
  used : usedSources s.elements = s.hub.scene
  captured : ∀ id, s.hub.newest (.color id) = none
  requested : s.requests.getLast?.map RenderRequest.frames =
    s.hub.renderRequest.map fun request => .ofCaptures request.2
  current : s.hub.draining = false → ∀ request ∈ s.requests.getLast?,
    (request.elements = s.elements ∧ request.colors = s.colors) ∨
      s.hub.renderPending = true ∨ 0 < s.hub.requesting
  locked : Streams.composedDimensions s.streamCanvas = defaultCanvasDimensions
  lockedRequests : ∀ request ∈ s.requests,
    Streams.composedDimensions request.lockedDimensions = defaultCanvasDimensions

/-- What a step of the hub may change without a change of the scene. -/
structure KeepsRequest (hub hub' : FrameLoop SourceId (SourceFrame Frame) (ComposedFrame Frame)) :
    Prop where
  scene : hub'.scene = hub.scene
  newest : ∀ id, hub.newest (.color id) = none → hub'.newest (.color id) = none
  renderRequest : hub'.renderRequest = hub.renderRequest
  requests : hub'.draining = false → hub.draining = false ∧
    (hub.renderPending = true ∨ 0 < hub.requesting → hub'.renderPending = true ∨ 0 < hub'.requesting)

theorem Tracks.hub (tracks : s.Tracks)
    {hub : FrameLoop SourceId (SourceFrame Frame) (ComposedFrame Frame)}
    (hkeeps : KeepsRequest s.hub hub) : Tracks { s with hub } where
  used := tracks.used.trans hkeeps.scene.symm
  captured := fun id => hkeeps.newest id (tracks.captured id)
  requested := by
    rw [hkeeps.renderRequest]
    exact tracks.requested
  current := fun hidle request hrequest =>
    (tracks.current (hkeeps.requests hidle).1 request hrequest).imp_right (hkeeps.requests hidle).2
  locked := tracks.locked
  lockedRequests := tracks.lockedRequests

/-- A change of the scene makes a request. -/
theorem Tracks.edit (tracks : s.Tracks)
    {hub : FrameLoop SourceId (SourceFrame Frame) (ComposedFrame Frame)}
    {elements : List PlacedElement} (colors : Colors)
    (hused : usedSources elements = hub.scene)
    (hnewest : ∀ id, hub.newest (.color id) = none) (hrequest : hub.renderRequest = s.hub.renderRequest)
    (hrequesting : 0 < hub.requesting) : Tracks { s with hub, elements, colors } where
  used := hused
  captured := hnewest
  requested := by
    rw [hrequest]
    exact tracks.requested
  current := fun _ _ _ => .inr (.inr hrequesting)
  locked := tracks.locked
  lockedRequests := tracks.lockedRequests

theorem Tracks.step_edit (tracks : s.Tracks)
    {label : FrameStep SourceId (SourceFrame Frame) (ComposedFrame Frame)}
    (hlabel : (∃ source, label = .addSource source) ∨ (∃ source, label = .removeSource source) ∨
      label = .changeScene)
    {elements : List PlacedElement} {colors : Colors} (h : s.edit label elements colors = some s') :
    s'.Tracks ∧ (s.Flow → s'.Flow) := by
  obtain ⟨hub, hstep, h⟩ := Option.bind_eq_some_iff.1 h
  obtain ⟨hused, h⟩ := Option.ite_none_right_eq_some.1 h
  obtain rfl := Option.some.inj h
  have hspec := FrameLoop.step_spec hstep
  rcases hlabel with ⟨source, rfl⟩ | ⟨source, rfl⟩ | rfl
  · obtain ⟨-, rfl⟩ := hspec
    exact ⟨tracks.edit colors hused tracks.captured rfl (Nat.succ_pos _),
      fun flow => flow.hub (s.hub.addSource source) rfl _ _⟩
  · obtain ⟨-, rfl⟩ := hspec
    refine ⟨tracks.edit colors hused (fun id => ?_) rfl (Nat.succ_pos _),
      fun flow => flow.hub (s.hub.removeSource source) rfl _ _⟩
    simp only [FrameLoop.removeSource, Function.update_apply]
    split
    · rfl
    · exact tracks.captured id
  · obtain ⟨-, rfl⟩ := hspec
    exact ⟨tracks.edit colors hused tracks.captured rfl (Nat.succ_pos _),
      fun flow => flow.hub { s.hub with requesting := s.hub.requesting + 1 } rfl _ _⟩

/-- The steps of the hub that make no request and leave the scene. -/
def KeepsScene : FrameStep SourceId (SourceFrame Frame) (ComposedFrame Frame) → Prop
  | .submit source _ => ∀ id, source ≠ .color id
  | .setPending | .sendReady | .drain | .composed _ | .showFrame => True
  | _ => False

theorem keepsRequest_step {hub hub' : FrameLoop SourceId (SourceFrame Frame) (ComposedFrame Frame)}
    (label : FrameStep SourceId (SourceFrame Frame) (ComposedFrame Frame))
    (hlabel : KeepsScene label) (hstep : hub.step label = some hub') : KeepsRequest hub hub' := by
  have hspec := FrameLoop.step_spec hstep
  cases label with
  | submit source frame =>
    obtain rfl : hub' = _ := hspec
    refine ⟨rfl, fun id hnone => ?_, rfl, fun hidle => ⟨hidle, fun _ => .inr (Nat.succ_pos _)⟩⟩
    have hne : SourceId.color id ≠ source := fun heq => hlabel id heq.symm
    simp only [FrameLoop.submit]
    split
    · rw [Function.update_of_ne hne, hnone]
    · exact hnone
  | setPending =>
    obtain ⟨-, rfl⟩ := hspec
    rw [FrameLoop.setPending_eq]
    exact ⟨rfl, fun _ => id, rfl, fun hidle => ⟨hidle, fun _ => .inl rfl⟩⟩
  | drain =>
    obtain ⟨-, rfl⟩ := hspec
    exact ⟨rfl, fun _ => id, rfl, by rintro ⟨⟩⟩
  | composed image =>
    obtain rfl : hub' = _ := hspec
    exact ⟨rfl, fun _ => id, rfl, fun hidle => ⟨hidle, id⟩⟩
  | sendReady | showFrame =>
    obtain ⟨-, rfl⟩ := hspec
    exact ⟨rfl, fun _ => id, rfl, fun hidle => ⟨hidle, id⟩⟩
  | render | addSource _ | removeSource _ | changeScene => exact hlabel.elim

theorem Tracks.render (tracks : s.Tracks) : Tracks
    { s with
      hub := s.hub.render
      pending := some s.renderRequest
      requests := s.requests ++ [s.renderRequest] } where
  used := tracks.used
  captured := tracks.captured
  requested := by
    rw [List.getLast?_concat]
    rfl
  current := fun _ request hrequest => by
    rw [List.getLast?_concat] at hrequest
    obtain rfl := Option.some.inj hrequest
    exact .inl ⟨rfl, rfl⟩
  locked := tracks.locked
  lockedRequests := fun request hrequest => by
    rcases List.mem_append.1 hrequest with hrequest | hrequest
    · exact tracks.lockedRequests request hrequest
    · obtain rfl := List.mem_singleton.1 hrequest
      exact tracks.locked

theorem Tracks.compose (tracks : s.Tracks) (gpu : Gpu Frame) (request : RenderRequest Frame) :
    (s.compose gpu request).Tracks := by
  unfold SceneViewer.compose
  split
  · rename_i image dimensions rendered _
    have htracks := tracks.hub
      (keepsRequest_step (.composed ⟨request, image, dimensions, rendered⟩) trivial rfl)
    exact { htracks with }
  · split
    · exact { tracks with }
    · exact { tracks with }
  · exact { tracks with }

/-- The thread of the compositor leaves the scene and the requests. -/
theorem Tracks.runCompositor (tracks : s.Tracks) (h : CompositorSteps s s') : s'.Tracks := by
  cases h with
  | compose gpu _ => exact tracks.compose gpu _
  | initialized _ | failed _ | take _ _ _ | wake _ => exact { tracks with }

/-- A picture that was shown has the size of the canvas. -/
theorem dimensions_shown (tracks : s.Tracks) (flow : s.Flow) {composed : ComposedFrame Frame}
    (hmem : composed ∈ s.shown) : composed.dimensions = defaultCanvasDimensions := by
  obtain ⟨gpu, hcomposed⟩ := flow.composes composed (.inl hmem)
  rw [composeScene_dimensions hcomposed]
  refine tracks.lockedRequests composed.request (flow.order.subset ?_)
  simp only [inFlight, List.append_assoc]
  exact List.mem_append_left _ (List.mem_map_of_mem hmem)

theorem LoopSteps.inv {label : SceneViewerStep Frame} (h : LoopSteps s label s') (tracks : s.Tracks)
    (flow : s.Flow) : s'.Tracks ∧ s'.Flow := by
  cases h with
  | drain hstep =>
    have htracks := tracks.hub (keepsRequest_step .drain trivial hstep)
    obtain rfl := (FrameLoop.step_spec hstep).2
    exact ⟨htracks, flow.hub s.hub.drain rfl _ _⟩
  | render hstep =>
    obtain rfl := (FrameLoop.step_spec hstep).2
    exact ⟨tracks.render, flow.render s.hub.render rfl _⟩
  | showFrame sent hstep hlatest =>
    have htracks := tracks.hub (keepsRequest_step .showFrame trivial hstep)
    refine ⟨{ htracks with locked := ?_ }, flow.showFrame hlatest sent⟩
    cases sent with
    | true => exact tracks.locked
    | false => rfl
  | showNothing sent hstep hlatest =>
    exact ⟨tracks.hub (keepsRequest_step .showFrame trivial hstep),
      flow.hub s.hub.showFrame (by rw [hlatest]; rfl) _ _⟩
  | startStream hshown =>
    refine ⟨{ tracks with locked := ?_ }, flow.lock _⟩
    rw [dimensions_shown tracks flow (List.mem_of_getLast? hshown)]
    rfl
  | stopStream => exact ⟨{ tracks with locked := rfl }, flow.lock _⟩
  | compositionFailed _ | quit => exact ⟨{ tracks with }, flow.stops _⟩

/-! ## Every run -/

theorem step_inv {label : SceneViewerStep Frame} (tracks : s.Tracks) (flow : s.Flow)
    (h : s.step label = some s') : s'.Tracks ∧ s'.Flow := by
  unfold SceneViewer.step at h
  split at h
  · cases h
  · rename_i source frame hcolor
    obtain rfl := Option.some.inj h
    exact ⟨tracks.hub (keepsRequest_step (.submit source frame) hcolor rfl),
      flow.hub (s.hub.submit source frame) rfl _ _⟩
  · obtain ⟨hub, hstep, rfl⟩ := Option.map_eq_some_iff.1 h
    have htracks := tracks.hub (keepsRequest_step .setPending trivial hstep)
    obtain ⟨-, rfl⟩ := FrameLoop.step_spec hstep
    refine ⟨htracks, flow.hub s.hub.setPending ?_ _ _⟩
    rw [FrameLoop.setPending_eq]
  · obtain ⟨hub, hstep, rfl⟩ := Option.map_eq_some_iff.1 h
    have htracks := tracks.hub (keepsRequest_step .sendReady trivial hstep)
    obtain ⟨-, rfl⟩ := FrameLoop.step_spec hstep
    exact ⟨htracks, flow.drops rfl (.refl _) (fun hlive => ⟨⟨hlive.1, hlive.2, hlive.3⟩, rfl⟩)
      fun _ hmem => .inl hmem⟩
  · have hedit := tracks.step_edit (.inl ⟨_, rfl⟩) h
    exact ⟨hedit.1, hedit.2 flow⟩
  · have hedit := tracks.step_edit (.inr (.inl ⟨_, rfl⟩)) h
    exact ⟨hedit.1, hedit.2 flow⟩
  · have hedit := tracks.step_edit (.inr (.inr rfl)) h
    exact ⟨hedit.1, hedit.2 flow⟩
  iterate 4
    · have hsteps := runCompositor_steps h
      exact ⟨tracks.runCompositor hsteps, flow.runCompositor hsteps⟩
  · exact (handleEvent_steps (Option.ite_none_right_eq_some.1 h).2).inv tracks flow

theorem launched_inv (elements : List PlacedElement) (colors : Colors) :
    (launched Frame elements colors).Tracks ∧ (launched Frame elements colors).Flow where
  left :=
    { used := rfl
      captured := fun _ => rfl
      requested := rfl
      current := by rintro _ _ ⟨⟩
      locked := rfl
      lockedRequests := fun _ hmem => absurd hmem List.not_mem_nil }
  right :=
    { order := .refl _
      last := fun _ => rfl
      composes := fun composed hmem => hmem.elim (fun hshown => absurd hshown List.not_mem_nil)
        fun hlatest => absurd hlatest (Option.some_ne_none composed).symm }

/-- The frames that come fit the hub. -/
def FramesFit (s : SceneViewer Frame) : SceneViewerStep Frame → Prop
  | .submit source frame => s.hub.SubmitFits (.submit source frame)
  | _ => True

/-- The compositor leaves the hub, or submits a picture. -/
theorem CompositorSteps.hub (h : CompositorSteps s s') :
    s'.hub = s.hub ∨ ∃ composed, s.hub.step (.composed composed) = some s'.hub := by
  cases h with
  | compose gpu _ =>
    unfold SceneViewer.compose
    split
    · exact .inr ⟨_, rfl⟩
    · split <;> exact .inl rfl
    · exact .inl rfl
  | initialized _ | failed _ | take _ _ _ | wake _ => exact .inl rfl

theorem LoopSteps.hub {label : SceneViewerStep Frame} (h : LoopSteps s label s') :
    s'.hub = s.hub ∨ s.hub.step .drain = some s'.hub ∨ s.hub.step .render = some s'.hub ∨
      s.hub.step .showFrame = some s'.hub := by
  cases h with
  | drain hstep => exact .inr (.inl hstep)
  | render hstep => exact .inr (.inr (.inl hstep))
  | showFrame _ hstep _ | showNothing _ hstep _ => exact .inr (.inr (.inr hstep))
  | compositionFailed _ | startStream _ | stopStream | quit => exact .inl rfl

/-- A step of the viewer leaves the hub or is one of it. -/
theorem hub_step {label : SceneViewerStep Frame} (h : s.step label = some s') :
    s'.hub = s.hub ∨ ∃ hubLabel, s.hub.step hubLabel = some s'.hub ∧
      (s.FramesFit label → s.hub.SubmitFits hubLabel) := by
  unfold SceneViewer.step at h
  split at h
  · cases h
  · rename_i source frame _
    obtain rfl := Option.some.inj h
    exact .inr ⟨.submit source frame, rfl, id⟩
  · obtain ⟨hub, hstep, rfl⟩ := Option.map_eq_some_iff.1 h
    exact .inr ⟨_, hstep, fun _ => trivial⟩
  · obtain ⟨hub, hstep, rfl⟩ := Option.map_eq_some_iff.1 h
    exact .inr ⟨_, hstep, fun _ => trivial⟩
  iterate 3
    · obtain ⟨hub, hstep, h⟩ := Option.bind_eq_some_iff.1 h
      obtain rfl := Option.some.inj (Option.ite_none_right_eq_some.1 h).2
      exact .inr ⟨_, hstep, fun _ => trivial⟩
  iterate 4
    · rcases (runCompositor_steps h).hub with heq | ⟨composed, hstep⟩
      · exact .inl heq
      · exact .inr ⟨_, hstep, fun _ => trivial⟩
  · rcases (handleEvent_steps (Option.ite_none_right_eq_some.1 h).2).hub with
      heq | hstep | hstep | hstep
    · exact .inl heq
    all_goals exact .inr ⟨_, hstep, fun _ => trivial⟩

theorem reachable_inv (h : (sceneViewer Frame).Reachable s) : s.Tracks ∧ s.Flow := by
  refine h.invariant (P := fun s => s.Tracks ∧ s.Flow) ?_
    fun _ _ _ hinv hstep => step_inv hinv.1 hinv.2 hstep
  rintro _ ⟨elements, colors, rfl⟩
  exact launched_inv elements colors

/-- The hub of the viewer takes the steps of the hub by itself. -/
theorem reachable_hub (h : ((sceneViewer Frame).restrict FramesFit).Reachable s) :
    ((frameLoop SourceId (SourceFrame Frame) (ComposedFrame Frame)).restrict
      FrameLoop.SubmitFits).Reachable s.hub := by
  refine h.invariant (P := fun s => ((frameLoop SourceId (SourceFrame Frame)
    (ComposedFrame Frame)).restrict FrameLoop.SubmitFits).Reachable s.hub) ?_
    fun s label s' hreach hstep => ?_
  · rintro _ ⟨elements, colors, rfl⟩
    exact ⟨_, [], ⟨_, rfl⟩, .nil _⟩
  · rcases hub_step hstep.2 with heq | ⟨hubLabel, hhub, hfits⟩
    · exact heq ▸ hreach
    · exact hreach.step ⟨hfits hstep.1, hhub⟩

/-! ## Steps of its own -/

/-- What the viewer does when nothing comes from outside. -/
def Internal : SceneViewerStep Frame → Prop
  | .submit _ _ | .addSource _ _ _ | .removeSource _ _ _ | .changeScene _ _ | .startStream | .stopStream
  | .quit => False
  | _ => True

/-- How many steps a request is away from the hub of the pictures. -/
def stepsLeft : CompositorThread Frame → ℕ
  | .sleeping _ => 3
  | .starting | .composing _ => 2
  | .waiting | .stopped => 0

/-- How many such steps are left at most, by the place that they start from. -/
def work (s : SceneViewer Frame) : ℕ :=
  8 * s.hub.requesting + 7 * s.hub.sending + 6 * s.hub.renderReady + 5 * s.hub.draining.toNat +
    4 * s.pending.isSome.toNat + stepsLeft s.compositor + s.hub.compositionReady + s.compositionFailed

theorem work_compose (s : SceneViewer Frame) (gpu : Gpu Frame) (request : RenderRequest Frame) :
    (s.compose gpu request).work + stepsLeft s.compositor ≤ s.work + 1 := by
  unfold SceneViewer.compose
  split
  · rename_i image dimensions rendered _
    have hready : (s.hub.composed ⟨request, image, dimensions, rendered⟩).compositionReady ≤
        s.hub.compositionReady + 1 := by
      unfold FrameLoop.composed
      dsimp only
      split <;> omega
    simp only [work, stepsLeft]
    simp only [FrameLoop.composed] at hready ⊢
    omega
  · split <;> simp only [work, stepsLeft] <;> omega
  · simp only [work, stepsLeft]
    omega

theorem CompositorSteps.work (h : CompositorSteps s s') : s'.work < s.work := by
  cases h with
  | initialized hcompositor | failed hcompositor =>
    simp only [SceneViewer.work, stepsLeft, hcompositor]
    omega
  | take sleeps hcompositor hpending =>
    simp only [SceneViewer.work, hcompositor, hpending, Option.isSome_some, Option.isSome_none,
      Bool.toNat_true, Bool.toNat_false]
    cases sleeps <;> simp only [stepsLeft, if_true, Bool.false_eq_true, if_false] <;> omega
  | wake hcompositor =>
    simp only [SceneViewer.work, stepsLeft, hcompositor, Option.isSome_none, Bool.toNat_false]
    omega
  | @compose gpu request hcompositor =>
    have hwork := s.work_compose gpu request
    simp only [hcompositor, stepsLeft] at hwork
    omega

theorem LoopSteps.work {label : SceneViewerStep Frame} (h : LoopSteps s label s')
    (hinternal : Internal label) : s'.work < s.work := by
  cases h with
  | drain hstep =>
    obtain ⟨⟨hready, hidle⟩, rfl⟩ := FrameLoop.step_spec hstep
    simp only [SceneViewer.work, FrameLoop.drain, hidle, Bool.toNat_true, Bool.toNat_false]
    omega
  | render hstep =>
    obtain ⟨hdraining, rfl⟩ := FrameLoop.step_spec hstep
    simp only [SceneViewer.work, FrameLoop.render, hdraining, Option.isSome_some, Bool.toNat_true,
      Bool.toNat_false]
    omega
  | showFrame _ hstep _ | showNothing _ hstep _ =>
    have hready : 0 < s.hub.compositionReady := (FrameLoop.step_spec hstep).1.1
    simp only [SceneViewer.work, SceneViewer.showFrame, FrameLoop.showFrame]
    omega
  | compositionFailed hfailed =>
    simp only [SceneViewer.work]
    omega
  | startStream _ | stopStream | quit => exact hinternal.elim

theorem work_step {label : SceneViewerStep Frame} (hinternal : Internal label)
    (h : s.step label = some s') : s'.work < s.work := by
  unfold SceneViewer.step at h
  split at h
  · cases h
  · exact hinternal.elim
  · obtain ⟨hub, hstep, rfl⟩ := Option.map_eq_some_iff.1 h
    obtain ⟨hrequesting, rfl⟩ := FrameLoop.step_spec hstep
    simp only [work, FrameLoop.setPending]
    split <;> dsimp only <;> omega
  · obtain ⟨hub, hstep, rfl⟩ := Option.map_eq_some_iff.1 h
    obtain ⟨hsending, rfl⟩ := FrameLoop.step_spec hstep
    simp only [work]
    omega
  iterate 3 · exact hinternal.elim
  iterate 4 · exact (runCompositor_steps h).work
  · exact (handleEvent_steps (Option.ite_none_right_eq_some.1 h).2).work hinternal

/-! ## What is shown in the end -/

/-- No step of its own is left. -/
def Settled (s : SceneViewer Frame) : Prop := ∀ label, Internal label → s.step label = none

/-- The window shows the scene: with the newest frame of every source that is in use, without those
that are gone, and in the size of the canvas. Before the first request it shows nothing, and no frame
has come. -/
def ShowsScene (s : SceneViewer Frame) : Prop :=
  (s.shown = [] ∧ ∀ source, s.hub.newest source = none) ∨
    ∃ (frames : SourceFrames Frame) (gpu : Gpu Frame) (composed : ComposedFrame Frame),
      s.shown.getLast? = some composed ∧
        composeScene frames s.colors gpu s.elements none =
          .ok (composed.image, composed.dimensions, composed.elements) ∧
        (∀ element ∈ s.elements, ∀ frame, s.hub.newest element.source = some frame →
          frames.frame element.source = some frame) ∧
        ∀ source ∈ s.hub.gone, frames.frame source = none

theorem Settled.hub (settled : s.Settled) (hrunning : s.running = true) : s.hub.Settled := by
  have hdraining : s.hub.draining = false := by
    by_contra hdraining
    have h := settled .render trivial
    simp [SceneViewer.step, SceneViewer.handleEvent, FrameLoop.step, hrunning, hdraining] at h
  refine ⟨?_, ?_, ?_, hdraining⟩
  · have h := settled .setPending trivial
    simpa [SceneViewer.step, FrameLoop.step] using h
  · have h := settled .sendReady trivial
    simpa [SceneViewer.step, FrameLoop.step] using h
  · have h := settled .drain trivial
    simpa [SceneViewer.step, SceneViewer.handleEvent, FrameLoop.step, hrunning, hdraining] using h

/-- With its events handled the loop has seen no failure, and no picture waits for it. -/
theorem Settled.handled (settled : s.Settled) (hrunning : s.running = true) (hwakes : s.hub.Wakes) :
    s.compositionFailed = 0 ∧ s.hub.latest = none := by
  have hidle := (settled.hub hrunning).draining
  constructor
  · have h := settled .compositionFailed trivial
    simpa [SceneViewer.step, SceneViewer.handleEvent, hrunning, hidle] using h
  · by_contra hlatest
    have hready := hwakes.noLostWakeup.composition hlatest
    have h := settled (.showFrame true) trivial
    simp [SceneViewer.step, SceneViewer.handleEvent, FrameLoop.step, hrunning, hidle, hready] at h

/-- A thread that has not stopped waits for a request, and none is in the queue. -/
theorem Settled.waiting (settled : s.Settled) (hcompositor : s.compositor ≠ .stopped) :
    s.compositor = .waiting ∧ s.pending = none := by
  cases hthread : s.compositor with
  | starting =>
    have h := settled (.initialized true) trivial
    simp [SceneViewer.step, SceneViewer.runCompositor, hthread] at h
  | waiting =>
    refine ⟨rfl, ?_⟩
    by_contra hpending
    obtain ⟨request, hpending⟩ := Option.ne_none_iff_exists'.1 hpending
    have h := settled (.take true) trivial
    simp [SceneViewer.step, SceneViewer.runCompositor, hthread, hpending] at h
  | sleeping request =>
    have h := settled .wake trivial
    simp [SceneViewer.step, SceneViewer.runCompositor, hthread] at h
  | composing request =>
    have h := settled (.compose ⟨fun _ => none, fun _ _ => none, fun _ => none⟩) trivial
    simp [SceneViewer.step, SceneViewer.runCompositor, hthread] at h
  | stopped => exact (hcompositor hthread).elim

/-- Captured frames are what a request has of a source, which may be a color without any. -/
theorem frame_ofCaptures (frames : SourceId → Option (SourceFrame Frame)) (source : SourceId) :
    (SourceFrames.ofCaptures frames).frame source = frames source ∨
      (∃ id, source = .color id) ∧ (SourceFrames.ofCaptures frames).frame source = none := by
  cases source with
  | color id => exact .inr ⟨⟨id, rfl⟩, rfl⟩
  | display _ | window _ | camera _ => exact .inl rfl

theorem Settled.showsScene (settled : s.Settled) (hrunning : s.running = true)
    (hcompositor : s.compositor ≠ .stopped) (tracks : s.Tracks) (flow : s.Flow) (hwakes : s.hub.Wakes)
    (hcurrent : s.hub.Current) : s.ShowsScene := by
  have hhub := settled.hub hrunning
  obtain ⟨hfailed, hlatest⟩ := settled.handled hrunning hwakes
  obtain ⟨hwaiting, hpending⟩ := settled.waiting hcompositor
  have hrequest := hhub.requestCurrent hwakes hcurrent
  have hflag : ¬ (s.hub.renderPending = true ∨ 0 < s.hub.requesting) := by
    rw [hhub.requesting]
    rintro (hflag | hpos)
    · have hcalled := hwakes.called hflag
      rw [hhub.renderReady, hhub.sending] at hcalled
      exact Nat.lt_irrefl 0 hcalled
    · exact Nat.lt_irrefl 0 hpos
  have hlast : (s.shown.map ComposedFrame.request).getLast? = s.requests.getLast? := by
    have h := flow.last ⟨hfailed, hrunning, hcompositor⟩
    simpa [inFlight, hlatest, hwaiting, hpending] using h
  have hrequested := tracks.requested
  cases hnewest : s.requests.getLast? with
  | none =>
    rw [hnewest] at hlast hrequested
    refine .inl ⟨by simpa using hlast, fun source => ?_⟩
    by_contra hframe
    obtain ⟨frame, hframe⟩ := Option.ne_none_iff_exists'.1 hframe
    have hsome := hrequest.newest source (hcurrent.newest source frame hframe).1 frame hframe
    rw [FrameLoop.requestedFrame, Option.map_eq_none_iff.1 hrequested.symm] at hsome
    cases hsome
  | some request =>
    rw [hnewest] at hlast hrequested
    rw [List.getLast?_map, Option.map_eq_some_iff] at hlast
    obtain ⟨composed, hshown, rfl⟩ := hlast
    obtain ⟨last, hlast, hframes⟩ := Option.map_eq_some_iff.1 hrequested.symm
    obtain ⟨gpu, hcomposed⟩ := flow.composes composed (.inl (List.mem_of_getLast? hshown))
    obtain ⟨helements, hcolors⟩ :=
      (tracks.current hhub.draining _ hnewest).resolve_right hflag
    have hmem := List.mem_of_getLast? hnewest
    have hcanvas : Streams.composedDimensions composed.request.lockedDimensions =
        Streams.composedDimensions none := tracks.lockedRequests _ hmem
    rw [composeScene_congr hcanvas, helements, hcolors] at hcomposed
    have hrequestedFrame : ∀ source, s.hub.requestedFrame source = last.2 source := fun source => by
      rw [FrameLoop.requestedFrame, hlast]
      rfl
    refine .inr ⟨_, gpu, composed, hshown, hcomposed, fun element helement frame hframe => ?_,
      fun source hgone => ?_⟩
    · have hscene : element.source ∈ s.hub.scene := by
        rw [← tracks.used, usedSources, List.mem_toFinset]
        exact List.mem_map_of_mem helement
      have hlatest := hrequest.newest element.source hscene frame hframe
      rw [hrequestedFrame] at hlatest
      rw [← hframes]
      rcases frame_ofCaptures last.2 element.source with hcaptured | ⟨⟨id, hcolor⟩, -⟩
      · rw [hcaptured, hlatest]
      · rw [hcolor, tracks.captured] at hframe
        cases hframe
    · have hnone := hrequest.gone source hgone
      rw [hrequestedFrame] at hnone
      rw [← hframes]
      rcases frame_ofCaptures last.2 source with hcaptured | ⟨-, hcolor⟩
      · rw [hcaptured, hnone]
      · exact hcolor

/-- The pictures are shown in the order of the requests that they were composed for. The viewer's own
steps end, and then the window shows the scene, unless the loop or the compositor has ended. -/
theorem scene_viewer_settles (h : ((sceneViewer Frame).restrict FramesFit).Reachable s) :
    (s.shown.map ComposedFrame.request).Sublist s.requests ∧
      (∀ composed ∈ s.shown, composed.Composes ∧ composed.dimensions = defaultCanvasDimensions) ∧
      (∀ labels s', ((sceneViewer Frame).restrict fun _ label => Internal label).Run s labels s' →
        labels.length ≤ s.work) ∧
      (s.Settled → s.running = true → s.compositor ≠ .stopped → s.ShowsScene) := by
  obtain ⟨tracks, flow⟩ := reachable_inv h.of_restrict
  refine ⟨?_, fun composed hmem => ⟨flow.composes composed (.inl hmem),
    dimensions_shown tracks flow hmem⟩, fun labels s' hrun => ?_,
    fun settled hrunning hcompositor => ?_⟩
  · refine List.Sublist.trans ?_ flow.order
    simp only [inFlight, List.append_assoc]
    exact List.sublist_append_left _ _
  · have hlength : labels.length + s'.work ≤ s.work := by
      clear h tracks flow
      induction hrun with
      | nil => simp
      | cons hstep _ ih =>
        have hwork := work_step hstep.1 hstep.2
        rw [List.length_cons]
        omega
    omega
  · have hhub := reachable_hub h
    have hcurrent : s.hub.Current := by
      refine hhub.invariant ?_ fun _ _ _ hcurrent hstep => hcurrent.step hstep.1 hstep.2
      rintro _ ⟨scene, rfl⟩
      exact FrameLoop.launched_current scene
    have hwakes := FrameLoop.reachable_wakes hhub.of_restrict
    exact settled.showsScene hrunning hcompositor tracks flow hwakes hcurrent

/-- Two elements show a display, whose frame comes and is shown. -/
theorem scene_viewer_settles_twice : ∃ s : SceneViewer Unit, s.shown ≠ [] ∧ s.ShowsScene := by
  let gpu : Gpu Unit := ⟨fun _ => none, fun _ _ => none, fun _ => none⟩
  let start : SceneViewer Unit := .launched Unit twice fun _ => none
  let delivered := (displayFrame.frame (.display 7)).get rfl
  let called := (start.hub.submit (.display 7) delivered).setPending
  let drained := FrameLoop.drain { called with sending := 0, renderReady := 1 }
  let waiting : SceneViewer Unit := { start with hub := drained, compositor := .waiting }
  let request := waiting.renderRequest
  let composing : SceneViewer Unit :=
    { waiting with
      hub := drained.render
      compositor := .composing request
      requests := [request] }
  have hdrawn : (composeScene request.frames request.colors gpu request.elements
      request.lockedDimensions).toBool = true := by decide +kernel
  cases hcomposed : composeScene request.frames request.colors gpu request.elements
      request.lockedDimensions with
  | error failure =>
    rw [hcomposed] at hdrawn
    cases hdrawn
  | ok result =>
    let composed : ComposedFrame Unit := ⟨request, result.1, result.2.1, result.2.2⟩
    let s : SceneViewer Unit :=
      { composing with
        hub := (drained.render.composed composed).showFrame
        compositor := .waiting
        shown := [composed] }
    have hcompose : composing.step (.compose gpu) = some
        { composing with
          hub := drained.render.composed composed
          compositor := .waiting } := by
      change some (composing.compose gpu request) = _
      unfold SceneViewer.compose
      rw [hcomposed]
    have hrun : ((sceneViewer Unit).restrict FramesFit).Run start
        [.initialized true, .submit (.display 7) delivered, .setPending, .sendReady, .drain, .render,
          .take false, .compose gpu, .showFrame true] s :=
      .cons ⟨trivial, rfl⟩ (.cons ⟨⟨fun _ => .inr List.not_mem_nil, by rintro ⟨⟩⟩, rfl⟩
        (.cons ⟨trivial, rfl⟩ (.cons ⟨trivial, rfl⟩ (.cons ⟨trivial, rfl⟩ (.cons ⟨trivial, rfl⟩
          (.cons ⟨trivial, rfl⟩ (.cons ⟨trivial, hcompose⟩ (.cons ⟨trivial, rfl⟩ (.nil _)))))))))
    have hsettled : s.Settled := by
      intro label hinternal
      cases label with
      | submit | addSource | removeSource | changeScene | startStream | stopStream | quit =>
        exact hinternal.elim
      | setPending | sendReady | drain | render | initialized | take | wake | compose | showFrame
        | compositionFailed => rfl
    exact ⟨s, List.cons_ne_nil _ _,
      (scene_viewer_settles ⟨start, _, ⟨twice, _, rfl⟩, hrun⟩).2.2.2 hsettled rfl (by rintro ⟨⟩)⟩

end SceneViewer

end Blip.Studio.Exact
