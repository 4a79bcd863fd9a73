import Blip.Studio.Scene
import Blip.Studio.Viewer

/-!
# Captures follow the scene

The capturers, the captures still starting and those that failed, against the sources that the scene
uses. A callback is told from an older one of the same source by its generation, so the results hold
as long as no capture starts with a generation that a callback still to be delivered carries.
-/

namespace Blip.Studio

/-! ## The state of the captures -/

/-- The part of the viewer that is about captures and their callbacks. -/
structure CaptureState where
  captures : SourceId → Option CaptureResource
  pendingCaptures : SourceId → Option ℕ
  failedCaptures : Finset SourceId
  openCapturers : Finset ℕ
  nextCapturer : ℕ
  errors : List ErrorEvent
  starts : List CameraStart

def Viewer.captureState (viewer : Viewer) : CaptureState where
  captures := viewer.captures
  pendingCaptures := viewer.pendingCaptures
  failedCaptures := viewer.failedCaptures
  openCapturers := viewer.openCapturers
  nextCapturer := viewer.nextCapturer
  errors := viewer.errors
  starts := viewer.starts

/-- Entries are for the initial source and the sources in use, the capturers running are those of
the entries, and callbacks of older captures are told apart from those of the entries. -/
structure CaptureState.Tracks (state : CaptureState) (initialSource : SourceId)
    (uses : SourceId → Prop) : Prop where
  used : ∀ source, (state.captures source).isSome → source = initialSource ∨ uses source
  pending : ∀ source, (state.pendingCaptures source).isSome →
    uses source ∧ state.captures source = none
  failed : ∀ source ∈ state.failedCaptures, uses source
  running : ∀ capturer, capturer ∈ state.openCapturers ↔
    ∃ source resource, state.captures source = some resource ∧ resource.capturer = capturer
  distinct : ∀ left right leftResource rightResource,
    state.captures left = some leftResource → state.captures right = some rightResource →
      leftResource.capturer = rightResource.capturer → left = right
  fresh : ∀ capturer ∈ state.openCapturers, capturer < state.nextCapturer
  reported : ∀ event ∈ state.errors, ∀ resource, state.captures event.source = some resource →
    resource.generation = event.generation → resource.capturer = event.capturer
  finishing : ∀ start ∈ state.starts,
    state.pendingCaptures start.source = some start.generation → start.deleted = false

/-- The sources and generations of the callbacks still to be delivered. -/
def CaptureState.undelivered (state : CaptureState) : List (SourceId × ℕ) :=
  state.errors.map (fun event => (event.source, event.generation)) ++
    state.starts.map fun start => (start.source, start.generation)

/-- No callback of an older capture carries the generation of the capture that is starting. -/
theorem CaptureState.fresh_of_not_mem {state : CaptureState} {source : SourceId} {generation : ℕ}
    (h : (source, generation) ∉ state.undelivered) :
    (∀ event ∈ state.errors, event.source = source → event.generation ≠ generation) ∧
      ∀ start ∈ state.starts, start.source = source → start.generation ≠ generation := by
  rw [undelivered, List.mem_append, not_or] at h
  constructor
  · rintro event hevent rfl rfl
    exact h.1 (List.mem_map_of_mem hevent)
  · rintro start hstart rfl rfl
    exact h.2 (List.mem_map_of_mem hstart)

namespace CaptureState.Tracks

variable {state : CaptureState} {initialSource source : SourceId} {uses uses' : SourceId → Prop}

theorem mono (h : state.Tracks initialSource uses) (huses : ∀ source, uses source → uses' source) :
    state.Tracks initialSource uses' where
  used source hsource := (h.used source hsource).imp_right (huses source)
  pending source hsource := (h.pending source hsource).imp_left (huses source)
  failed source hsource := huses source (h.failed source hsource)
  running := h.running
  distinct := h.distinct
  fresh := h.fresh
  reported := h.reported
  finishing := h.finishing

/-- A new entry for a source that has none, with the number of a capturer just started. -/
theorem install (h : state.Tracks initialSource uses) (hnone : state.captures source = none)
    (hpending : state.pendingCaptures source = none) (huses : source = initialSource ∨ uses source)
    {generation : ℕ}
    (hfresh : ∀ event ∈ state.errors, event.source = source → event.generation ≠ generation) :
    CaptureState.Tracks
      { state with
        captures := Function.update state.captures source (some ⟨state.nextCapturer, generation⟩)
        openCapturers := insert state.nextCapturer state.openCapturers
        nextCapturer := state.nextCapturer + 1 } initialSource uses := by
  have hnew : ∀ other resource, state.captures other = some resource →
      -- no entry has the capturer that is started now
      resource.capturer ≠ state.nextCapturer := fun other resource hother heq =>
    absurd (h.fresh resource.capturer ((h.running _).2 ⟨other, resource, hother, rfl⟩)) (by omega)
  refine ⟨fun other hother => ?_, fun other hother => ?_, h.failed, fun capturer => ?_,
    fun left right leftResource rightResource hleft hright heq => ?_, fun capturer hcapturer => ?_,
    fun event hevent resource hresource hgeneration => ?_, h.finishing⟩
  · by_cases hsource : other = source
    · exact hsource ▸ huses
    · exact h.used other (by simpa [hsource] using hother)
  · have hsource : other ≠ source := by
      rintro rfl
      simp [hpending] at hother
    simpa [hsource] using h.pending other hother
  · rw [Finset.mem_insert, h.running]
    constructor
    · rintro (rfl | ⟨other, resource, hother, rfl⟩)
      · exact ⟨source, _, Function.update_self .., rfl⟩
      · have hsource : other ≠ source := by
          rintro rfl
          simp [hnone] at hother
        exact ⟨other, resource, by simpa [hsource] using hother, rfl⟩
    · rintro ⟨other, resource, hother, rfl⟩
      by_cases hsource : other = source
      · subst hsource
        simp only [Function.update_self, Option.some.injEq] at hother
        exact .inl (hother ▸ rfl)
      · exact .inr ⟨other, resource, by simpa [hsource] using hother, rfl⟩
  · -- two entries with one capturer can only be the new one twice, or two old ones
    by_cases hleftSource : left = source <;> by_cases hrightSource : right = source
    · rw [hleftSource, hrightSource]
    · subst hleftSource
      simp only [Function.update_self, Option.some.injEq] at hleft
      subst hleft
      exact absurd heq.symm (hnew right _ (by simpa [hrightSource] using hright))
    · subst hrightSource
      simp only [Function.update_self, Option.some.injEq] at hright
      subst hright
      exact absurd heq (hnew left _ (by simpa [hleftSource] using hleft))
    · exact h.distinct left right _ _ (by simpa [hleftSource] using hleft)
        (by simpa [hrightSource] using hright) heq
  · rcases Finset.mem_insert.1 hcapturer with rfl | hcapturer
    · exact Nat.lt_succ_self _
    · exact Nat.lt_succ_of_lt (h.fresh capturer hcapturer)
  · by_cases hsource : event.source = source
    · simp only [hsource, Function.update_self, Option.some.injEq] at hresource
      subst hresource
      exact absurd hgeneration.symm (hfresh event hevent hsource)
    · exact h.reported event hevent resource (by simpa [hsource] using hresource) hgeneration

/-- Without the entry of a source, whose capturer is stopped. -/
theorem uninstall (h : state.Tracks initialSource uses) (source : SourceId) :
    CaptureState.Tracks
      { state with
        captures := Function.update state.captures source none
        openCapturers := match state.captures source with
          | some resource => state.openCapturers.erase resource.capturer
          | none => state.openCapturers } initialSource uses := by
  have hkept : ∀ other resource,
      Function.update state.captures source none other = some resource →
        other ≠ source ∧ state.captures other = some resource := fun other resource hother => by
    have hsource : other ≠ source := by
      rintro rfl
      simp at hother
    exact ⟨hsource, by simpa [hsource] using hother⟩
  refine ⟨fun other hother => ?_, fun other hother => ?_, h.failed, fun capturer => ?_,
    fun left right leftResource rightResource hleft hright heq => ?_, fun capturer hcapturer => ?_,
    fun event hevent resource hresource hgeneration => ?_, h.finishing⟩
  · obtain ⟨resource, hother⟩ := Option.isSome_iff_exists.1 hother
    exact h.used other (by simp [(hkept other resource hother).2])
  · obtain ⟨huses, hnone⟩ := h.pending other hother
    refine ⟨huses, ?_⟩
    by_cases hsource : other = source <;> simp [hsource, hnone]
  · constructor
    · intro hcapturer
      have hopen : capturer ∈ state.openCapturers := by
        cases hsource : state.captures source with
        | none => simpa [hsource] using hcapturer
        | some resource => exact Finset.mem_of_mem_erase (by simpa [hsource] using hcapturer)
      obtain ⟨other, resource, hother, rfl⟩ := (h.running capturer).1 hopen
      have hsource : other ≠ source := by
        rintro rfl
        simp [hother] at hcapturer
      exact ⟨other, resource, by simpa [hsource] using hother, rfl⟩
    · rintro ⟨other, resource, hother, rfl⟩
      obtain ⟨hsource, hother⟩ := hkept other resource hother
      have hopen := (h.running resource.capturer).2 ⟨other, resource, hother, rfl⟩
      cases hold : state.captures source with
      | none => exact hopen
      | some old =>
        -- the capturer that is stopped belongs to no other entry
        refine Finset.mem_erase.2 ⟨fun heq => hsource ?_, hopen⟩
        exact h.distinct other source resource old hother hold heq
  · exact h.distinct left right _ _ (hkept left _ hleft).2 (hkept right _ hright).2 heq
  · refine h.fresh capturer ?_
    cases hsource : state.captures source with
    | none => simpa [hsource] using hcapturer
    | some resource => exact Finset.mem_of_mem_erase (by simpa [hsource] using hcapturer)
  · exact h.reported event hevent resource (hkept _ _ hresource).2 hgeneration

/-- Fewer callbacks, and none of another kind. -/
theorem deliver (h : state.Tracks initialSource uses) {errors : List ErrorEvent}
    {starts : List CameraStart} (herrors : errors ⊆ state.errors) (hstarts : starts ⊆ state.starts) :
    CaptureState.Tracks { state with errors, starts } initialSource uses :=
  { h with
    reported := fun event hevent => h.reported event (herrors hevent)
    finishing := fun start hstart => h.finishing start (hstarts hstart) }

/-- One more report that a capturer stopped, which is that of its source's entry if there is one. -/
theorem report (h : state.Tracks initialSource uses) {event : ErrorEvent}
    (hevent : ∀ resource ∈ state.captures event.source, resource.capturer = event.capturer)
    {nextCapturer : ℕ} (hnext : state.nextCapturer ≤ nextCapturer) :
    CaptureState.Tracks { state with errors := state.errors ++ [event], nextCapturer } initialSource
      uses :=
  { h with
    fresh := fun capturer hcapturer => (h.fresh capturer hcapturer).trans_le hnext
    reported := fun other hother resource hresource hgeneration => by
      rcases List.mem_append.1 hother with hother | hother
      · exact h.reported other hother resource hresource hgeneration
      · obtain rfl := List.mem_singleton.1 hother
        exact hevent resource hresource }

/-- Nothing is starting or failed for a source any more. -/
theorem forget (h : state.Tracks initialSource uses) (hnone : state.captures source = none) :
    CaptureState.Tracks
      { state with
        pendingCaptures := Function.update state.pendingCaptures source none
        failedCaptures := state.failedCaptures.erase source } initialSource
      fun other => uses other ∧ other ≠ source where
  used other hother := by
    have hsource : other ≠ source := by
      rintro rfl
      simp [hnone] at hother
    exact (h.used other hother).imp_right fun huses => ⟨huses, hsource⟩
  pending other hother := by
    have hsource : other ≠ source := by
      rintro rfl
      simp at hother
    have := h.pending other (by simpa [hsource] using hother)
    exact ⟨⟨this.1, hsource⟩, this.2⟩
  failed other hother := by
    obtain ⟨hsource, hother⟩ := Finset.mem_erase.1 hother
    exact ⟨h.failed other hother, hsource⟩
  running := h.running
  distinct := h.distinct
  fresh := h.fresh
  reported := h.reported
  finishing start hstart hpending := by
    have hsource : start.source ≠ source := by
      intro hsource
      simp [hsource] at hpending
    exact h.finishing start hstart (by simpa [hsource] using hpending)

/-- A camera is being started for a source in use that has no entry. -/
theorem pend (h : state.Tracks initialSource uses) (hnone : state.captures source = none)
    (huses : uses source) {generation : ℕ}
    (hfresh : ∀ start ∈ state.starts, start.source = source → start.generation ≠ generation) :
    CaptureState.Tracks
      { state with
        pendingCaptures := Function.update state.pendingCaptures source (some generation)
        failedCaptures := state.failedCaptures.erase source
        starts := state.starts ++ [⟨source, generation, false⟩] } initialSource uses :=
  { h with
    pending := fun other hother => by
      by_cases hsource : other = source
      · subst hsource
        exact ⟨huses, hnone⟩
      · exact h.pending other (by simpa [hsource] using hother)
    failed := fun other hother => h.failed other (Finset.mem_of_mem_erase hother)
    finishing := fun start hstart hpending => by
      rcases List.mem_append.1 hstart with hstart | hstart
      · by_cases hsource : start.source = source
        · simp only [hsource, Function.update_self, Option.some.injEq] at hpending
          exact absurd hpending.symm (hfresh start hstart hsource)
        · exact h.finishing start hstart (by simpa [hsource] using hpending)
      · obtain rfl := List.mem_singleton.1 hstart
        rfl }

/-- No camera of a source is being started any more, and it may have failed. -/
theorem settle (h : state.Tracks initialSource uses) (huses : uses source)
    {failedCaptures : Finset SourceId} (hfailed : failedCaptures ⊆ insert source state.failedCaptures) :
    CaptureState.Tracks
      { state with
        pendingCaptures := Function.update state.pendingCaptures source none
        failedCaptures } initialSource uses :=
  { h with
    pending := fun other hother => by
      have hsource : other ≠ source := by
        rintro rfl
        simp at hother
      exact h.pending other (by simpa [hsource] using hother)
    failed := fun other hother => by
      rcases Finset.mem_insert.1 (hfailed hother) with rfl | hother
      · exact huses
      · exact h.failed other hother
    finishing := fun start hstart hpending => by
      have hsource : start.source ≠ source := by
        intro hsource
        simp [hsource] at hpending
      exact h.finishing start hstart (by simpa [hsource] using hpending) }

end CaptureState.Tracks

/-! ## The viewer's captures -/

theorem CaptureTarget.not_isColor (target : CaptureTarget) : ¬ target.id.IsColor := by
  cases target <;> exact fun h => h

namespace Viewer

variable {viewer viewer' : Viewer} {initialSource source : SourceId}

/-- The source is in use and is captured. -/
def Needs (viewer : Viewer) (source : SourceId) : Prop :=
  viewer.scene.usesSource source = true ∧ ¬ source.IsColor

/-- The source has a capture, one that is starting, or one that failed. -/
def Covers (viewer : Viewer) (source : SourceId) : Prop :=
  (viewer.captures source).isSome ∨ (viewer.pendingCaptures source).isSome ∨
    source ∈ viewer.failedCaptures ∨ source ∈ viewer.lost

theorem covers_congr (hcaptures : viewer'.captureState = viewer.captureState)
    (hlost : viewer'.lost = viewer.lost) : viewer'.Covers source ↔ viewer.Covers source := by
  have hcaptures' : viewer'.captures = viewer.captures := congrArg (·.captures) hcaptures
  have hpending : viewer'.pendingCaptures = viewer.pendingCaptures :=
    congrArg (·.pendingCaptures) hcaptures
  have hfailed : viewer'.failedCaptures = viewer.failedCaptures :=
    congrArg (·.failedCaptures) hcaptures
  rw [Covers, Covers, hcaptures', hpending, hfailed, hlost]

/-- The captures and the color table against the scene. -/
structure Follows (viewer : Viewer) (initialSource : SourceId) : Prop where
  tracks : viewer.captureState.Tracks initialSource viewer.Needs
  covered : ∀ source, viewer.Needs source → viewer.Covers source
  colors : ∀ source, (viewer.colors source).isSome ↔
    viewer.scene.usesSource source = true ∧ source.IsColor
  cameras : ∀ source, (viewer.pendingCaptures source).isSome → ∃ id, source = .camera id
  screens : ∀ event ∈ viewer.errors, ∀ id, event.source ≠ .camera id

/-- Calls that change neither the captures nor the sources in use. -/
structure KeepsCaptures (viewer viewer' : Viewer) : Prop where
  captureState : viewer'.captureState = viewer.captureState
  lost : viewer'.lost = viewer.lost
  uses : ∀ source, viewer'.scene.usesSource source = viewer.scene.usesSource source
  colors : ∀ source, (viewer'.colors source).isSome = (viewer.colors source).isSome

namespace KeepsCaptures

theorem refl (viewer : Viewer) : KeepsCaptures viewer viewer :=
  ⟨rfl, rfl, fun _ => rfl, fun _ => rfl⟩

theorem trans {viewer'' : Viewer} (h : KeepsCaptures viewer viewer')
    (h' : KeepsCaptures viewer' viewer'') : KeepsCaptures viewer viewer'' where
  captureState := h'.captureState.trans h.captureState
  lost := h'.lost.trans h.lost
  uses source := (h'.uses source).trans (h.uses source)
  colors source := (h'.colors source).trans (h.colors source)

/-- Saving, and anything else that leaves the scene, the captures and the colors as they are. -/
theorem of_eq (hcaptureState : viewer'.captureState = viewer.captureState)
    (hlost : viewer'.lost = viewer.lost) (hscene : viewer'.scene = viewer.scene)
    (hcolors : viewer'.colors = viewer.colors) : KeepsCaptures viewer viewer' :=
  ⟨hcaptureState, hlost, fun _ => by rw [hscene], fun _ => by rw [hcolors]⟩

theorem saveProject (h : KeepsCaptures viewer viewer') : KeepsCaptures viewer viewer'.saveProject :=
  h.trans (of_eq rfl rfl rfl rfl)

theorem changeLayout (item : ElementId) (change : ItemLayout → ItemLayout) :
    KeepsCaptures viewer (viewer.changeLayout item change) where
  captureState := rfl
  lost := rfl
  uses _ := Scene.usesSource_modifyElement fun _ => rfl
  colors _ := rfl

theorem changeSelectedColor (change : Rgb → Rgb) :
    KeepsCaptures viewer (viewer.changeSelectedColor change) := by
  rw [Viewer.changeSelectedColor]
  split
  · exact refl viewer
  · rename_i element _
    split
    · exact refl viewer
    · rename_i color hcolor
      refine saveProject ⟨rfl, rfl, fun _ => rfl, fun source => ?_⟩
      by_cases hsource : source = element.source
      · subst hsource
        simp [hcolor]
      · simp [hsource]

theorem dragSceneItemOver (dragged : ElementId) (destination : Option ℕ) :
    KeepsCaptures viewer (viewer.dragSceneItemOver dragged destination) := by
  rw [Viewer.dragSceneItemOver]
  split
  · split
    · exact refl viewer
    · rename_i scene hscene
      obtain ⟨index, -, hscene⟩ := Option.bind_eq_some_iff.1 hscene
      exact saveProject ⟨rfl, rfl,
        fun _ => Scene.usesSource_congr (Scene.moveToIndex_eq_some hscene).1, fun _ => rfl⟩
  · exact refl viewer

theorem moveSelected (delta : Vec2) : KeepsCaptures viewer (viewer.moveSelected delta) := by
  rw [Viewer.moveSelected]
  split
  · exact refl viewer
  · split
    · exact refl viewer
    · dsimp only
      split
      · split
        · exact refl viewer
        · exact (changeLayout _ _).saveProject
      · exact refl viewer

theorem setTransformValue (adjustment : TransformAdjustment) (value : F32) :
    KeepsCaptures viewer (viewer.setTransformValue adjustment value) := by
  unfold Viewer.setTransformValue
  split
  · exact changeSelectedColor _
  · exact changeSelectedColor _
  · exact changeSelectedColor _
  · split
    · split
      · exact (changeLayout _ _).saveProject
      · exact refl viewer
    · exact refl viewer

theorem beginDrag (viewport : Vec2) (position : Point) :
    KeepsCaptures viewer (viewer.beginDrag viewport position) := by
  rw [Viewer.beginDrag]
  split
  · exact refl viewer
  · split
    · exact refl viewer
    · dsimp only
      split
      · exact of_eq rfl rfl rfl rfl
      · split
        · exact refl viewer
        · split
          · exact of_eq rfl rfl rfl rfl
          · split
            · exact of_eq rfl rfl rfl rfl
            · split
              · exact refl viewer
              · exact of_eq rfl rfl rfl rfl

theorem dragInset (viewport : Vec2) (position : Point) :
    KeepsCaptures viewer (viewer.dragInset viewport position) := by
  rw [Viewer.dragInset]
  split
  · exact refl viewer
  · exact changeLayout _ _

theorem endDrag : KeepsCaptures viewer viewer.endDrag := by
  rw [Viewer.endDrag]
  split
  · exact saveProject (of_eq rfl rfl rfl rfl)
  · exact of_eq rfl rfl rfl rfl

end KeepsCaptures

theorem Follows.keeps (hfollows : viewer.Follows initialSource)
    (h : KeepsCaptures viewer viewer') :
    viewer'.Follows initialSource := by
  have hneeds : viewer'.Needs = viewer.Needs := by
    funext source
    rw [Needs, Needs, h.uses]
  have hpending : viewer'.pendingCaptures = viewer.pendingCaptures :=
    congrArg (·.pendingCaptures) h.captureState
  have herrors : viewer'.errors = viewer.errors := congrArg (·.errors) h.captureState
  refine ⟨?_, fun source => ?_, fun source => ?_, fun source => ?_, ?_⟩
  · rw [h.captureState, hneeds]
    exact hfollows.tracks
  · rw [hneeds, covers_congr h.captureState h.lost]
    exact hfollows.covered source
  · rw [h.colors, h.uses]
    exact hfollows.colors source
  · rw [hpending]
    exact hfollows.cameras source
  · rw [herrors]
    exact hfollows.screens

/-! ## Starting and stopping captures -/

/-- One more source in use. -/
theorem Follows.adds (h : viewer.Follows initialSource)
    (huses : ∀ other, viewer'.scene.usesSource other = true ↔
      viewer.scene.usesSource other = true ∨ other = source)
    (hcolor : ¬ source.IsColor) (hcolors : viewer'.colors = viewer.colors)
    (htracks : viewer'.captureState.Tracks initialSource viewer'.Needs)
    (hsource : viewer'.Covers source)
    (hcovers : ∀ other, other ≠ source → viewer.Covers other → viewer'.Covers other)
    (hcameras : ∀ other, (viewer'.pendingCaptures other).isSome →
      (viewer.pendingCaptures other).isSome ∨ ∃ id, other = .camera id)
    (herrors : viewer'.errors = viewer.errors) : viewer'.Follows initialSource where
  tracks := htracks
  covered other hother := by
    by_cases heq : other = source
    · exact heq ▸ hsource
    · refine hcovers other heq (h.covered other ⟨?_, hother.2⟩)
      exact ((huses other).1 hother.1).resolve_right heq
  colors other := by
    rw [hcolors, h.colors, huses]
    refine ⟨fun hother => ⟨.inl hother.1, hother.2⟩, fun hother => ⟨?_, hother.2⟩⟩
    refine hother.1.resolve_right fun heq => hcolor ?_
    exact heq ▸ hother.2
  cameras other hother := (hcameras other hother).elim (h.cameras other) id
  screens := herrors ▸ h.screens

theorem Needs.of_uses (huses : ∀ other, viewer'.scene.usesSource other = true ↔
    viewer.scene.usesSource other = true ∨ other = source) (other : SourceId)
    (h : viewer.Needs other) : viewer'.Needs other :=
  ⟨(huses other).2 (.inl h.1), h.2⟩

theorem ensureCapture_eq_true {outcome : StartOutcome}
    (h : viewer.ensureCapture source outcome = (true, viewer')) :
    (viewer.captures source).isSome ∧ viewer' = viewer ∨
      viewer.captures source = none ∧ viewer' = viewer.startCapture source 1 .started := by
  rw [ensureCapture] at h
  split at h
  · rename_i hsome
    exact .inl ⟨hsome, (Prod.mk.inj h).2.symm⟩
  · rename_i hnone
    obtain ⟨houtcome, rfl⟩ := Prod.mk.inj h
    rw [of_decide_eq_true houtcome]
    exact .inr ⟨by simpa using hnone, rfl⟩

theorem ensureCapture_eq_false {outcome : StartOutcome}
    (h : viewer.ensureCapture source outcome = (false, viewer')) :
    viewer.captures source = none ∧
      ∃ reported, viewer' = viewer.startCapture source 1 (.failed reported) := by
  rw [ensureCapture] at h
  split at h
  · cases h
  · rename_i hnone
    obtain ⟨houtcome, rfl⟩ := Prod.mk.inj h
    refine ⟨by simpa using hnone, ?_⟩
    cases outcome with
    | started => simp at houtcome
    | failed reported => exact ⟨reported, rfl⟩

/-- Starting a capture fails: there is still none, and at most a report of its end. -/
theorem Follows.startCapture_failed (h : viewer.Follows initialSource) (generation : ℕ)
    (reported : Bool) (hnone : viewer.captures source = none) (hsource : ∀ id, source ≠ .camera id) :
    (viewer.startCapture source generation (.failed reported)).Follows initialSource := by
  have hevent : ∀ resource ∈ viewer.captures source, resource.capturer = viewer.nextCapturer :=
    fun resource hresource => by rw [hnone] at hresource; cases hresource
  refine ⟨?_, h.covered, h.colors, h.cameras, ?_⟩
  · cases reported with
    | false =>
      exact { h.tracks with
        fresh := fun capturer hcapturer => Nat.lt_succ_of_lt (h.tracks.fresh capturer hcapturer) }
    | true =>
      exact @CaptureState.Tracks.report _ _ _ h.tracks ⟨source, generation, viewer.nextCapturer⟩ hevent _
        (Nat.le_succ viewer.nextCapturer)
  · cases reported with
    | false => exact h.screens
    | true =>
      intro event hevent id
      rcases List.mem_append.1 hevent with hevent | hevent
      · exact h.screens event hevent id
      · obtain rfl := List.mem_singleton.1 hevent
        exact hsource id

/-! ## Adding, replacing and deleting -/

/-- The capture that a call starts: its source and its generation. -/
def starting (viewer : Viewer) : ViewerCall → Option (SourceId × ℕ)
  | .addCaptureTarget targetIndex _ =>
    match viewer.targets[targetIndex]? with
    | none => none
    | some (.camera id) =>
      if (viewer.captures (.camera id)).isSome || (viewer.pendingCaptures (.camera id)).isSome then
        none
      else some (.camera id, viewer.nextCaptureGeneration)
    | some target => if (viewer.captures target.id).isSome then none else some (target.id, 1)
  | .replaceSelectedCapture targetIndex _ =>
    match viewer.targets[targetIndex]? with
    | none => none
    | some target => if (viewer.captures target.id).isSome then none else some (target.id, 1)
  | .captureFailed event _ => some (event.source, saturatingSucc event.generation)
  | _ => none

/-- The sources and generations of the callbacks still to be delivered after a call. -/
def undelivered (viewer : Viewer) : ViewerCall → List (SourceId × ℕ)
  | .captureFailed event _ =>
    { viewer.captureState with errors := viewer.errors.erase event }.undelivered
  | _ => viewer.captureState.undelivered

/-- A capture starts with a generation that no callback of its source still carries. -/
def StartsFresh (viewer : Viewer) (call : ViewerCall) : Prop :=
  ∀ capture ∈ viewer.starting call, capture ∉ viewer.undelivered call

/-- The call replaces the source of the selected element. -/
def replaces : ViewerCall → Bool
  | .replaceSelectedCapture _ _ => true
  | _ => false

/-- What is replaced is a capture. -/
def ReplacesCapture (viewer : Viewer) (call : ViewerCall) : Prop :=
  replaces call = true →
    ∀ element ∈ viewer.selectedItem.bind viewer.scene.element, ¬ element.source.IsColor

theorem usesSource_addElement (layout : ItemLayout) (source other : SourceId) :
    (viewer.addElement source layout).scene.usesSource other = true ↔
      viewer.scene.usesSource other = true ∨ other = source :=
  Scene.usesSource_add layout source

/-- After making sure of a capture for a source, everything follows a scene that uses it too. -/
theorem Follows.ensureCapture (h : viewer.Follows initialSource) {outcome : StartOutcome}
    (hcolor : ¬ source.IsColor) (hcamera : ∀ id, source ≠ .camera id)
    (hfresh : viewer.captures source = none → (source, 1) ∉ viewer.captureState.undelivered)
    (hensure : viewer.ensureCapture source outcome = (true, viewer')) :
    viewer'.scene = viewer.scene ∧ (viewer'.addElement source insetLayout).Follows initialSource := by
  have huses := fun other => @usesSource_addElement viewer insetLayout source other
  have htracks := h.tracks.mono (Needs.of_uses huses)
  rcases ensureCapture_eq_true hensure with ⟨hsome, rfl⟩ | ⟨hnone, rfl⟩
  · exact ⟨rfl, h.adds huses hcolor rfl htracks (.inl hsome) (fun _ _ hcovers => hcovers)
      (fun _ => .inl) rfl⟩
  · have hpending : viewer.pendingCaptures source = none := by
      by_contra hsome
      obtain ⟨id, hid⟩ := h.cameras source (Option.isSome_iff_ne_none.2 hsome)
      exact hcamera id hid
    have htracks := htracks.install hnone hpending (.inr ⟨(huses source).2 (.inr rfl), hcolor⟩)
      (CaptureState.fresh_of_not_mem (hfresh hnone)).1
    refine ⟨rfl, h.adds huses hcolor rfl htracks (.inl ?_) (fun other hother hcovers => ?_)
      (fun _ => .inl) rfl⟩
    · simp [startCapture, addElement]
    · refine hcovers.imp_left fun hcaptures => ?_
      simpa [startCapture, addElement, hother] using hcaptures

theorem Follows.addCameraTarget (h : viewer.Follows initialSource) (id : ℕ)
    (hfresh : viewer.captures (.camera id) = none → viewer.pendingCaptures (.camera id) = none →
      (SourceId.camera id, viewer.nextCaptureGeneration) ∉ viewer.captureState.undelivered) :
    (viewer.addCameraTarget (.camera id)).Follows initialSource := by
  have huses := fun other => @usesSource_addElement viewer insetLayout (.camera id) other
  have hneeds : viewer.addElement (.camera id) insetLayout |>.Needs (.camera id) :=
    ⟨(huses _).2 (.inr rfl), by rintro ⟨⟩⟩
  have htracks := h.tracks.mono (Needs.of_uses huses)
  rw [Viewer.addCameraTarget]
  split
  · rename_i hsome
    refine h.adds huses nofun rfl htracks ?_ (fun _ _ hcovers => hcovers) (fun _ => .inl) rfl
    rcases Bool.or_eq_true _ _ ▸ hsome with hsome | hsome
    · exact .inl hsome
    · exact .inr (.inl hsome)
  · rename_i hnone
    simp only [Bool.or_eq_true, not_or, Bool.not_eq_true, Option.isSome_eq_false_iff,
      Option.isNone_iff_eq_none] at hnone
    refine h.adds huses nofun rfl (htracks.pend hnone.1 hneeds
      (CaptureState.fresh_of_not_mem (hfresh hnone.1 hnone.2)).2) (.inr (.inl ?_)) ?_ ?_ rfl
    · simp
    · intro other hother hcovers
      rcases hcovers with hcovers | hcovers | hcovers | hcovers
      · exact .inl hcovers
      · exact .inr (.inl (by simpa [hother, addElement, saveProject] using hcovers))
      · exact .inr (.inr (.inl (Finset.mem_erase.2 ⟨hother, hcovers⟩)))
      · exact .inr (.inr (.inr hcovers))
    · intro other hother
      by_cases heq : other = .camera id
      · exact .inr ⟨id, heq⟩
      · exact .inl (by simpa [heq, addElement, saveProject] using hother)

theorem Follows.addCaptureTarget (h : viewer.Follows initialSource) {targetIndex : ℕ}
    {outcome : StartOutcome}
    (hfresh : viewer.StartsFresh (.addCaptureTarget targetIndex outcome)) :
    (viewer.addCaptureTarget targetIndex outcome).Follows initialSource := by
  rw [Viewer.addCaptureTarget]
  rw [StartsFresh, starting] at hfresh
  split
  · exact h
  · rename_i id htarget
    refine h.addCameraTarget id fun hcapture hpending => ?_
    rw [htarget] at hfresh
    exact hfresh _ (by simp [hcapture, hpending])
  · rename_i target hcamera htarget
    have hid : ∀ id, target.id ≠ .camera id := by
      intro id heq
      cases target with
      | camera id => exact hcamera id rfl
      | display _ | window _ => cases heq
    have hfresh : viewer.captures target.id = none →
        (target.id, 1) ∉ viewer.captureState.undelivered := fun hcapture => by
      refine hfresh _ ?_
      rw [htarget]
      cases target with
      | camera id => exact absurd rfl (hcamera id)
      | display _ | window _ => simp [hcapture]
    split
    · rename_i viewer' hensure
      obtain ⟨hnone, reported, rfl⟩ := ensureCapture_eq_false hensure
      exact h.startCapture_failed 1 reported hnone hid
    · rename_i viewer' hensure
      exact (h.ensureCapture target.not_isColor hid hfresh hensure).2.keeps
        (KeepsCaptures.refl _).saveProject

/-- A source goes out of use with its color. -/
theorem Follows.dropsColor (h : viewer.Follows initialSource)
    (huses : ∀ other, viewer.scene.usesSource other = true ↔
      viewer'.scene.usesSource other = true ∨ other = source)
    (hunused : viewer'.scene.usesSource source ≠ true) (hcolor : source.IsColor)
    (hcaptures : viewer'.captureState = viewer.captureState) (hlost : viewer'.lost = viewer.lost)
    (hcolors : viewer'.colors = Function.update viewer.colors source none) :
    viewer'.Follows initialSource := by
  have hneeds : ∀ other, viewer'.Needs other ↔ viewer.Needs other := fun other => by
    refine ⟨fun hother => ⟨(huses other).2 (.inl hother.1), hother.2⟩, fun hother => ?_⟩
    refine ⟨((huses other).1 hother.1).resolve_right ?_, hother.2⟩
    rintro rfl
    exact hother.2 hcolor
  have hpending : viewer'.pendingCaptures = viewer.pendingCaptures :=
    congrArg (·.pendingCaptures) hcaptures
  have herrors : viewer'.errors = viewer.errors := congrArg (·.errors) hcaptures
  refine ⟨hcaptures ▸ h.tracks.mono fun other => (hneeds other).2, fun other hother => ?_,
    fun other => ?_, hpending ▸ h.cameras, herrors ▸ h.screens⟩
  · exact (covers_congr hcaptures hlost).2 (h.covered other ((hneeds other).1 hother))
  · rw [hcolors]
    by_cases heq : other = source
    · simp [heq, hunused]
    · rw [Function.update_of_ne heq, h.colors, huses]
      exact and_congr_left' (or_iff_left heq)

/-- A source goes out of use with its capture. -/
theorem Follows.dropsCapture (h : viewer.Follows initialSource)
    (huses : ∀ other, viewer.scene.usesSource other = true ↔
      viewer'.scene.usesSource other = true ∨ other = source)
    (hunused : viewer'.scene.usesSource source ≠ true) (hcolor : ¬ source.IsColor)
    (hcaptures : viewer'.captureState = (viewer.releaseCapture source).captureState)
    (hlost : viewer'.lost = viewer.lost) (hcolors : viewer'.colors = viewer.colors) :
    viewer'.Follows initialSource := by
  have hpending : viewer'.pendingCaptures = Function.update viewer.pendingCaptures source none :=
    congrArg (·.pendingCaptures) hcaptures
  have herrors : viewer'.errors = viewer.errors := congrArg (·.errors) hcaptures
  have hneeds : ∀ other, viewer'.Needs other ↔ viewer.Needs other ∧ other ≠ source :=
    fun other => by
      refine ⟨fun hother => ⟨⟨(huses other).2 (.inl hother.1), hother.2⟩, ?_⟩, fun hother =>
        ⟨((huses other).1 hother.1.1).resolve_right hother.2, hother.1.2⟩⟩
      rintro rfl
      exact hunused hother.1
  refine ⟨?_, fun other hother => ?_, fun other => ?_, fun other hother => ?_, herrors ▸ h.screens⟩
  · rw [hcaptures]
    exact ((h.tracks.uninstall source).forget (Function.update_self ..)).mono
      fun other => (hneeds other).2
  · obtain ⟨hother, heq⟩ := (hneeds other).1 hother
    refine (@covers_congr (viewer.releaseCapture source) viewer' other hcaptures hlost).2 ?_
    rcases h.covered other hother with hcovers | hcovers | hcovers | hcovers
    · exact .inl (by simpa [releaseCapture, heq] using hcovers)
    · exact .inr (.inl (by simpa [releaseCapture, heq] using hcovers))
    · exact .inr (.inr (.inl (Finset.mem_erase.2 ⟨heq, hcovers⟩)))
    · exact .inr (.inr (.inr hcovers))
  · rw [hcolors, h.colors, huses]
    refine ⟨fun hother => ⟨hother.1.resolve_right ?_, hother.2⟩,
      fun hother => ⟨.inl hother.1, hother.2⟩⟩
    rintro rfl
    exact hcolor hother.2
  · refine h.cameras other ?_
    rw [hpending] at hother
    by_cases heq : other = source
    · simp [heq] at hother
    · simpa [heq] using hother

theorem Follows.addColorSource (h : viewer.Follows initialSource) :
    viewer.addColorSource.Follows initialSource := by
  have huses := fun other =>
    @usesSource_addElement viewer fullCanvasLayout (.color viewer.nextColorSourceId) other
  have hneeds : ∀ other, viewer.addColorSource.Needs other ↔ viewer.Needs other := fun other => by
    refine ⟨fun hother => ⟨((huses other).1 hother.1).resolve_right ?_, hother.2⟩,
      Needs.of_uses huses other⟩
    rintro rfl
    exact hother.2 trivial
  refine ⟨h.tracks.mono fun other => (hneeds other).2, fun other hother => ?_, fun other => ?_,
    h.cameras, h.screens⟩
  · exact h.covered other ((hneeds other).1 hother)
  · refine Iff.trans ?_ (and_congr_left' (huses other)).symm
    by_cases heq : other = .color viewer.nextColorSourceId
    · simp [heq, Viewer.addColorSource, addElement, saveProject, SourceId.IsColor]
    · simpa [heq, Viewer.addColorSource, addElement, saveProject] using h.colors other

theorem Follows.deleteSelected (h : viewer.Follows initialSource) :
    viewer.deleteSelected.Follows initialSource := by
  rw [Viewer.deleteSelected]
  split
  · exact h
  · split
    · exact h
    · rename_i selected _
      split
      · exact h.keeps (.of_eq rfl rfl rfl rfl)
      · rename_i removed scene hremoved
        have huses := fun other => @Scene.usesSource_remove _ _ other _ _ hremoved
        dsimp only
        split
        · rename_i hused
          refine h.keeps ⟨rfl, rfl, fun other => Bool.eq_iff_iff.2 ?_, fun _ => rfl⟩
          refine Iff.trans ?_ (huses other).symm
          refine (or_iff_left_of_imp ?_).symm
          rintro rfl
          exact hused
        · rename_i hunused
          split
          · rename_i id hsource
            exact h.dropsColor huses hunused (by simp [hsource, SourceId.IsColor]) rfl rfl rfl
          · rename_i hcolor
            refine h.dropsCapture huses hunused (fun hisColor => ?_) rfl rfl rfl
            cases hsource : removed.source with
            | color id => exact hcolor id hsource
            | display id | window id | camera id => simp [hsource, SourceId.IsColor] at hisColor

theorem Follows.replaceSelectedCapture (h : viewer.Follows initialSource) {targetIndex : ℕ}
    {outcome : StartOutcome}
    (hfresh : viewer.StartsFresh (.replaceSelectedCapture targetIndex outcome))
    (hreplaces : viewer.ReplacesCapture (.replaceSelectedCapture targetIndex outcome)) :
    (viewer.replaceSelectedCapture targetIndex outcome).Follows initialSource := by
  rw [Viewer.replaceSelectedCapture]
  rw [StartsFresh, starting] at hfresh
  split
  · rename_i item target hselected htarget
    split
    · exact h
    · rename_i hcamera
      have hid : ∀ id, target.id ≠ .camera id := by
        intro id heq
        cases target with
        | camera id => exact hcamera id rfl
        | display _ | window _ => cases heq
      have hfresh : viewer.captures target.id = none →
          (target.id, 1) ∉ viewer.captureState.undelivered := fun hcapture => by
        rw [htarget] at hfresh
        exact hfresh _ (by simp [hcapture])
      split
      · exact h
      · rename_i element helement
        have hcolor : ¬ element.source.IsColor :=
          hreplaces rfl element (by rw [hselected]; exact helement)
        split
        · exact h
        · split
          · rename_i viewer' hensure
            obtain ⟨hnone, reported, rfl⟩ := ensureCapture_eq_false hensure
            exact h.startCapture_failed 1 reported hnone hid
          · rename_i viewer' hensure
            obtain ⟨hscene, hadded⟩ := h.ensureCapture target.not_isColor hid hfresh hensure
            -- The replaced source goes out of use after the new one has come in.
            have huses : ∀ other, (viewer'.addElement target.id insetLayout).scene.usesSource other =
                true ↔ (viewer'.scene.replaceSource item target.id).usesSource other = true ∨
                  other = element.source := fun other => by
              rw [usesSource_addElement, hscene]
              exact Scene.usesSource_replaceSource helement target.id
            dsimp only
            split
            · rename_i hused
              refine hadded.keeps (.saveProject ⟨rfl, rfl, fun other => Bool.eq_iff_iff.2 ?_,
                fun _ => rfl⟩)
              refine Iff.trans ?_ (huses other).symm
              refine (or_iff_left_of_imp ?_).symm
              rintro rfl
              exact hused
            · rename_i hunused
              exact hadded.dropsCapture huses hunused hcolor rfl rfl rfl
  · exact h

/-! ## Callbacks -/

theorem Follows.cameraStarted (h : viewer.Follows initialSource) {start : CameraStart}
    {started : Bool} (hcall : viewer.perform (.cameraStarted start started) = some viewer') :
    viewer'.Follows initialSource := by
  have hdelivered := h.tracks.deliver (List.Subset.refl _)
    (List.erase_subset : viewer.starts.erase start ⊆ viewer.starts)
  have hnew : viewer.nextCapturer ∉ viewer.openCapturers := fun hopen =>
    absurd (h.tracks.fresh _ hopen) (lt_irrefl _)
  rw [perform] at hcall
  split at hcall
  · dsimp only at hcall
    by_cases hfinish : shouldFinishPendingCapture (viewer.pendingCaptures start.source)
      start.generation (viewer.scene.usesSource start.source) = true
    · have hfinish' := hfinish
      rw [shouldFinishPendingCapture, Bool.and_eq_true, decide_eq_true_eq] at hfinish'
      obtain ⟨huses, hpending⟩ := hfinish'
      have hsome : (viewer.pendingCaptures start.source).isSome := by simp [hpending]
      obtain ⟨id, hid⟩ := h.cameras start.source hsome
      have hneeds : viewer.Needs start.source := ⟨huses, by simp [hid, SourceId.IsColor]⟩
      have hnone := (h.tracks.pending start.source hsome).2
      have hcameras : ∀ other,
          (Function.update viewer.pendingCaptures start.source none other).isSome →
            ∃ id, other = .camera id := fun other hother => by
        refine h.cameras other ?_
        by_cases heq : other = start.source
        · simp [heq] at hother
        · simpa [heq] using hother
      cases started with
      | true =>
        rw [if_pos rfl, Viewer.cameraStarted, if_pos hfinish] at hcall
        obtain rfl := Option.some.inj hcall
        -- the camera runs, so its source is captured and has not failed
        refine ⟨(hdelivered.settle hneeds ((Finset.erase_subset start.source _).trans
          (Finset.subset_insert _ _))).install hnone (Function.update_self ..) (.inr hneeds)
          fun event hevent heq => absurd (heq.trans hid) (h.screens event hevent id),
          fun other hother => ?_, h.colors, hcameras, h.screens⟩
        by_cases heq : other = start.source
        · exact .inl (by simp [heq])
        · rcases h.covered other hother with hcovers | hcovers | hcovers | hcovers
          · exact .inl (by simpa [heq] using hcovers)
          · exact .inr (.inl (by simpa [heq] using hcovers))
          · exact .inr (.inr (.inl (Finset.mem_erase.2 ⟨heq, hcovers⟩)))
          · exact .inr (.inr (.inr hcovers))
      | false =>
        rw [if_neg Bool.false_ne_true, Viewer.cameraStarted, if_pos hfinish] at hcall
        obtain rfl := Option.some.inj hcall
        -- the camera did not start, and its source is marked as failed
        refine ⟨hdelivered.settle hneeds (Finset.Subset.refl _), fun other hother => ?_, h.colors,
          hcameras, h.screens⟩
        by_cases heq : other = start.source
        · exact .inr (.inr (.inl (heq ▸ Finset.mem_insert_self _ _)))
        · rcases h.covered other hother with hcovers | hcovers | hcovers | hcovers
          · exact .inl hcovers
          · exact .inr (.inl (by simpa [heq] using hcovers))
          · exact .inr (.inr (.inl (Finset.mem_insert_of_mem hcovers)))
          · exact .inr (.inr (.inr hcovers))
    · cases started with
      | true =>
        -- nobody waits for the camera any more, so it is closed again
        rw [if_pos rfl, Viewer.cameraStarted, if_neg hfinish] at hcall
        obtain rfl := Option.some.inj hcall
        refine ⟨?_, h.covered, h.colors, h.cameras, h.screens⟩
        rw [captureState]
        dsimp only
        rw [Finset.erase_insert hnew]
        exact { hdelivered with
          fresh := fun capturer hcapturer => Nat.lt_succ_of_lt (h.tracks.fresh capturer hcapturer) }
      | false =>
        rw [if_neg Bool.false_ne_true, Viewer.cameraStarted, if_neg hfinish] at hcall
        obtain rfl := Option.some.inj hcall
        exact ⟨hdelivered, h.covered, h.colors, h.cameras, h.screens⟩
  · cases hcall

theorem Follows.captureFailed (h : viewer.Follows initialSource) {event : ErrorEvent}
    {outcome : StartOutcome} (hfresh : viewer.StartsFresh (.captureFailed event outcome))
    (hcall : viewer.perform (.captureFailed event outcome) = some viewer') :
    Viewer.Follows { viewer' with
      lost := if (viewer.captures event.source).isSome then insert event.source viewer'.lost
        else viewer'.lost } initialSource := by
  have hdelivered := h.tracks.deliver
    (List.erase_subset : viewer.errors.erase event ⊆ viewer.errors)
    (List.Subset.refl viewer.starts)
  have hscreens : ∀ other ∈ viewer.errors.erase event, ∀ id, other.source ≠ .camera id :=
    fun other hother => h.screens other (List.mem_of_mem_erase hother)
  rw [perform] at hcall
  split at hcall
  · rename_i hevent
    obtain rfl := Option.some.inj hcall
    rw [Viewer.captureFailed]
    dsimp only
    cases hcaptures : viewer.captures event.source with
    | none => exact ⟨hdelivered, h.covered, h.colors, h.cameras, hscreens⟩
    | some resource =>
      dsimp only
      split
      · rename_i hrestart
        rw [shouldRestartCapture, Bool.and_eq_true] at hrestart
        have hpending : viewer.pendingCaptures event.source = none := by
          by_contra hsome
          have := (h.tracks.pending event.source (Option.isSome_iff_ne_none.2 hsome)).2
          exact absurd (hcaptures.symm.trans this) (by simp)
        have hused := h.tracks.used event.source (Option.isSome_of_eq_some hcaptures)
        have hstopped := hdelivered.uninstall event.source
        simp only [captureState, hcaptures] at hstopped
        have hcovered : ∀ captures : SourceId → Option CaptureResource,
            (∀ other, other ≠ event.source → captures other = viewer.captures other) →
              ∀ other, viewer.Needs other → (captures other).isSome ∨
                (viewer.pendingCaptures other).isSome ∨ other ∈ viewer.failedCaptures ∨
                other ∈ insert event.source viewer.lost := fun captures hsame other hother => by
          by_cases heq : other = event.source
          · exact .inr (.inr (.inr (heq ▸ Finset.mem_insert_self _ _)))
          · rw [hsame other heq]
            exact (h.covered other hother).imp_right
              (.imp_right (.imp_right Finset.mem_insert_of_mem))
        have hgone : Viewer.Follows
            { viewer with
              errors := viewer.errors.erase event
              -- the failed capture is stopped before a new one starts
              captures := Function.update viewer.captures event.source none
              openCapturers := viewer.openCapturers.erase resource.capturer
              lost := insert event.source viewer.lost } initialSource :=
          ⟨hstopped, hcovered _ fun other heq => by simp [heq], h.colors, h.cameras, hscreens⟩
        split
        · cases outcome with
          | started =>
            have hnew := CaptureState.fresh_of_not_mem (hfresh _ rfl)
            exact ⟨hstopped.install (Function.update_self ..) hpending hused hnew.1,
              hcovered _ fun other heq => by simp [startCapture, heq], h.colors, h.cameras, hscreens⟩
          | failed reported =>
            exact hgone.startCapture_failed _ reported (Function.update_self ..)
              (h.screens event hevent)
        · exact hgone
      · refine ⟨hdelivered, fun other hother => ?_, h.colors, h.cameras, hscreens⟩
        exact (h.covered other hother).imp_right (.imp_right (.imp_right
          (Finset.mem_insert_of_mem)))
  · cases hcall

theorem Follows.captureReports (h : viewer.Follows initialSource)
    (hcall : viewer.perform (.captureReports source) = some viewer') :
    viewer'.Follows initialSource := by
  have hreport : ∀ resource, viewer.captures source = some resource →
      (∀ id, source ≠ .camera id) → Viewer.Follows
        { viewer with
          errors := viewer.errors ++ [⟨source, resource.generation, resource.capturer⟩] }
        initialSource := by
    intro resource hresource hsource
    refine ⟨h.tracks.report ?_ (Nat.le_refl viewer.nextCapturer), h.covered, h.colors, h.cameras, ?_⟩
    · intro other hother
      exact Option.some.inj (hother.symm.trans hresource) ▸ rfl
    · intro event hevent id
      rcases List.mem_append.1 hevent with hevent | hevent
      · exact h.screens event hevent id
      · rw [List.mem_singleton.1 hevent]
        exact hsource id
  cases source with
  | display id =>
    cases hresource : viewer.captures (.display id) <;> simp [perform, hresource] at hcall
    exact hcall ▸ hreport _ hresource nofun
  | window id =>
    cases hresource : viewer.captures (.window id) <;> simp [perform, hresource] at hcall
    exact hcall ▸ hreport _ hresource nofun
  | camera id | color id => simp [perform] at hcall

/-! ## Runs -/

/-- What is noted of a call keeps everything following the scene. -/
theorem Follows.noted {lost : Finset SourceId}
    (h : Viewer.Follows { viewer with lost } initialSource) :
    Viewer.Follows
      { viewer with
        starts := viewer.starts.map fun start =>
          { start with deleted := start.deleted || !viewer.scene.usesSource start.source }
        lost := lost.filter fun source => (viewer.captures source).isNone } initialSource := by
  refine ⟨{ h.tracks with finishing := fun start hstart hpending => ?_ }, fun other hother => ?_,
    h.colors, h.cameras, h.screens⟩
  · obtain ⟨before, hbefore, rfl⟩ := List.mem_map.1 hstart
    have hused := (h.tracks.pending _ (Option.isSome_of_eq_some hpending)).1.1
    have hdeleted := h.tracks.finishing before hbefore hpending
    dsimp only at hused hdeleted ⊢
    rw [hdeleted, hused]
    rfl
  · rcases h.covered other hother with hcovers | hcovers | hcovers | hcovers
    · exact .inl hcovers
    · exact .inr (.inl hcovers)
    · exact .inr (.inr (.inl hcovers))
    · cases hcapture : viewer.captures other with
      | some resource => exact .inl (Option.isSome_of_eq_some hcapture)
      | none => exact .inr (.inr (.inr (Finset.mem_filter.2 ⟨hcovers, by simp [hcapture]⟩)))

/-- A call that starts no capture with a generation still in use, and replaces captures only. -/
def KeepsGenerations (viewer : Viewer) (call : ViewerCall) : Prop :=
  viewer.StartsFresh call ∧ viewer.ReplacesCapture call

theorem Follows.after (h : viewer.Follows initialSource) {call : ViewerCall}
    (hok : viewer.KeepsGenerations call) (hcall : viewer.after call = some viewer') :
    viewer'.Follows initialSource := by
  obtain ⟨performed, hperform, rfl⟩ := Option.map_eq_some_iff.1 hcall
  have hquiet : ∀ next, viewer.perform call = some next → KeepsCaptures viewer next →
      performed.Follows initialSource := fun next hnext hkeeps => by
    obtain rfl := Option.some.inj (hperform.symm.trans hnext)
    exact h.keeps hkeeps
  cases call with
  -- most calls keep the captures, sources and colors as they are
  | captureFailed event outcome => exact (h.captureFailed hok.1 hperform).noted
  | selectSceneItem item => exact (hquiet _ rfl (.of_eq rfl rfl rfl rfl)).noted
  | startSceneDrag item => exact (hquiet _ rfl (.of_eq rfl rfl rfl rfl)).noted
  | dragSceneItemOver dragged destination =>
    exact (hquiet _ rfl (.dragSceneItemOver dragged destination)).noted
  | dropSceneItem item => exact (hquiet _ rfl (.of_eq rfl rfl rfl rfl)).noted
  | deleteSelected =>
    obtain rfl := Option.some.inj hperform
    exact h.deleteSelected.noted
  | moveSelected delta => exact (hquiet _ rfl (.moveSelected delta)).noted
  | focusTransformInput adjustment focused => exact (hquiet _ rfl (.of_eq rfl rfl rfl rfl)).noted
  | focusStreamUrl focused => exact (hquiet _ rfl (.of_eq rfl rfl rfl rfl)).noted
  | setTransformValue adjustment value =>
    exact (hquiet _ rfl (.setTransformValue adjustment value)).noted
  | setSelectedColor color => exact (hquiet _ rfl (.changeSelectedColor _)).noted
  | beginDrag viewport position => exact (hquiet _ rfl (.beginDrag viewport position)).noted
  | dragInset viewport position => exact (hquiet _ rfl (.dragInset viewport position)).noted
  | endDrag => exact (hquiet _ rfl .endDrag).noted
  | addCaptureTarget targetIndex outcome =>
    obtain rfl := Option.some.inj hperform
    exact (h.addCaptureTarget hok.1).noted
  | replaceSelectedCapture targetIndex outcome =>
    obtain rfl := Option.some.inj hperform
    exact (h.replaceSelectedCapture hok.1 hok.2).noted
  | addColorSource =>
    obtain rfl := Option.some.inj hperform
    exact h.addColorSource.noted
  | cameraStarted start started => exact (h.cameraStarted hperform).noted
  | captureReports source => exact (h.captureReports hperform).noted
  | renderReady => exact (hquiet _ rfl (.of_eq rfl rfl rfl rfl)).noted
  | compose rendered =>
    simp only [perform] at hperform
    split at hperform
    · split at hperform
      · obtain rfl := Option.some.inj hperform
        refine Follows.noted (h.keeps ?_)
        exact .of_eq rfl rfl rfl rfl
      · cases hperform
    · cases hperform
  | compositionReady =>
    obtain ⟨rendered, -, rfl⟩ := Option.map_eq_some_iff.1 hperform
    refine Follows.noted (h.keeps ?_)
    exact .of_eq rfl rfl rfl rfl

/-- What launching leaves alone while it starts captures. -/
structure Launching (viewer : Viewer) (initialSource : SourceId) (restored : Restored) : Prop where
  scene : viewer.scene = restored.scene
  colors : viewer.colors = restored.colors
  pending : viewer.pendingCaptures = fun _ => none
  errors : viewer.errors = []
  tracks : viewer.captureState.Tracks initialSource viewer.Needs

theorem Launching.launchCaptures {restored : Restored} (h : viewer.Launching initialSource restored)
    (starts : SourceId → Bool) (targets : List CaptureTarget) :
    (viewer.launchCaptures initialSource starts targets).Launching initialSource restored := by
  induction targets generalizing viewer with
  | nil => exact h
  | cons target targets ih =>
    rw [Viewer.launchCaptures]
    dsimp only
    split
    · exact ih h
    · rename_i hstart
      simp only [Bool.or_eq_true, Bool.and_eq_true, Bool.not_eq_true', not_or, not_and,
        Bool.not_eq_false, decide_eq_true_eq, Bool.not_eq_true, Option.isSome_eq_false_iff,
        Option.isNone_iff_eq_none] at hstart
      refine ih ⟨h.scene, h.colors, h.pending, h.errors, ?_⟩
      refine h.tracks.install hstart.1.1 (congrFun h.pending _) ?_ fun event hevent => ?_
      · by_cases heq : target.id = initialSource
        · exact .inl heq
        · exact .inr ⟨hstart.1.2 heq, target.not_isColor⟩
      · have herrors : viewer.captureState.errors = [] := h.errors
        rw [herrors] at hevent
        exact absurd hevent List.not_mem_nil

theorem launchScene_colors (initialSource : SourceId) (hinitial : ¬ initialSource.IsColor)
    (loaded : Option Project) (source : SourceId) :
    ((launchScene initialSource loaded).colors source).isSome = true ↔
      (launchScene initialSource loaded).scene.usesSource source = true ∧ source.IsColor := by
  cases loaded with
  | some project => exact restoreProject_colors project.elements project.selectedItem source
  | none =>
    refine ⟨fun h => absurd h Bool.false_ne_true, fun h => absurd h.2 ?_⟩
    rcases (Scene.usesSource_add _ _).1 h.1 with hsource | rfl
    · rcases (Scene.usesSource_add _ _).1 hsource with hsource | rfl
      · exact absurd hsource Bool.false_ne_true
      · exact hinitial
    · exact hinitial

theorem follows_launch (targets : List CaptureTarget) (target : CaptureTarget)
    (starts : SourceId → Bool) (loaded : Option Project) :
    (launch targets target starts loaded).Follows target.id := by
  have hbefore : (beforeCaptures targets (launchScene target.id loaded)).Launching target.id
      (launchScene target.id loaded) :=
    { scene := rfl
      colors := rfl
      pending := rfl
      errors := rfl
      tracks :=
        { used := fun _ h => absurd h Bool.false_ne_true
          pending := fun _ h => absurd h Bool.false_ne_true
          failed := fun _ h => absurd h (Finset.notMem_empty _)
          running := fun _ => ⟨fun h => absurd h (Finset.notMem_empty _), fun ⟨_, _, h, _⟩ => nomatch h⟩
          distinct := fun _ _ _ _ h => nomatch h
          fresh := fun _ h => absurd h (Finset.notMem_empty _)
          reported := fun _ h => absurd h List.not_mem_nil
          finishing := fun _ h => absurd h List.not_mem_nil } }
  have hlaunched := hbefore.launchCaptures starts (target :: targets)
  rw [launch]
  generalize Viewer.launchCaptures target.id starts _ (target :: targets) = launched at hlaunched ⊢
  obtain ⟨hscene, hcolors, hpending, herrors, htracks⟩ := hlaunched
  refine ⟨htracks, fun other hother => ?_, fun other => ?_, fun other hother => ?_,
    fun event hevent => ?_⟩
  · by_cases hcapture : (launched.captures other).isSome
    · exact .inl hcapture
    · refine .inr (.inr (.inr ?_))
      obtain ⟨element, helement, rfl⟩ := Scene.usesSource_iff.1 hother.1
      have hmem : element.source ∈ launched.scene.elements.map SceneElement.source :=
        List.mem_map_of_mem helement
      simpa [missingCaptures, hother.2, Option.not_isSome_iff_eq_none.1 hcapture] using hmem
  · have hcolor := launchScene_colors target.id target.not_isColor loaded other
    rw [← hscene, ← hcolors] at hcolor
    exact hcolor
  · rw [show launched.pendingCaptures = fun _ => none from hpending] at hother
    exact absurd hother Bool.false_ne_true
  · rw [show launched.errors = [] from herrors] at hevent
    exact absurd hevent List.not_mem_nil

end Viewer

/-! ## The captures of every run -/

/-- Neither the captures nor what is starting or has failed changes. -/
def Viewer.SameCaptures (viewer viewer' : Viewer) : Prop :=
  viewer'.captures = viewer.captures ∧ viewer'.pendingCaptures = viewer.pendingCaptures ∧
    viewer'.failedCaptures = viewer.failedCaptures ∧ viewer'.openCapturers = viewer.openCapturers

/-- Entries are for sources in use, apart from the initial target, and each source in use has one
unless its capture failed; the color table holds the colors in use; the capturers running are those
of the entries; and callbacks of captures stopped or replaced change nothing. -/
structure Viewer.CapturesFollowScene (viewer : Viewer) (initialSource : SourceId) : Prop where
  running : ∀ source, (viewer.captures source).isSome →
    source = initialSource ∨ viewer.scene.usesSource source = true
  pending : ∀ source, (viewer.pendingCaptures source).isSome →
    viewer.scene.usesSource source = true
  failed : ∀ source ∈ viewer.failedCaptures, viewer.scene.usesSource source = true
  captured : ∀ source, viewer.scene.usesSource source = true → ¬ source.IsColor →
    (viewer.captures source).isSome ∨ (viewer.pendingCaptures source).isSome ∨
      source ∈ viewer.failedCaptures ∨ source ∈ viewer.lost
  colors : ∀ source, (viewer.colors source).isSome ↔
    viewer.scene.usesSource source = true ∧ source.IsColor
  capturers : ∀ capturer, capturer ∈ viewer.openCapturers ↔
    ∃ source resource, viewer.captures source = some resource ∧ resource.capturer = capturer
  staleError : ∀ event outcome viewer' resource,
    viewer.after (.captureFailed event outcome) = some viewer' →
      viewer.captures event.source = some resource → resource.capturer ≠ event.capturer →
        viewer.SameCaptures viewer'
  staleCamera : ∀ start started viewer',
    viewer.after (.cameraStarted start started) = some viewer' → start.deleted = true →
      viewer.SameCaptures viewer'

namespace Viewer

variable {viewer : Viewer} {initialSource : SourceId}

/-- An error reported by another capturer than the entry's is ignored. -/
theorem Follows.staleError (h : viewer.Follows initialSource) {event : ErrorEvent}
    {outcome : StartOutcome} {viewer' : Viewer} {resource : CaptureResource}
    (hcall : viewer.after (.captureFailed event outcome) = some viewer')
    (hresource : viewer.captures event.source = some resource)
    (hstale : resource.capturer ≠ event.capturer) : viewer.SameCaptures viewer' := by
  obtain ⟨performed, hperform, rfl⟩ := Option.map_eq_some_iff.1 hcall
  rw [perform] at hperform
  split at hperform
  · rename_i hevent
    obtain rfl := Option.some.inj hperform
    have hgeneration : resource.generation ≠ event.generation := fun heq =>
      hstale (h.tracks.reported event hevent resource hresource heq)
    have hignored : shouldRestartCapture (viewer.scene.usesSource event.source)
        (some resource.generation) event.generation = false := by
      simp [shouldRestartCapture, hgeneration]
    rw [Viewer.captureFailed]
    simp only [hresource, hignored]
    exact ⟨rfl, rfl, rfl, rfl⟩
  · cases hperform

/-- A camera that started after its source was deleted is stopped. -/
theorem Follows.staleCamera (h : viewer.Follows initialSource) {start : CameraStart}
    {started : Bool} {viewer' : Viewer}
    (hcall : viewer.after (.cameraStarted start started) = some viewer')
    (hdeleted : start.deleted = true) : viewer.SameCaptures viewer' := by
  obtain ⟨performed, hperform, rfl⟩ := Option.map_eq_some_iff.1 hcall
  rw [perform] at hperform
  split at hperform
  · rename_i hstart
    have hignored : shouldFinishPendingCapture (viewer.pendingCaptures start.source)
        start.generation (viewer.scene.usesSource start.source) = false := by
      have hpending : viewer.pendingCaptures start.source ≠ some start.generation := fun heq =>
        absurd (h.tracks.finishing start hstart heq) (by simp [hdeleted])
      simp [shouldFinishPendingCapture, hpending]
    cases started with
    | true =>
      obtain rfl := Option.some.inj hperform
      have hnew : viewer.nextCapturer ∉ viewer.openCapturers := fun hopen =>
        absurd (h.tracks.fresh _ hopen) (lt_irrefl _)
      rw [Viewer.cameraStarted]
      simp only [hignored]
      exact ⟨rfl, rfl, rfl, Finset.erase_insert hnew⟩
    | false =>
      obtain rfl := Option.some.inj hperform
      rw [Viewer.cameraStarted]
      simp only [hignored]
      exact ⟨rfl, rfl, rfl, rfl⟩
  · cases hperform

theorem Follows.capturesFollowScene (h : viewer.Follows initialSource) :
    viewer.CapturesFollowScene initialSource where
  running source hsource := (h.tracks.used source hsource).imp_right And.left
  pending source hsource := (h.tracks.pending source hsource).1.1
  failed source hsource := (h.tracks.failed source hsource).1
  captured source huses hcolor := h.covered source ⟨huses, hcolor⟩
  colors := h.colors
  capturers := h.tracks.running
  staleError _ _ _ _ := h.staleError
  staleCamera _ _ _ := h.staleCamera

instance (viewer : Viewer) (call : ViewerCall) : Decidable (viewer.KeepsGenerations call) :=
  inferInstanceAs (Decidable ((∀ capture ∈ viewer.starting call, _) ∧
    (_ → ∀ element ∈ viewer.selectedItem.bind viewer.scene.element, _)))

/-- The viewer after calls, where all of them can happen and are allowed. -/
def afterAll (ok : Viewer → ViewerCall → Bool) (viewer : Viewer) (calls : List ViewerCall) :
    Option Viewer :=
  calls.foldlM (fun viewer call => if ok viewer call then viewer.after call else none) viewer

theorem run_afterAll {ok : Viewer → ViewerCall → Bool} {allowed : Viewer → ViewerCall → Prop}
    (hok : ∀ viewer call, ok viewer call = true → allowed viewer call) {calls : List ViewerCall}
    {viewer viewer' : Viewer} (h : viewer.afterAll ok calls = some viewer') :
    (viewerSystem.restrict allowed).Run viewer calls viewer' := by
  induction calls generalizing viewer with
  | nil =>
    obtain rfl := Option.some.inj h
    exact .nil viewer
  | cons call calls ih =>
    rw [afterAll, List.foldlM_cons] at h
    obtain ⟨next, hnext, hrest⟩ := Option.bind_eq_some_iff.1 h
    split at hnext
    · rename_i hallowed
      exact .cons ⟨hok viewer call hallowed, hnext⟩ (ih hrest)
    · cases hnext

end Viewer

/-- In every run that starts captures with generations of their own the captures follow the
scene. -/
theorem captures_follow_scene {targets : List CaptureTarget} {target : CaptureTarget}
    {starts : SourceId → Bool} {loaded : Option Project} {calls : List ViewerCall}
    {viewer : Viewer} (hrun : (viewerSystem.restrict Viewer.KeepsGenerations).Run
      (Viewer.launch targets target starts loaded) calls viewer) :
    viewer.CapturesFollowScene target.id := by
  have hstep : ∀ viewer call viewer', viewer.Follows target.id →
      (viewerSystem.restrict Viewer.KeepsGenerations).step viewer call viewer' →
        viewer'.Follows target.id := fun _ _ _ h hcall => h.after hcall.1 hcall.2
  exact (hrun.invariant hstep
    (Viewer.follows_launch targets target starts loaded)).capturesFollowScene

/-! ## A second display and a camera -/

/-- The studio on the first of two displays, with a camera. -/
def twoDisplays : Viewer :=
  .launch [.display 1, .display 2, .camera 7] (.display 1) (fun _ => true) none

/-- The second display fails and is captured anew, and a camera is deleted and added again while it
is starting. -/
def failAndReadd : List ViewerCall :=
  [.addCaptureTarget 1 .started, .addCaptureTarget 2 .started, .captureReports (.display 2),
    .captureFailed ⟨.display 2, 1, 1⟩ .started, .deleteSelected, .addCaptureTarget 2 .started,
    .cameraStarted ⟨.camera 7, 2, true⟩ true]

theorem captures_follow_scene_failAndReadd :
    ∃ viewer, twoDisplays.afterAll (fun viewer call => decide (viewer.KeepsGenerations call))
      failAndReadd = some viewer ∧ viewer.CapturesFollowScene (.display 1) := by
  have hsome : (twoDisplays.afterAll (fun viewer call => decide (viewer.KeepsGenerations call))
    failAndReadd).isSome := by decide +kernel
  obtain ⟨viewer, hviewer⟩ := Option.isSome_iff_exists.1 hsome
  exact ⟨viewer, hviewer, captures_follow_scene
    (Viewer.run_afterAll (fun _ _ h => of_decide_eq_true h) hviewer)⟩

/-- The second display is added, fails, is deleted and added again before its error arrives. -/
def readdBeforeError : List ViewerCall :=
  [.addCaptureTarget 1 .started, .captureReports (.display 2), .deleteSelected,
    .addCaptureTarget 1 .started]

/-- The error of the first capture of the display stops the second one. -/
theorem readded_capture_stopped :
    ¬ ∀ targets target starts loaded calls viewer, target ∈ targets → starts target.id = true →
      viewerSystem.Run (Viewer.launch targets target starts loaded) calls viewer →
        viewer.CapturesFollowScene target.id := by
  intro h
  have hreadded : (twoDisplays.afterAll (fun _ _ => true) readdBeforeError).map (fun viewer =>
      ((viewer.captures (.display 2)).map CaptureResource.capturer,
        (viewer.after (.captureFailed ⟨.display 2, 1, 1⟩ .started)).map fun viewer =>
          (viewer.captures (.display 2)).map CaptureResource.capturer)) =
      some (some 2, some (some 3)) := by decide +kernel
  obtain ⟨viewer, hviewer, hreadded⟩ := Option.map_eq_some_iff.1 hreadded
  obtain ⟨hcapture, hrestarted⟩ := Prod.mk.inj hreadded
  obtain ⟨resource, hresource, hcapturer⟩ := Option.map_eq_some_iff.1 hcapture
  obtain ⟨restarted, hafter, hrestarted⟩ := Option.map_eq_some_iff.1 hrestarted
  have hfollows := h _ (.display 1) _ _ _ viewer List.mem_cons_self rfl
    (Viewer.run_afterAll (fun _ _ _ => trivial) hviewer).of_restrict
  have hsame := (hfollows.staleError _ _ restarted resource hafter hresource
    fun heq => absurd (hcapturer.symm.trans heq) (by decide)).1
  rw [hsame, hcapture] at hrestarted
  exact absurd hrestarted (by decide)

end Blip.Studio
