import Blip.Capture.OutputRender

/-!
# What the preview worker renders

Whatever the order of its requests and of the images that are loaded beside it, the worker answers a
request as if it kept nothing: with its content rendered for the request, and with the wallpaper that
the request names. What an export writes for a time is what the preview of that time shows.
-/

namespace Blip.Capture

open Compositor (PixelBuffer)

/-! ## The wallpapers -/

namespace Wallpapers

variable {Frame : Type} {load : ℕ → Option Frame} {count : ℕ} {started : Bool}
  {wallpapers wallpapers' : Wallpapers Frame}

/-- An image is decoded as what it is loaded as. -/
def Loads (load : ℕ → Option Frame) (wallpapers : Wallpapers Frame) : WallpaperStep Frame → Prop
  | .decode frame => ∀ index, wallpapers.worker.phase = .decoding index → frame = load index
  | _ => True

/-- What was loaded is what its index is loaded as; what a request is composed with is there. -/
structure Loaded (load : ℕ → Option Frame) (started : Bool) (wallpapers : Wallpapers Frame) : Prop where
  frames : ∀ (index : ℕ) (frame : Frame), wallpapers.backgroundFrames[index]? = some (some frame) →
    load index = some frame
  failed : ∀ index : ℕ, wallpapers.failedBackgrounds[index]? = some true → load index = none
  results : ∀ result ∈ wallpapers.wallpaperResults, result.2 = load result.1
  unstarted : started = false → wallpapers.worker.phase = .exited ∧ wallpapers.wallpaperResults = [] ∧
    ∀ (index : ℕ) (frame : Frame), wallpapers.backgroundFrames[index]? ≠ some (some frame)
  ready : ∀ request,
    wallpapers.preview = .rendering request false ∨ wallpapers.preview = .composing request →
    request.backgroundType = .image →
    wallpapers.missing request.backgroundPreset = false ∨ started = false

theorem getElem?_set_cases {α : Type} {xs : List α} {place index : ℕ} {new found : α}
    (h : (xs.set place new)[index]? = some found) :
    place = index ∧ new = found ∨ xs[index]? = some found := by
  rw [List.getElem?_set] at h
  split at h
  · rename_i heq
    split at h
    · exact .inl ⟨heq, Option.some.inj h⟩
    · cases h
  · exact .inr h

theorem Loaded.store {result : ℕ × Option Frame} {results : List (ℕ × Option Frame)}
    (loaded : wallpapers.Loaded load started)
    (hresults : wallpapers.wallpaperResults = result :: results)
    (hpreview : ∀ request, wallpapers.preview ≠ .rendering request false ∧
      wallpapers.preview ≠ .composing request) :
    Loaded load started { wallpapers.store result with wallpaperResults := results } where
  frames index frame hframe := by
    rcases getElem?_set_cases hframe with ⟨rfl, hresult⟩ | hold
    · rw [← loaded.results result (hresults ▸ List.mem_cons_self), hresult]
    · exact loaded.frames index frame hold
  failed index hfailed := by
    rcases getElem?_set_cases hfailed with ⟨rfl, hresult⟩ | hold
    · rw [← loaded.results result (hresults ▸ List.mem_cons_self), ← Option.isNone_iff_eq_none, hresult]
    · exact loaded.failed index hold
  results other hother := loaded.results other (hresults ▸ List.mem_cons_of_mem _ hother)
  unstarted hstarted := by
    rw [(loaded.unstarted hstarted).2.1] at hresults
    cases hresults
  ready request hrequest := by
    rcases hrequest with h | h
    · exact ((hpreview request).1 h).elim
    · exact ((hpreview request).2 h).elim

/-- The preview goes on to where it composes nothing yet. -/
theorem Loaded.goOn {preview : PreviewPhase} (loaded : wallpapers.Loaded load started)
    (hpreview : ∀ request, preview ≠ .rendering request false ∧ preview ≠ .composing request) :
    Loaded load started { wallpapers with preview } :=
  { loaded with
    ready := fun request hrequest => by
      rcases hrequest with h | h
      · exact ((hpreview request).1 h).elim
      · exact ((hpreview request).2 h).elim }

theorem Loaded.decode {index : ℕ} (loaded : wallpapers.Loaded load started)
    (hphase : wallpapers.worker.phase = .decoding index) :
    (wallpapers.decode index (load index)).Loaded load started := by
  have hstarted : started ≠ false := fun hstarted =>
    nomatch hphase.symm.trans (loaded.unstarted hstarted).1
  unfold Wallpapers.decode
  split
  · exact { loaded with unstarted := fun h => (hstarted h).elim }
  · refine { loaded with results := fun result hresult => ?_, unstarted := fun h => (hstarted h).elim }
    rcases List.mem_append.1 hresult with hresult | hresult
    · exact loaded.results result hresult
    · rw [List.mem_singleton.1 hresult]

theorem Loaded.choose (loaded : wallpapers.Loaded load started)
    (hphase : wallpapers.worker.phase = .choosing) : wallpapers.choose.Loaded load started := by
  have hstarted : started ≠ false := fun hstarted =>
    nomatch hphase.symm.trans (loaded.unstarted hstarted).1
  unfold Wallpapers.choose
  split
  · exact { loaded with unstarted := fun h => (hstarted h).elim }
  · dsimp only
    split
    · exact { loaded with unstarted := fun h => (hstarted h).elim }
    · exact { loaded with unstarted := fun h => (hstarted h).elim }

theorem Loaded.step {label : WallpaperStep Frame} (loaded : wallpapers.Loaded load started)
    (hinv : wallpapers.Inv count started) (hloads : wallpapers.Loads load label)
    (hstep : wallpapers.step label = some wallpapers') : wallpapers'.Loaded load started := by
  have hspec := step_spec hstep
  cases label with
  | choose =>
    obtain ⟨hphase, rfl⟩ := hspec
    exact loaded.choose hphase
  | decode frame =>
    obtain ⟨index, hphase, rfl⟩ := hspec
    rw [hloads index hphase]
    exact loaded.decode hphase
  | request request =>
    obtain ⟨-, rfl⟩ := hspec
    exact loaded.goOn fun _ => ⟨nofun, nofun⟩
  | drain =>
    obtain ⟨request, hpreview, rfl⟩ := hspec
    rcases wallpapers.drain_cases request with ⟨result, results, hresults, heq⟩ | heq
    · rw [heq]
      exact loaded.store hresults fun _ => by simp [hpreview]
    · rw [heq]
      exact loaded.goOn fun _ => ⟨nofun, nofun⟩
  | ask =>
    obtain ⟨request, hpreview, rfl⟩ := hspec
    unfold Wallpapers.ask
    split
    · exact { loaded with ready := by rintro _ (h | h) <;> cases h }
    · rename_i hpresent
      refine { loaded with ready := ?_ }
      rintro other (h | h) himage
      · obtain rfl := (PreviewPhase.rendering.inj h).1
        exact .inl (Bool.eq_false_of_not_eq_true fun hmissing => hpresent ⟨himage, hmissing⟩)
      · cases h
  | content rendered =>
    obtain ⟨request, wallpaperPending, hpreview, rfl⟩ := hspec
    cases rendered with
    | false => exact loaded.goOn fun _ => ⟨nofun, nofun⟩
    | true =>
      cases wallpaperPending with
      | true => exact loaded.goOn fun _ => ⟨nofun, nofun⟩
      | false =>
        refine { loaded with ready := ?_ }
        rintro other (h | h) himage
        · cases h
        · obtain rfl := PreviewPhase.composing.inj h
          exact loaded.ready request (.inl hpreview) himage
  | receive =>
    obtain ⟨request, hpreview, hreceive⟩ := hspec
    rcases receive_cases hreceive with ⟨result, results, hresults, rfl⟩ | ⟨-, rfl⟩
    · exact loaded.store hresults fun _ => by simp [hpreview]
    · refine { loaded with ready := ?_ }
      rintro other (h | h) -
      · cases h
      · obtain rfl := PreviewPhase.composing.inj h
        have hwaited := waiting_step hinv hpreview hstep
        exact (hwaited.resolve_left fun h => nomatch h.1).2
  | compose sent =>
    obtain ⟨request, hpreview, rfl⟩ := hspec
    cases sent <;> exact loaded.goOn fun _ => ⟨nofun, nofun⟩
  | close =>
    obtain ⟨hpreview, rfl⟩ := hspec
    exact loaded.goOn fun _ => ⟨nofun, nofun⟩

theorem loaded_initial (load : ℕ → Option Frame) (count : ℕ) (started : Bool) :
    (initial Frame count started).Loaded load started where
  frames index frame hframe := by simp [initial, List.getElem?_replicate] at hframe
  failed index hfailed := by simp [initial, List.getElem?_replicate] at hfailed
  results := nofun
  unstarted hstarted := ⟨by simp [initial, hstarted], rfl, fun index frame hframe => by
    simp [initial, List.getElem?_replicate] at hframe⟩
  ready := by rintro _ (h | h) <;> cases h

/-- What a request is composed with is what its image is loaded as. -/
theorem Loaded.composed (loaded : wallpapers.Loaded load started) (hinv : wallpapers.Inv count started)
    {request : WallpaperRequest} (hpreview : wallpapers.preview = .composing request)
    (himage : request.backgroundType = .image) :
    (wallpapers.backgroundFrames[request.backgroundPreset]?).join =
      if started = true ∧ request.backgroundPreset < count then load request.backgroundPreset
      else none := by
  have hmissing := loaded.ready request (.inr hpreview) himage
  by_cases hstarted : started = true
  · rw [hstarted] at hmissing
    have hstored := hmissing.resolve_right nofun
    by_cases hindex : request.backgroundPreset < count
    · rw [if_pos ⟨hstarted, hindex⟩]
      have hframes : request.backgroundPreset < wallpapers.backgroundFrames.length :=
        hinv.frames.symm ▸ hindex
      have hfailed : request.backgroundPreset < wallpapers.failedBackgrounds.length :=
        hinv.failed.symm ▸ hindex
      cases hframe : wallpapers.backgroundFrames[request.backgroundPreset] with
      | some frame =>
        rw [List.getElem?_eq_getElem hframes, hframe, loaded.frames _ frame
          (by rw [List.getElem?_eq_getElem hframes, hframe])]
        rfl
      | none =>
        rw [List.getElem?_eq_getElem hframes, hframe]
        -- an image that is not there and not missing has failed
        cases hfail : wallpapers.failedBackgrounds[request.backgroundPreset] with
        | true =>
          rw [loaded.failed _ (by rw [List.getElem?_eq_getElem hfailed, hfail])]
          rfl
        | false =>
          rw [(missing_iff hinv.frames hinv.failed).2 ⟨by rw [List.getElem?_eq_getElem hframes, hframe],
            by rw [List.getElem?_eq_getElem hfailed, hfail]⟩] at hstored
          cases hstored
    · rw [if_neg fun h => hindex h.2, List.getElem?_eq_none (hinv.frames.symm ▸ Nat.not_lt.1 hindex)]
      rfl
  · rw [if_neg fun h => hstarted h.1]
    have hnone := (loaded.unstarted (Bool.eq_false_of_not_eq_true hstarted)).2.2 request.backgroundPreset
    cases hframe : wallpapers.backgroundFrames[request.backgroundPreset]? with
    | none => rfl
    | some slot =>
      cases slot with
      | none => rfl
      | some frame => exact (hnone frame hframe).elim


/-- The request that the preview works on. -/
def request : PreviewPhase → Option WallpaperRequest
  | .draining request | .asking request | .rendering request _ | .waiting request | .composing request =>
    some request
  | .idle | .exited => none

/-- The content of the request is there. -/
def HasContent : PreviewPhase → Prop
  | .waiting _ | .composing _ => True
  | _ => False

/-- What runs beside the rendering leaves the preview at its request. -/
theorem step_request {label : WallpaperStep Frame} (hstep : wallpapers.step label = some wallpapers')
    (hlabel : label = .choose ∨ (∃ frame, label = .decode frame) ∨ label = .drain ∨ label = .ask ∨
      label = .receive) :
    request wallpapers'.preview = request wallpapers.preview ∧
      (HasContent wallpapers'.preview → HasContent wallpapers.preview) := by
  have hspec := step_spec hstep
  rcases hlabel with rfl | ⟨frame, rfl⟩ | rfl | rfl | rfl
  · obtain ⟨-, rfl⟩ := hspec
    unfold Wallpapers.choose
    split
    · exact ⟨rfl, id⟩
    · dsimp only
      split <;> exact ⟨rfl, id⟩
  · obtain ⟨index, -, rfl⟩ := hspec
    unfold Wallpapers.decode
    split <;> exact ⟨rfl, id⟩
  · obtain ⟨other, hpreview, rfl⟩ := hspec
    rcases wallpapers.drain_cases other with ⟨result, results, -, heq⟩ | heq
    · rw [heq]
      exact ⟨rfl, id⟩
    · rw [heq, hpreview]
      exact ⟨rfl, id⟩
  · obtain ⟨other, hpreview, rfl⟩ := hspec
    rcases wallpapers.ask_cases other with ⟨-, heq⟩ | heq
    · rw [heq, hpreview]
      exact ⟨rfl, id⟩
    · rw [heq, hpreview]
      exact ⟨rfl, id⟩
  · obtain ⟨other, hpreview, hreceive⟩ := hspec
    rcases receive_cases hreceive with ⟨result, results, -, rfl⟩ | ⟨-, rfl⟩
    · exact ⟨rfl, id⟩
    · rw [hpreview]
      exact ⟨rfl, id⟩

theorem exited_step {label : WallpaperStep Frame} (hstep : wallpapers.step label = some wallpapers')
    (hexited : wallpapers.preview = .exited) : wallpapers'.preview = .exited := by
  have hspec := step_spec hstep
  cases label with
  | choose =>
    obtain ⟨-, rfl⟩ := hspec
    unfold Wallpapers.choose
    split
    · exact hexited
    · dsimp only
      split <;> exact hexited
  | decode frame =>
    obtain ⟨index, -, rfl⟩ := hspec
    unfold Wallpapers.decode
    split <;> exact hexited
  | drain | ask | receive | compose =>
    obtain ⟨_, hpreview, -⟩ := hspec
    exact nomatch hexited.symm.trans hpreview
  | content =>
    obtain ⟨_, _, hpreview, -⟩ := hspec
    exact nomatch hexited.symm.trans hpreview
  | request | close => exact nomatch hexited.symm.trans hspec.1

end Wallpapers

/-! ## The worker -/

variable {Frame : Type}

namespace PreviewInputs

variable (inputs : PreviewInputs Frame)

/-- The wallpaper of a request, once its image is loaded. -/
def wallpaper (request : WallpaperRequest) : Option (PixelBuffer Frame) :=
  if request.backgroundType = .image then
    if inputs.started = true ∧ request.backgroundPreset < inputs.count then
      inputs.load request.backgroundPreset
    else none
  else none

/-- A request rendered from its content alone. -/
def render (request : PreviewRequest) : Except RenderError (PixelBuffer Frame × PixelBuffer Frame) := do
  let content ← renderContentFrame inputs.gpu inputs.decoders request.content.timeSecs
  let frame ← renderOutputFrame inputs.gpu content (previewDimensions content request.content.settings)
    (inputs.wallpaper request.wallpaper) request.content.settings.output request.content.zoom
  return (frame, content.screen)

/-- The answer to a request, if it can be rendered. -/
def answer (request : PreviewRequest) : Option (PreviewResult (PixelBuffer Frame × PixelBuffer Frame)) :=
  match inputs.render request with
  | .error _ => none
  | .ok frame => some
      { playbackGeneration := request.playbackGeneration
        timelineTimeSecs := request.timelineTimeSecs
        frame }

end PreviewInputs

namespace PreviewFrames

variable {inputs : PreviewInputs Frame} {s s' : PreviewFrames Frame}

structure Inv (inputs : PreviewInputs Frame) (s : PreviewFrames Frame) : Prop where
  wallpapers : s.wallpapers.Inv inputs.count inputs.started
  loaded : s.wallpapers.Loaded inputs.load inputs.started
  request : s.request.map PreviewRequest.wallpaper = Wallpapers.request s.wallpapers.preview
  cache : ∀ timeSecs frame, s.contentFrameCache = some (timeSecs, frame) →
    renderContentFrame inputs.gpu inputs.decoders timeSecs = .ok frame
  content : Wallpapers.HasContent s.wallpapers.preview → ∃ request frame, s.request = some request ∧
    s.contentFrameCache = some (request.content.timeSecs, frame)
  results : s.results = s.done.filterMap inputs.answer

/-- A step of the wallpapers that leaves the preview at its request. -/
theorem Inv.background {label : WallpaperStep (PixelBuffer Frame)} (inv : Inv inputs s)
    (hloads : s.wallpapers.Loads inputs.load label)
    (hlabel : label = .choose ∨ (∃ frame, label = .decode frame) ∨ label = .drain ∨ label = .ask ∨
      label = .receive) (h : s.background label = some s') : Inv inputs s' := by
  obtain ⟨wallpapers, hstep, rfl⟩ := Option.map_eq_some_iff.1 h
  obtain ⟨hrequest, hcontent⟩ := Wallpapers.step_request hstep hlabel
  exact
    { inv with
      wallpapers := inv.wallpapers.step hstep
      loaded := inv.loaded.step inv.wallpapers hloads hstep
      request := inv.request.trans hrequest.symm
      content := fun hhas => inv.content (hcontent hhas) }

/-- A step that ends the request with its answer. -/
theorem Inv.finish {request : PreviewRequest} {label : WallpaperStep (PixelBuffer Frame)}
    {results : List (PreviewResult (PixelBuffer Frame × PixelBuffer Frame))} (inv : Inv inputs s)
    (hloads : s.wallpapers.Loads inputs.load label)
    (hidle : ∀ wallpapers, s.wallpapers.step label = some wallpapers → wallpapers.preview = .idle)
    (hresults : results = s.results ++ (inputs.answer request).toList)
    (h : PreviewFrames.finish { s with results } request label = some s') : Inv inputs s' := by
  obtain ⟨next, hnext, rfl⟩ := Option.map_eq_some_iff.1 h
  obtain ⟨wallpapers, hstep, rfl⟩ := Option.map_eq_some_iff.1 hnext
  have hpreview := hidle wallpapers hstep
  refine
    { wallpapers := inv.wallpapers.step hstep
      loaded := inv.loaded.step inv.wallpapers hloads hstep
      request := by
        dsimp only
        rw [hpreview]
        rfl
      cache := inv.cache
      content := fun hhas => by
        dsimp only at hhas
        rw [hpreview] at hhas
        exact hhas.elim
      results := ?_ }
  dsimp only
  rw [hresults, inv.results, List.filterMap_append]
  rfl

/-- The content of the request is rendered, or was kept. -/
theorem Inv.rendered {request : PreviewRequest} {frame : ContentFrame Frame} (inv : Inv inputs s)
    (hrequest : s.request = some request)
    (hframe : renderContentFrame inputs.gpu inputs.decoders request.content.timeSecs = .ok frame)
    (h : PreviewFrames.background { s with contentFrameCache := some (request.content.timeSecs, frame) }
      (.content true) = some s') : Inv inputs s' := by
  obtain ⟨wallpapers, hstep, rfl⟩ := Option.map_eq_some_iff.1 h
  have hsame : Wallpapers.request wallpapers.preview = Wallpapers.request s.wallpapers.preview := by
    obtain ⟨wallpaper, wallpaperPending, hpreview, rfl⟩ := Wallpapers.step_spec hstep
    rw [hpreview]
    cases wallpaperPending <;> rfl
  exact
    { wallpapers := inv.wallpapers.step hstep
      loaded := inv.loaded.step inv.wallpapers (by trivial) hstep
      request := inv.request.trans hsame.symm
      cache := by
        rintro _ _ ⟨⟩
        exact hframe
      content := fun _ => ⟨request, frame, hrequest, rfl⟩
      results := inv.results }

theorem Inv.step_content (inv : Inv inputs s) (h : s.content inputs = some s') : Inv inputs s' := by
  unfold PreviewFrames.content at h
  split at h
  · cases h
  · rename_i request hrequest
    split at h
    · rename_i hcached
      obtain ⟨⟨timeSecs, frame⟩, hcache, rfl⟩ := Option.map_eq_some_iff.1 hcached
      refine inv.rendered hrequest (inv.cache _ frame hcache) ?_
      rw [← h, ← hcache]
    · split at h
      · -- without content the request has no answer
        rename_i error herror
        have hanswer : inputs.answer request = none := by
          unfold PreviewInputs.answer PreviewInputs.render
          rw [herror]
          rfl
        refine inv.finish (by trivial) (fun wallpapers hstep => ?_) ?_ h
        · obtain ⟨_, _, _, rfl⟩ := Wallpapers.step_spec hstep
          rfl
        · rw [hanswer]
          exact (List.append_nil _).symm
      · rename_i frame hframe
        exact inv.rendered hrequest hframe h

/-- The wallpaper that a request is composed with is what its image is loaded as. -/
theorem Inv.wallpaper {request : PreviewRequest} (inv : Inv inputs s)
    (hpreview : s.wallpapers.preview = .composing request.wallpaper) :
    s.wallpaper request = inputs.wallpaper request.wallpaper := by
  unfold PreviewFrames.wallpaper PreviewInputs.wallpaper
  split
  · rename_i himage
    exact inv.loaded.composed inv.wallpapers hpreview himage
  · rfl

theorem Inv.step_compose {sent : Bool} (inv : Inv inputs s) (h : s.compose inputs sent = some s') :
    Inv inputs s' := by
  unfold PreviewFrames.compose at h
  split at h
  · rename_i request timeSecs frame hrequest hcache
    have hcomposing : ∀ {sent wallpapers}, s.wallpapers.step (.compose sent) = some wallpapers →
        s.wallpapers.preview = .composing request.wallpaper ∧
          wallpapers.preview = if sent then .idle else .exited := by
      intro sent wallpapers hstep
      obtain ⟨wallpaper, hpreview, rfl⟩ := Wallpapers.step_spec hstep
      have hwallpaper := inv.request
      rw [hrequest, hpreview] at hwallpaper
      exact ⟨by rw [hpreview, Option.some.inj hwallpaper], rfl⟩
    have hanswer : s.wallpapers.preview = .composing request.wallpaper →
        inputs.render request = (renderOutputFrame inputs.gpu frame
          (previewDimensions frame request.content.settings) (s.wallpaper request)
          request.content.settings.output request.content.zoom).map fun output =>
            (output, frame.screen) := by
      intro hpreview
      obtain ⟨other, kept, hother, hkept⟩ := inv.content (by rw [hpreview]; trivial)
      obtain rfl := Option.some.inj (hrequest.symm.trans hother)
      obtain ⟨rfl, rfl⟩ := Prod.mk.inj (Option.some.inj (hcache.symm.trans hkept))
      unfold PreviewInputs.render
      rw [inv.cache _ _ hcache, inv.wallpaper hpreview]
      rfl
    have hfinish : ∀ {results},
        PreviewFrames.finish { s with results } request (.compose true) = some s' →
        s.wallpapers.preview = .composing request.wallpaper := by
      intro results hdone
      obtain ⟨next, hnext, -⟩ := Option.map_eq_some_iff.1 hdone
      obtain ⟨wallpapers, hstep, -⟩ := Option.map_eq_some_iff.1 hnext
      exact (hcomposing hstep).1
    dsimp only at h
    split at h
    · rename_i error herror
      have hdone :
          PreviewFrames.finish { s with results := s.results } request (.compose true) = some s' := h
      refine inv.finish (by trivial) (fun _ hstep => by simpa using (hcomposing hstep).2) ?_ hdone
      unfold PreviewInputs.answer
      rw [hanswer (hfinish hdone), herror]
      exact (List.append_nil _).symm
    · rename_i output houtput
      split at h
      · refine inv.finish (by trivial) (fun _ hstep => by simpa using (hcomposing hstep).2) ?_ h
        unfold PreviewInputs.answer
        rw [hanswer (hfinish h), houtput]
        rfl
      · obtain ⟨next, hnext, rfl⟩ := Option.map_eq_some_iff.1 h
        obtain ⟨wallpapers, hstep, rfl⟩ := Option.map_eq_some_iff.1 hnext
        have hexited := (hcomposing hstep).2
        exact
          { wallpapers := inv.wallpapers.step hstep
            loaded := inv.loaded.step inv.wallpapers (by trivial) hstep
            request := by
              dsimp only
              rw [hexited]
              rfl
            cache := inv.cache
            content := fun hhas => by
              dsimp only at hhas
              rw [hexited] at hhas
              exact hhas.elim
            results := inv.results }
  · cases h

theorem Inv.step {label : PreviewFrameStep} (inv : Inv inputs s) (h : s.step inputs label = some s') :
    Inv inputs s' := by
  unfold PreviewFrames.step at h
  cases label with
  | request request =>
    obtain ⟨wallpapers, hstep, rfl⟩ := Option.map_eq_some_iff.1 h
    obtain ⟨-, rfl⟩ := Wallpapers.step_spec hstep
    exact
      { inv with
        wallpapers := inv.wallpapers.step hstep
        loaded := inv.loaded.step inv.wallpapers (by trivial) hstep
        request := rfl
        content := False.elim }
  | decode =>
    dsimp only at h
    split at h
    · rename_i index hphase
      refine inv.background ?_ (.inr (.inl ⟨_, rfl⟩)) h
      intro other hother
      rw [WallpaperPhase.decoding.inj (hphase.symm.trans hother)]
    · cases h
  | choose => exact inv.background (by trivial) (.inl rfl) h
  | drain => exact inv.background (by trivial) (.inr (.inr (.inl rfl))) h
  | ask => exact inv.background (by trivial) (.inr (.inr (.inr (.inl rfl)))) h
  | receive => exact inv.background (by trivial) (.inr (.inr (.inr (.inr rfl)))) h
  | close =>
    obtain ⟨wallpapers, hstep, rfl⟩ := Option.map_eq_some_iff.1 h
    obtain ⟨hidle, rfl⟩ := Wallpapers.step_spec hstep
    exact
      { inv with
        wallpapers := inv.wallpapers.step hstep
        loaded := inv.loaded.step inv.wallpapers (by trivial) hstep
        request := by
          rw [inv.request, hidle]
          rfl
        content := False.elim }
  | content => exact inv.step_content h
  | compose sent => exact inv.step_compose h

theorem inv_initial (inputs : PreviewInputs Frame) : Inv inputs (initial inputs) where
  wallpapers := Wallpapers.initial_inv _ _ _
  loaded := Wallpapers.loaded_initial _ _ _
  request := rfl
  cache := nofun
  content := False.elim
  results := rfl

end PreviewFrames

/-- The requests that the worker takes. -/
def PreviewFrameStep.taken : PreviewFrameStep → Option PreviewRequest
  | .request asked => some asked
  | _ => none

namespace PreviewFrames

variable {inputs : PreviewInputs Frame} {s s' : PreviewFrames Frame}

/-- The requests that the worker has come to. -/
def reached (s : PreviewFrames Frame) : List PreviewRequest := s.done ++ s.request.toList

theorem reached_background {label : WallpaperStep (PixelBuffer Frame)}
    (h : s.background label = some s') :
    s'.reached = s.reached := by
  obtain ⟨wallpapers, -, rfl⟩ := Option.map_eq_some_iff.1 h
  rfl

theorem reached_finish {request : PreviewRequest} {label : WallpaperStep (PixelBuffer Frame)}
    (hrequest : s.request = some request) (h : s.finish request label = some s') :
    s'.reached = s.reached := by
  obtain ⟨next, hnext, rfl⟩ := Option.map_eq_some_iff.1 h
  obtain ⟨wallpapers, -, rfl⟩ := Option.map_eq_some_iff.1 hnext
  unfold reached
  rw [hrequest]
  exact List.append_nil _

/-- A step comes to a request, or leaves the worker at the one it is at, or ends it. -/
theorem reached_step {label : PreviewFrameStep} (inv : Inv inputs s)
    (h : s.step inputs label = some s') :
    (s.wallpapers.preview ≠ .exited ∧ s'.reached = s.reached ++ label.taken.toList) ∨
      label.taken = none ∧ (s'.reached = s.reached ∨
        s'.wallpapers.preview = .exited ∧ s'.reached <+: s.reached) := by
  unfold PreviewFrames.step at h
  cases label with
  | request request =>
    left
    obtain ⟨wallpapers, hstep, rfl⟩ := Option.map_eq_some_iff.1 h
    obtain ⟨hidle, rfl⟩ := Wallpapers.step_spec hstep
    have hnone := inv.request
    rw [hidle] at hnone
    refine ⟨by rw [hidle]; nofun, ?_⟩
    unfold reached
    rw [Option.map_eq_none_iff.1 hnone]
    simp [PreviewFrameStep.taken]
  | decode =>
    right
    dsimp only at h
    split at h
    · exact ⟨rfl, .inl (reached_background h)⟩
    · cases h
  | choose | drain | ask | receive | close => exact .inr ⟨rfl, .inl (reached_background h)⟩
  | content =>
    refine .inr ⟨rfl, .inl ?_⟩
    dsimp only [PreviewFrames.content] at h
    split at h
    · cases h
    · rename_i request hrequest
      split at h
      · exact reached_background h
      · split at h
        · exact reached_finish hrequest h
        · exact (reached_background h).trans rfl
  | compose sent =>
    refine .inr ⟨rfl, ?_⟩
    dsimp only [PreviewFrames.compose] at h
    split at h
    · rename_i request timeSecs frame hrequest hcache
      split at h
      · exact .inl (reached_finish hrequest h)
      · split at h
        · exact .inl ((reached_finish (by exact hrequest) h).trans rfl)
        · -- the window is gone, and the loop ends
          obtain ⟨next, hnext, rfl⟩ := Option.map_eq_some_iff.1 h
          obtain ⟨wallpapers, hstep, rfl⟩ := Option.map_eq_some_iff.1 hnext
          obtain ⟨_, _, rfl⟩ := Wallpapers.step_spec hstep
          refine .inr ⟨rfl, ?_⟩
          unfold reached
          rw [Option.toList_none, List.append_nil]
          exact List.prefix_append _ _
    · cases h

/-- Every step is one of the wallpapers. -/
theorem wallpapers_step {label : PreviewFrameStep} (h : s.step inputs label = some s') :
    ∃ label, s.wallpapers.step label = some s'.wallpapers := by
  unfold PreviewFrames.step PreviewFrames.content PreviewFrames.compose at h
  dsimp only at h
  repeat' split at h
  all_goals first
    | cases h
    | obtain ⟨wallpapers, hstep, rfl⟩ := Option.map_eq_some_iff.1 h
      exact ⟨_, hstep⟩
    | obtain ⟨next, hnext, rfl⟩ := Option.map_eq_some_iff.1 h
      obtain ⟨wallpapers, hstep, rfl⟩ := Option.map_eq_some_iff.1 hnext
      exact ⟨_, hstep⟩

/-- What holds along a run: the requests that were taken are those that the worker has come to, unless
it has ended. -/
structure Along (inputs : PreviewInputs Frame) (past : List PreviewFrameStep) (s : PreviewFrames Frame) :
    Prop where
  inv : Inv inputs s
  present : s.wallpapers.preview ≠ .exited → s.reached = past.filterMap PreviewFrameStep.taken
  begun : s.reached <+: past.filterMap PreviewFrameStep.taken

theorem Along.step {past : List PreviewFrameStep} {label : PreviewFrameStep}
    (along : Along inputs past s)
    (h : s.step inputs label = some s') : Along inputs (past ++ [label]) s' := by
  obtain ⟨wallpaperLabel, hwallpapers⟩ := wallpapers_step h
  have htaken : (past ++ [label]).filterMap PreviewFrameStep.taken =
      past.filterMap PreviewFrameStep.taken ++ label.taken.toList := List.filterMap_append
  rcases reached_step along.inv h with ⟨hpresent, hreached⟩ | ⟨hnone, hreached⟩
  · have hall : s'.reached = (past ++ [label]).filterMap PreviewFrameStep.taken := by
      rw [hreached, htaken, along.present hpresent]
    exact ⟨along.inv.step h, fun _ => hall, hall ▸ List.prefix_rfl⟩
  · rw [hnone, Option.toList_none, List.append_nil] at htaken
    rcases hreached with hsame | ⟨hexited, hprefix⟩
    · refine ⟨along.inv.step h, fun hpresent => ?_, ?_⟩
      · rw [hsame, htaken]
        exact along.present fun hexited => hpresent (Wallpapers.exited_step hwallpapers hexited)
      · rw [hsame, htaken]
        exact along.begun
    · exact ⟨along.inv.step h, fun hpresent => (hpresent hexited).elim,
        htaken ▸ hprefix.trans along.begun⟩

/-- A picture as it comes from a decoder or a file. -/
def plainBuffer (width height : ℕ) : PixelBuffer Unit where
  pixels := .frame ()
  pixelFormat := Compositor.kCVPixelFormatType_32BGRA
  width := width
  height := height
  planes := []

/-- A recording of a display, and one image. -/
def plainInputs : PreviewInputs Unit where
  gpu := ⟨fun _ => none, fun _ _ => none, fun _ => none⟩
  decoders := [⟨fun _ => some (plainBuffer 4 2), 4, 2, false, 0⟩]
  load := fun _ => some (plainBuffer 2 2)
  count := 1
  started := true

def imageRequest : PreviewRequest where
  playbackGeneration := 0
  timelineTimeSecs := 0
  content :=
    { timeSecs := 0
      settings := { plainSettings with backgroundType := .image }
      zoom := { center := (1 / 2, 1 / 2), scale := 1 } }

end PreviewFrames

/-! ## The export -/

variable {inputs : PreviewInputs Frame} {settings : PreviewSettings} {shortEdge : ℕ}
  {rendering : ExportInputs Frame}

/-- An export has the wallpaper that a request of the preview waits for. -/
theorem wallpaper_of_export (hexport : inputs.exportInputs settings shortEdge = some rendering)
    (hstarted : settings.backgroundType = .image → inputs.started = true) {request : PreviewRequest}
    (hsettings : request.content.settings = settings) :
    inputs.wallpaper request.wallpaper = rendering.wallpaper := by
  obtain ⟨wallpaper, hwallpaper, rfl⟩ := Option.map_eq_some_iff.1 hexport
  unfold PreviewInputs.wallpaper PreviewRequest.wallpaper
  rw [hsettings]
  by_cases himage : settings.backgroundType = .image
  · rw [if_pos himage]
    by_cases hindex : settings.backgroundPreset < inputs.count
    · rw [if_pos ⟨himage, hindex⟩] at hwallpaper
      obtain ⟨frame, hframe, rfl⟩ := Option.map_eq_some_iff.1 hwallpaper
      rw [if_pos ⟨hstarted himage, hindex⟩, hframe]
    · rw [if_neg fun h => hindex h.2] at hwallpaper
      rw [if_neg fun h => hindex h.2, Option.some.inj hwallpaper]
  · rw [if_neg fun h => himage h.1] at hwallpaper
    rw [if_neg himage, Option.some.inj hwallpaper]

end Blip.Capture
