import Blip.Capture.WallpaperInvariant
import Mathlib.Data.List.Count

/-!
# The preview waits for a wallpaper only so long

While the preview waits, the steps left to both workers are counted by a measure that each of them lowers,
and one of them is always possible. The wait ends with the image there or known to have failed. What has
failed stays so, and is not asked for again.
-/

namespace Blip.Capture

namespace Wallpapers

variable {Frame : Type} {count : ℕ} {started : Bool} {wallpapers wallpapers' : Wallpapers Frame}

/-- The steps that the worker still has to take for the image it is at. -/
def phaseWeight : WallpaperPhase → ℕ
  | .choosing => 2
  | .decoding _ => 1
  | .exited => 0

/-- A bound of the steps of both workers while the preview waits: an image is chosen, decoded and received,
and a request for a decoded one is dropped. -/
def remaining (wallpapers : Wallpapers Frame) : ℕ :=
  3 * wallpapers.worker.decoded.count false + 2 * wallpapers.wallpaperRequests.length +
    wallpapers.wallpaperResults.length + phaseWeight wallpapers.worker.phase

/-- An image that is loaded is no longer to be decoded. -/
theorem count_set_true {decoded : List Bool} {index : ℕ} (h : decoded[index]? = some false) :
    (decoded.set index true).count false + 1 = decoded.count false := by
  obtain ⟨hlt, hfalse⟩ := List.getElem?_eq_some_iff.mp h
  have hpos : 0 < decoded.count false := List.count_pos_iff.mpr (hfalse ▸ List.getElem_mem hlt)
  rw [List.count_set hlt, hfalse]
  simp
  omega

theorem remaining_choose (h : wallpapers.Inv count started)
    (hphase : wallpapers.worker.phase = .choosing) :
    wallpapers.choose.remaining < wallpapers.remaining ∧
      wallpapers.choose.preview = wallpapers.preview := by
  rcases choose_cases h hphase with ⟨index, requests, hrequests, heq | ⟨-, heq⟩⟩ |
    ⟨index, -, -, -, heq⟩ | ⟨nextPreload, -, -, -, heq⟩
  · rw [heq]
    refine ⟨?_, rfl⟩
    simp only [remaining, hrequests, List.length_cons]
    omega
  · rw [heq]
    refine ⟨?_, rfl⟩
    simp only [remaining, hrequests, List.length_cons, hphase, phaseWeight]
    omega
  · rw [heq]
    refine ⟨?_, rfl⟩
    simp only [remaining, hphase, phaseWeight]
    omega
  · rw [heq]
    refine ⟨?_, rfl⟩
    simp only [remaining, hphase, phaseWeight]
    omega

theorem remaining_decode {index : ℕ} (h : wallpapers.Inv count started)
    (hphase : wallpapers.worker.phase = .decoding index) (hpresent : wallpapers.preview ≠ .exited)
    (frame : Option Frame) : (wallpapers.decode index frame).remaining < wallpapers.remaining ∧
      (wallpapers.decode index frame).preview = wallpapers.preview := by
  rw [decode, if_neg hpresent]
  refine ⟨?_, rfl⟩
  have hcount := count_set_true (h.decoding index hphase)
  simp only [remaining, hphase, phaseWeight, List.length_append, List.length_singleton]
  omega

/-- The worker that ran to its end has sent every result. -/
theorem Inv.stored_or_received (h : wallpapers.Inv count started) {index : ℕ} (hindex : index < count)
    (hpresent : wallpapers.preview ≠ .exited) (hstarted : started = true)
    (hexited : wallpapers.worker.phase = .exited) : wallpapers.missing index = false ∨
      ∃ frame, (index, frame) ∈ wallpapers.wallpaperResults := by
  refine h.received index ?_
  rw [h.reported hpresent, h.loads]
  exact h.finished hstarted hexited hpresent index hindex

/-- A step while the preview waits: it waits on with less to come, or goes on with the image there or known
to have failed. -/
theorem waiting_step {request : WallpaperRequest} {label : WallpaperStep Frame}
    (h : wallpapers.Inv count started) (hpreview : wallpapers.preview = .waiting request)
    (hstep : wallpapers.step label = some wallpapers') :
    (wallpapers'.preview = .waiting request ∧ wallpapers'.remaining < wallpapers.remaining) ∨
      wallpapers'.preview = .composing request ∧
        (wallpapers'.missing request.backgroundPreset = false ∨ started = false) := by
  have hpresent : wallpapers.preview ≠ .exited := by simp [hpreview]
  have hspec := step_spec hstep
  cases label with
  | choose =>
    obtain ⟨hphase, rfl⟩ := hspec
    obtain ⟨hless, hsame⟩ := remaining_choose h hphase
    exact .inl ⟨hsame.trans hpreview, hless⟩
  | decode frame =>
    obtain ⟨index, hphase, rfl⟩ := hspec
    obtain ⟨hless, hsame⟩ := remaining_decode h hphase hpresent frame
    exact .inl ⟨hsame.trans hpreview, hless⟩
  | receive =>
    obtain ⟨other, hother, hreceive⟩ := hspec
    obtain rfl := PreviewPhase.waiting.inj (hother.symm.trans hpreview)
    rcases receive_cases hreceive with ⟨result, results, hresults, rfl⟩ | ⟨hend, rfl⟩
    · refine .inl ⟨hpreview, ?_⟩
      simp only [remaining, store, hresults, List.length_cons]
      omega
    · refine .inr ⟨rfl, ?_⟩
      rcases hend with hstored | ⟨hempty, hexited⟩
      · exact .inl hstored
      · -- the channel is at its end, so a worker that started has sent the image before
        cases started with
        | false => exact .inr rfl
        | true =>
          have hindex := h.pending other (.inl hpreview)
          refine .inl ((h.stored_or_received hindex hpresent rfl hexited).resolve_right ?_)
          rintro ⟨frame, hmem⟩
          rw [hempty] at hmem
          cases hmem
  | request _ => simp [step, hpreview] at hstep
  | drain => simp [step, hpreview] at hstep
  | ask => simp [step, hpreview] at hstep
  | content _ => simp [step, hpreview] at hstep
  | compose _ => simp [step, hpreview] at hstep
  | close => simp [step, hpreview] at hstep

/-- Some step is possible while the preview waits. -/
theorem waiting_enabled {request : WallpaperRequest} (hpreview : wallpapers.preview = .waiting request) :
    ∃ label wallpapers', wallpapers.step label = some wallpapers' := by
  cases hphase : wallpapers.worker.phase with
  | choosing => exact ⟨.choose, _, by rw [step, if_pos hphase]⟩
  | decoding index => exact ⟨.decode none, wallpapers.decode index none, by simp only [step, hphase]⟩
  | exited =>
    refine ⟨.receive, ?_⟩
    simp only [step, hpreview, receive, hphase, if_true]
    split
    · split
      · exact ⟨_, rfl⟩
      · exact ⟨_, rfl⟩
    · exact ⟨_, rfl⟩

/-- A run that is longer than what remains comes to the end of the wait. -/
theorem waiting_run {request : WallpaperRequest} {labels : List (WallpaperStep Frame)}
    (hrun : (wallpaperWorkers Frame count started).Run wallpapers labels wallpapers')
    (h : wallpapers.Inv count started) (hpreview : wallpapers.preview = .waiting request)
    (hlong : wallpapers.remaining < labels.length) :
    ∃ before after between, labels = before ++ after ∧
      (wallpaperWorkers Frame count started).Run wallpapers before between ∧
      between.preview = .composing request ∧
      (between.missing request.backgroundPreset = false ∨ started = false) := by
  induction hrun with
  | nil => exact absurd hlong (Nat.not_lt_zero _)
  | @cons wallpapers next last label labels hstep hrest ih =>
    rcases waiting_step h hpreview hstep with ⟨hwaits, hless⟩ | hends
    · rw [List.length_cons] at hlong
      obtain ⟨before, after, between, rfl, hbefore, hends⟩ := ih (h.step hstep) hwaits (by omega)
      exact ⟨label :: before, after, between, rfl, .cons hstep hbefore, hends⟩
    · exact ⟨[label], labels, next, rfl, .single hstep, hends⟩

/-! ## The images that have failed -/

/-- What a step does to the results, to the images that have failed and to what was asked for. -/
theorem step_cases {label : WallpaperStep Frame} (h : wallpapers.Inv count started)
    (hstep : wallpapers.step label = some wallpapers') :
    (wallpapers'.failedBackgrounds = wallpapers.failedBackgrounds ∧
      wallpapers'.asked = wallpapers.asked ∧
      ∀ result ∈ wallpapers.wallpaperResults, result ∈ wallpapers'.wallpaperResults) ∨
    (∃ result results, wallpapers.wallpaperResults = result :: results ∧
      wallpapers' = { wallpapers.store result with wallpaperResults := results }) ∨
    ∃ index, wallpapers.missing index = true ∧
      wallpapers'.failedBackgrounds = wallpapers.failedBackgrounds ∧
      wallpapers'.asked = wallpapers.asked ++ [index] ∧
      wallpapers'.wallpaperResults = wallpapers.wallpaperResults := by
  have hspec := step_spec hstep
  cases label with
  | choose =>
    obtain ⟨hphase, rfl⟩ := hspec
    left
    rcases choose_cases h hphase with ⟨index, requests, -, heq | ⟨-, heq⟩⟩ |
      ⟨index, -, -, -, heq⟩ | ⟨nextPreload, -, -, -, heq⟩
    all_goals
      rw [heq]
      exact ⟨rfl, rfl, fun _ hmem => hmem⟩
  | decode frame =>
    obtain ⟨index, hphase, rfl⟩ := hspec
    left
    rw [decode]
    split
    · exact ⟨rfl, rfl, fun _ hmem => hmem⟩
    · exact ⟨rfl, rfl, fun _ hmem => List.mem_append_left _ hmem⟩
  | drain =>
    obtain ⟨request, hpreview, rfl⟩ := hspec
    rcases wallpapers.drain_cases request with hstores | heq
    · exact .inr (.inl hstores)
    · rw [heq]
      exact .inl ⟨rfl, rfl, fun _ hmem => hmem⟩
  | ask =>
    obtain ⟨request, hpreview, rfl⟩ := hspec
    rcases wallpapers.ask_cases request with ⟨hmissing, heq⟩ | heq
    · rw [heq]
      exact .inr (.inr ⟨_, hmissing, rfl, rfl, rfl⟩)
    · rw [heq]
      exact .inl ⟨rfl, rfl, fun _ hmem => hmem⟩
  | receive =>
    obtain ⟨request, hpreview, hreceive⟩ := hspec
    rcases receive_cases hreceive with hstores | ⟨-, rfl⟩
    · exact .inr (.inl hstores)
    · exact .inl ⟨rfl, rfl, fun _ hmem => hmem⟩
  -- the other steps move the preview on and leave the channel alone
  | request request | close =>
    obtain ⟨-, rfl⟩ := hspec
    exact .inl ⟨rfl, rfl, fun _ hmem => hmem⟩
  | content rendered =>
    obtain ⟨_, _, -, rfl⟩ := hspec
    exact .inl ⟨rfl, rfl, fun _ hmem => hmem⟩
  | compose sent =>
    obtain ⟨_, -, rfl⟩ := hspec
    exact .inl ⟨rfl, rfl, fun _ hmem => hmem⟩

/-- What has failed stays so, and is not asked for. -/
theorem failed_step {label : WallpaperStep Frame} {index : ℕ} (h : wallpapers.Inv count started)
    (hstep : wallpapers.step label = some wallpapers')
    (hfailed : wallpapers.failedBackgrounds[index]? = some true) :
    wallpapers'.failedBackgrounds[index]? = some true ∧
      wallpapers'.asked.count index = wallpapers.asked.count index := by
  have hknown : ∀ other, wallpapers.missing other = true → other ≠ index := by
    rintro other hmissing rfl
    obtain ⟨-, hnot⟩ := (missing_iff h.frames h.failed).mp hmissing
    rw [hfailed] at hnot
    cases hnot
  rcases step_cases h hstep with ⟨hsame, hasked, -⟩ | ⟨result, results, hresults, rfl⟩ |
    ⟨other, hmissing, hsame, hasked, -⟩
  · rw [hsame, hasked]
    exact ⟨hfailed, rfl⟩
  · obtain ⟨-, hmissing⟩ := h.results result (by rw [hresults]; exact List.mem_cons_self)
    refine ⟨?_, rfl⟩
    exact (List.getElem?_set_ne (hknown _ hmissing)).trans hfailed
  · rw [hsame, hasked, List.count_append, List.count_singleton,
      if_neg (by simpa using hknown other hmissing)]
    exact ⟨hfailed, rfl⟩

/-- The result of a failed image leaves the channel only for the images that have failed. -/
theorem recorded_step {label : WallpaperStep Frame} {index : ℕ} (h : wallpapers.Inv count started)
    (hstep : wallpapers.step label = some wallpapers')
    (hrecorded : (index, none) ∈ wallpapers.wallpaperResults ∨
      wallpapers.failedBackgrounds[index]? = some true) :
    (index, none) ∈ wallpapers'.wallpaperResults ∨
      wallpapers'.failedBackgrounds[index]? = some true := by
  rcases hrecorded with hmem | hfailed
  · rcases step_cases h hstep with ⟨-, -, hkept⟩ | ⟨result, results, hresults, rfl⟩ |
      ⟨other, -, -, -, hsame⟩
    · exact .inl (hkept _ hmem)
    · rw [hresults] at hmem
      rcases List.mem_cons.mp hmem with rfl | htail
      · right
        obtain ⟨-, hmissing⟩ := h.results _ (by rw [hresults]; exact List.mem_cons_self)
        obtain ⟨-, hfailed⟩ := (missing_iff h.frames h.failed).mp hmissing
        obtain ⟨hlt, -⟩ := List.getElem?_eq_some_iff.mp hfailed
        exact List.getElem?_set_self hlt
      · exact .inl htail
    · rw [hsame]
      exact .inl hmem
  · exact .inr (failed_step h hstep hfailed).1

/-! ## Every reachable state -/

/-- No image is loaded or reported twice, and the worker that ran to its end did so with each. -/
structure LoadedOnce (count : ℕ) (started : Bool) (wallpapers : Wallpapers Frame) : Prop where
  loads : wallpapers.loads.Nodup
  reports : wallpapers.reports.Nodup
  bound : ∀ index ∈ wallpapers.loads, index < count
  reported : wallpapers.preview ≠ .exited → wallpapers.reports = wallpapers.loads
  finished : started = true → wallpapers.worker.phase = .exited → wallpapers.preview ≠ .exited →
    ∀ index < count, wallpapers.loads.count index = 1 ∧ wallpapers.reports.count index = 1

/-- Where the wait for an image stands, and that it ends: a step is possible, and a run of more steps than
remain comes past it. -/
structure WaitEnds (count : ℕ) (started : Bool) (wallpapers : Wallpapers Frame)
    (request : WallpaperRequest) : Prop where
  awaited : wallpapers.missing request.backgroundPreset = true →
    (∃ frame, (request.backgroundPreset, frame) ∈ wallpapers.wallpaperResults) ∨
    (wallpapers.worker.phase ≠ .exited ∧ request.backgroundPreset ∉ wallpapers.loads) ∨
    started = false ∧ wallpapers.worker.phase = .exited
  enabled : ∃ label wallpapers', wallpapers.step label = some wallpapers'
  ends : ∀ labels wallpapers', (wallpaperWorkers Frame count started).Run wallpapers labels wallpapers' →
    wallpapers.remaining < labels.length → ∃ before after between, labels = before ++ after ∧
      (wallpaperWorkers Frame count started).Run wallpapers before between ∧
      between.preview = .composing request ∧
      (between.missing request.backgroundPreset = false ∨ started = false)

/-- An image that could not be decoded is on its way to those that have failed; these stay so and are not
asked for again. -/
structure FailuresKept (count : ℕ) (started : Bool) (wallpapers : Wallpapers Frame) : Prop where
  recorded : ∀ index wallpapers₁ labels wallpapers₂, wallpapers.worker.phase = .decoding index →
    wallpapers.preview ≠ .exited → wallpapers.step (.decode none) = some wallpapers₁ →
    (wallpaperWorkers Frame count started).Run wallpapers₁ labels wallpapers₂ →
    (index, none) ∈ wallpapers₂.wallpaperResults ∨ wallpapers₂.failedBackgrounds[index]? = some true
  kept : ∀ index labels wallpapers', wallpapers.failedBackgrounds[index]? = some true →
    (wallpaperWorkers Frame count started).Run wallpapers labels wallpapers' →
    wallpapers'.failedBackgrounds[index]? = some true ∧
      wallpapers'.asked.count index = wallpapers.asked.count index

theorem Inv.loadedOnce (h : wallpapers.Inv count started) : wallpapers.LoadedOnce count started where
  loads := h.loadsNodup
  reports := h.reportsNodup
  bound := by
    intro index hindex
    obtain ⟨hlt, -⟩ := List.getElem?_eq_some_iff.mp ((h.loads index).mp hindex)
    rwa [h.decoded] at hlt
  reported := h.reported
  finished := by
    intro hstarted hexited hpresent index hindex
    have hmem := (h.loads index).mpr (h.finished hstarted hexited hpresent index hindex)
    rw [h.reported hpresent]
    exact ⟨List.count_eq_one_of_mem h.loadsNodup hmem, List.count_eq_one_of_mem h.loadsNodup hmem⟩

theorem Inv.waitEnds {request : WallpaperRequest} (h : wallpapers.Inv count started)
    (hpreview : wallpapers.preview = .waiting request) :
    wallpapers.WaitEnds count started request where
  awaited := by
    intro hmissing
    have hpresent : wallpapers.preview ≠ .exited := by simp [hpreview]
    by_cases hloaded : request.backgroundPreset ∈ wallpapers.loads
    · rw [← h.reported hpresent] at hloaded
      refine .inl ((h.received _ hloaded).resolve_left ?_)
      rw [hmissing]
      simp
    · right
      by_cases hexited : wallpapers.worker.phase = .exited
      · cases started with
        | false => exact .inr ⟨rfl, hexited⟩
        | true =>
          refine absurd ((h.loads _).mpr ?_) hloaded
          exact h.finished rfl hexited hpresent _ (h.pending request (.inl hpreview))
      · exact .inl ⟨hexited, hloaded⟩
  enabled := waiting_enabled hpreview
  ends := fun _ _ hrun hlong => waiting_run hrun h hpreview hlong

theorem Inv.failuresKept (h : wallpapers.Inv count started) :
    wallpapers.FailuresKept count started where
  recorded := by
    intro index wallpapers₁ labels wallpapers₂ hphase hpresent hstep hrun
    have hdecoded : wallpapers₁ = wallpapers.decode index none := by
      simp only [Wallpapers.step, hphase, Option.some.injEq] at hstep
      exact hstep.symm
    have hsent : (index, none) ∈ wallpapers₁.wallpaperResults := by
      rw [hdecoded, Wallpapers.decode, if_neg hpresent]
      exact List.mem_append_right _ (List.mem_singleton.mpr rfl)
    refine (hrun.invariant (P := fun wallpapers => wallpapers.Inv count started ∧
      ((index, none) ∈ wallpapers.wallpaperResults ∨ wallpapers.failedBackgrounds[index]? = some true))
      ?_ ⟨h.step hstep, .inl hsent⟩).2
    rintro before label after ⟨hinv, hrecorded⟩ hnext
    exact ⟨hinv.step hnext, recorded_step hinv hnext hrecorded⟩
  kept := by
    intro index labels wallpapers' hfailed hrun
    refine (hrun.invariant (P := fun after => after.Inv count started ∧
      after.failedBackgrounds[index]? = some true ∧
        after.asked.count index = wallpapers.asked.count index) ?_ ⟨h, hfailed, rfl⟩).2
    rintro before label after ⟨hinv, hbefore, hasked⟩ hnext
    obtain ⟨hafter, hsame⟩ := failed_step hinv hnext hbefore
    exact ⟨hinv.step hnext, hafter, hsame.trans hasked⟩

/-- Whatever the order of the two workers' steps, every image is loaded and reported once, the preview never
waits for an image without end, and what has failed is known and not asked for again. -/
theorem wallpapers_settle (Frame : Type) (count : ℕ) (started : Bool) (wallpapers : Wallpapers Frame)
    (h : (wallpaperWorkers Frame count started).Reachable wallpapers) :
    wallpapers.LoadedOnce count started ∧
      (∀ request, wallpapers.preview = .waiting request → wallpapers.WaitEnds count started request) ∧
      wallpapers.FailuresKept count started :=
  ⟨(reachable_inv h).loadedOnce, fun _ hpreview => (reachable_inv h).waitEnds hpreview,
    (reachable_inv h).failuresKept⟩

/-- The preview waits for the only image, which the worker decodes. -/
theorem wallpapers_settle_single : ∃ wallpapers : Wallpapers Unit,
    wallpapers.preview = .waiting ⟨.image, 0⟩ ∧ wallpapers.worker.phase = .decoding 0 ∧
      wallpapers.remaining = 4 ∧ wallpapers.LoadedOnce 1 true ∧ wallpapers.WaitEnds 1 true ⟨.image, 0⟩ ∧
      wallpapers.FailuresKept 1 true := by
  have hrun : (wallpaperWorkers Unit 1 true).Run (initial Unit 1 true)
      [.request ⟨.image, 0⟩, .drain, .ask, .content true, .choose] _ :=
    .cons rfl (.cons rfl (.cons rfl (.cons rfl (.cons rfl (.nil _)))))
  obtain ⟨hloaded, hwait, hfailures⟩ := wallpapers_settle Unit 1 true _ ⟨_, _, rfl, hrun⟩
  exact ⟨_, rfl, rfl, rfl, hloaded, hwait _ rfl, hfailures⟩

end Wallpapers

end Blip.Capture
