import Blip.Capture.WallpaperWorkers
import Mathlib.Data.List.Nodup

/-!
# What the wallpaper and the preview worker keep

Every image is loaded at most once, and its result is in the channel until the preview has stored it. The
wallpaper worker ends with every image loaded, so the preview waits for an image only while its result is
in the channel or to come, and every step of that wait brings its end nearer.
-/

namespace Blip.Capture

namespace Wallpapers

variable {Frame : Type} {count : ℕ} {started : Bool} {wallpapers wallpapers' : Wallpapers Frame}

/-- What holds of the channels and of both workers' variables. -/
structure Inv (count : ℕ) (started : Bool) (wallpapers : Wallpapers Frame) : Prop where
  decoded : wallpapers.worker.decoded.length = count
  frames : wallpapers.backgroundFrames.length = count
  failed : wallpapers.failedBackgrounds.length = count
  requests : ∀ index ∈ wallpapers.wallpaperRequests, index < count
  loads : ∀ index, index ∈ wallpapers.loads ↔ wallpapers.worker.decoded[index]? = some true
  loadsNodup : wallpapers.loads.Nodup
  decoding : ∀ index, wallpapers.worker.phase = .decoding index →
    wallpapers.worker.decoded[index]? = some false
  preload : ∀ index < wallpapers.worker.nextPreload, index < count →
    wallpapers.worker.decoded[index]? = some true ∨ wallpapers.worker.phase = .decoding index
  reports : ∀ index ∈ wallpapers.reports, index ∈ wallpapers.loads
  reportsNodup : wallpapers.reports.Nodup
  reported : wallpapers.preview ≠ .exited → wallpapers.reports = wallpapers.loads
  results : ∀ result ∈ wallpapers.wallpaperResults,
    result.1 ∈ wallpapers.reports ∧ wallpapers.missing result.1 = true
  resultsNodup : (wallpapers.wallpaperResults.map Prod.fst).Nodup
  stored : ∀ index < count, wallpapers.missing index = false → index ∈ wallpapers.reports
  received : ∀ index ∈ wallpapers.reports, wallpapers.missing index = false ∨
    ∃ frame, (index, frame) ∈ wallpapers.wallpaperResults
  finished : started = true → wallpapers.worker.phase = .exited → wallpapers.preview ≠ .exited →
    ∀ index < count, wallpapers.worker.decoded[index]? = some true
  pending : ∀ request, wallpapers.preview = .waiting request ∨
    wallpapers.preview = .rendering request true → request.backgroundPreset < count

/-! ## The images that are missing -/

theorem missing_iff {index : ℕ} (hframes : wallpapers.backgroundFrames.length = count)
    (hfailed : wallpapers.failedBackgrounds.length = count) : wallpapers.missing index = true ↔
      wallpapers.backgroundFrames[index]? = some none ∧
        wallpapers.failedBackgrounds[index]? = some false := by
  rw [missing]
  rcases lt_or_ge index count with hlt | hge
  · rw [List.getElem?_eq_getElem (by omega), List.getElem?_eq_getElem (by omega)]
    simp
  · rw [List.getElem?_eq_none (by omega), List.getElem?_eq_none (by omega)]
    simp

/-- A stored result is not missing any more, and no other image is affected. -/
theorem missing_store (hframes : wallpapers.backgroundFrames.length = count)
    (hfailed : wallpapers.failedBackgrounds.length = count) {result : ℕ × Option Frame}
    (hresult : result.1 < count) (index : ℕ) : (wallpapers.store result).missing index =
      if index = result.1 then false else wallpapers.missing index := by
  rw [missing, missing, store]
  by_cases hindex : result.1 = index
  · rw [← hindex, List.getElem?_set_self (by omega), List.getElem?_set_self (by omega), if_pos rfl]
    cases result.2 <;> simp
  · rw [List.getElem?_set_ne hindex, List.getElem?_set_ne hindex, if_neg (Ne.symm hindex)]

/-! ## The wallpaper worker -/

theorem skipDecoded_spec (decoded : List Bool) (nextPreload : ℕ) :
    nextPreload ≤ skipDecoded decoded nextPreload ∧
      (∀ index, nextPreload ≤ index → index < skipDecoded decoded nextPreload →
        decoded[index]? = some true) ∧ decoded[skipDecoded decoded nextPreload]? ≠ some true := by
  induction nextPreload using skipDecoded.induct decoded with
  | case1 nextPreload hdecoded ih =>
    rw [skipDecoded, dif_pos hdecoded]
    obtain ⟨hle, hskipped, hstop⟩ := ih
    refine ⟨by omega, fun index hlow hhigh => ?_, hstop⟩
    rcases Nat.eq_or_lt_of_le hlow with rfl | hlt
    · exact hdecoded
    · exact hskipped index hlt hhigh
  | case2 nextPreload hdecoded =>
    rw [skipDecoded, dif_neg hdecoded]
    exact ⟨le_rfl, fun index hlow hhigh => absurd hhigh hlow.not_gt, hdecoded⟩

theorem select_cases (wallpapers : Wallpapers Frame) (index : ℕ) :
    (wallpapers.worker.decoded[index]? = some false ∧ wallpapers.select index = .decoding index) ∨
      (wallpapers.worker.decoded[index]? ≠ some false ∧ wallpapers.select index = .choosing) := by
  rw [select]
  by_cases h : wallpapers.worker.decoded[index]? = some false
  · exact .inl ⟨h, if_pos h⟩
  · exact .inr ⟨h, if_neg h⟩

/-- What the worker does next: it drops a request for what is decoded, decodes an image, or ends with
every image decoded. -/
theorem choose_cases (h : wallpapers.Inv count started) (hphase : wallpapers.worker.phase = .choosing) :
    (∃ index requests, wallpapers.wallpaperRequests = index :: requests ∧
      (wallpapers.choose = { wallpapers with wallpaperRequests := requests } ∨
        wallpapers.worker.decoded[index]? = some false ∧ wallpapers.choose = { wallpapers with
          worker := { wallpapers.worker with phase := .decoding index }
          wallpaperRequests := requests })) ∨
    (∃ index, wallpapers.wallpaperRequests = [] ∧ wallpapers.worker.decoded[index]? = some false ∧
      (∀ other < index, wallpapers.worker.decoded[other]? = some true) ∧
      wallpapers.choose = { wallpapers with
        worker := { wallpapers.worker with
          nextPreload := index + 1
          phase := .decoding index } }) ∨
    ∃ nextPreload, count ≤ nextPreload ∧ wallpapers.wallpaperRequests = [] ∧
      (∀ index < count, wallpapers.worker.decoded[index]? = some true) ∧
      wallpapers.choose = { wallpapers with
        worker := { wallpapers.worker with
          nextPreload
          phase := .exited } } := by
  rw [choose]
  cases hrequests : wallpapers.wallpaperRequests with
  | cons index requests =>
    refine .inl ⟨index, requests, rfl, ?_⟩
    dsimp only
    rcases wallpapers.select_cases index with ⟨hfalse, heq⟩ | ⟨-, heq⟩
    · rw [heq]
      exact .inr ⟨hfalse, rfl⟩
    · rw [heq, ← hphase]
      exact .inl rfl
  | nil =>
    right
    dsimp only
    obtain ⟨hle, hskipped, hstop⟩ :=
      skipDecoded_spec wallpapers.worker.decoded wallpapers.worker.nextPreload
    -- the images before the next one are decoded: the worker decodes none now
    have hbefore : ∀ other < skipDecoded wallpapers.worker.decoded wallpapers.worker.nextPreload,
        other < count → wallpapers.worker.decoded[other]? = some true := by
      intro other hlt hcount
      rcases lt_or_ge other wallpapers.worker.nextPreload with hpreloaded | hpreloaded
      · refine (h.preload other hpreloaded hcount).resolve_right fun hdecoding => ?_
        rw [hphase] at hdecoding
        cases hdecoding
      · exact hskipped other hpreloaded hlt
    have hlength := h.decoded
    by_cases hend : wallpapers.worker.decoded.length ≤
        skipDecoded wallpapers.worker.decoded wallpapers.worker.nextPreload
    · rw [if_pos hend]
      exact .inr ⟨_, by omega, rfl, fun index hindex => hbefore index (by omega) hindex, rfl⟩
    · rw [if_neg hend]
      have hfalse : wallpapers.worker.decoded[
          skipDecoded wallpapers.worker.decoded wallpapers.worker.nextPreload]? = some false := by
        rw [List.getElem?_eq_getElem (not_le.mp hend)] at hstop ⊢
        simpa using hstop
      rcases wallpapers.select_cases
        (skipDecoded wallpapers.worker.decoded wallpapers.worker.nextPreload) with
        ⟨-, heq⟩ | ⟨hnot, -⟩
      · rw [heq]
        exact .inl ⟨_, rfl, hfalse, fun other hlt => hbefore other hlt (by omega), rfl⟩
      · exact absurd hfalse hnot

theorem Inv.choose (h : wallpapers.Inv count started)
    (hphase : wallpapers.worker.phase = .choosing) : wallpapers.choose.Inv count started := by
  have hpreload : ∀ index < wallpapers.worker.nextPreload, index < count →
      wallpapers.worker.decoded[index]? = some true := by
    intro index hlt hcount
    refine (h.preload index hlt hcount).resolve_right fun hdecoding => ?_
    rw [hphase] at hdecoding
    cases hdecoding
  rcases choose_cases h hphase with ⟨index, requests, hrequests, hnext⟩ |
    ⟨index, hrequests, hfalse, hbefore, heq⟩ | ⟨nextPreload, hend, hrequests, hall, heq⟩
  · have hrest : ∀ other ∈ requests, other < count := by
      intro other hother
      exact h.requests other (by rw [hrequests]; exact List.mem_cons_of_mem _ hother)
    rcases hnext with heq | ⟨hfalse, heq⟩
    · rw [heq]
      exact { h with requests := hrest }
    · rw [heq]
      exact { h with
        requests := hrest
        decoding := by
          rintro other ⟨⟩
          exact hfalse
        preload := fun other hlt hcount => .inl (hpreload other hlt hcount)
        finished := by rintro - ⟨⟩ }
  · rw [heq]
    refine { h with
      decoding := ?_
      preload := fun other hlt _ => ?_
      finished := by rintro - ⟨⟩ }
    · rintro other ⟨⟩
      exact hfalse
    · rcases Nat.eq_or_lt_of_le (Nat.lt_succ_iff.mp hlt) with rfl | hlt
      · exact .inr rfl
      · exact .inl (hbefore other hlt)
  · rw [heq]
    exact { h with
      decoding := by rintro _ ⟨⟩
      preload := fun other _ hcount => .inl (hall other hcount)
      finished := fun _ _ _ => hall }

theorem Inv.decode {index : ℕ} (h : wallpapers.Inv count started)
    (hphase : wallpapers.worker.phase = .decoding index) (frame : Option Frame) :
    (wallpapers.decode index frame).Inv count started := by
  have hfalse := h.decoding index hphase
  obtain ⟨hlt, -⟩ := List.getElem?_eq_some_iff.mp hfalse
  have hnew : index ∉ wallpapers.loads := by
    rw [h.loads, hfalse]
    simp
  -- the mark of one image changes, and only that one is loaded more than before
  have hset : ∀ other : ℕ, (wallpapers.worker.decoded.set index true)[other]? = some true ↔
      other = index ∨ wallpapers.worker.decoded[other]? = some true := by
    intro other
    by_cases hother : index = other
    · rw [← hother, List.getElem?_set_self hlt]
      simp
    · rw [List.getElem?_set_ne hother]
      simp [Ne.symm hother]
  have hdecoded : (wallpapers.worker.decoded.set index true).length = count := by
    rw [List.length_set, h.decoded]
  have hloads : ∀ other, other ∈ wallpapers.loads ++ [index] ↔
      (wallpapers.worker.decoded.set index true)[other]? = some true := by
    intro other
    rw [List.mem_append, List.mem_singleton, hset, h.loads, or_comm]
  have hnodup : (wallpapers.loads ++ [index]).Nodup :=
    h.loadsNodup.append (List.nodup_singleton _) (by simpa using hnew)
  have hpreload : ∀ other < wallpapers.worker.nextPreload, other < count →
      (wallpapers.worker.decoded.set index true)[other]? = some true := by
    intro other hother hcount
    rw [hset]
    rcases h.preload other hother hcount with htrue | hdecoding
    · exact .inr htrue
    · rw [hphase] at hdecoding
      cases hdecoding
      exact .inl rfl
  rw [Wallpapers.decode]
  by_cases hexited : wallpapers.preview = .exited
  · -- nobody receives the result
    rw [if_pos hexited]
    exact { h with
      decoded := hdecoded
      loads := hloads
      loadsNodup := hnodup
      decoding := by rintro _ ⟨⟩
      preload := fun other hother hcount => .inl (hpreload other hother hcount)
      reports := fun other hother => List.mem_append_left _ (h.reports other hother)
      reported := fun hpresent => absurd hexited hpresent
      finished := fun _ _ hpresent => absurd hexited hpresent }
  · rw [if_neg hexited]
    have hunreported : index ∉ wallpapers.reports := by
      rw [h.reported hexited]
      exact hnew
    have hmissing : wallpapers.missing index = true := by
      by_contra hstored
      exact hunreported (h.stored index (h.decoded ▸ hlt) (Bool.eq_false_iff.mpr hstored))
    exact { h with
      decoded := hdecoded
      loads := hloads
      loadsNodup := hnodup
      decoding := by rintro _ ⟨⟩
      preload := fun other hother hcount => .inl (hpreload other hother hcount)
      reports := by
        intro other hother
        rcases List.mem_append.mp hother with hother | hother
        · exact List.mem_append_left _ (h.reports other hother)
        · exact List.mem_append_right _ hother
      reportsNodup :=
        h.reportsNodup.append (List.nodup_singleton _) (by simpa using hunreported)
      reported := fun _ => congrArg (· ++ [index]) (h.reported hexited)
      results := by
        intro result hresult
        rcases List.mem_append.mp hresult with hresult | hresult
        · obtain ⟨hmem, hstill⟩ := h.results result hresult
          exact ⟨List.mem_append_left _ hmem, hstill⟩
        · obtain rfl := List.mem_singleton.mp hresult
          exact ⟨List.mem_append_right _ (List.mem_singleton.mpr rfl), hmissing⟩
      resultsNodup := by
        rw [List.map_append]
        refine h.resultsNodup.append (List.nodup_singleton _) fun other hother hsingle => ?_
        obtain rfl : other = index := List.mem_singleton.mp hsingle
        obtain ⟨result, hresult, rfl⟩ := List.mem_map.mp hother
        exact hunreported (h.results result hresult).1
      stored := fun other hother hstored => List.mem_append_left _ (h.stored other hother hstored)
      received := by
        intro other hother
        rcases List.mem_append.mp hother with hother | hother
        · refine (h.received other hother).imp_right ?_
          rintro ⟨frame, hmem⟩
          exact ⟨frame, List.mem_append_left _ hmem⟩
        · obtain rfl := List.mem_singleton.mp hother
          exact .inr ⟨frame, List.mem_append_right _ (List.mem_singleton.mpr rfl)⟩
      finished := by rintro - ⟨⟩ }

/-! ## The preview worker -/

/-- A result is taken out of the channel and put in its slot. -/
theorem Inv.store {result : ℕ × Option Frame} {results : List (ℕ × Option Frame)}
    (h : wallpapers.Inv count started) (hresults : wallpapers.wallpaperResults = result :: results) :
    Inv count started { wallpapers.store result with wallpaperResults := results } := by
  obtain ⟨hreported, -⟩ := h.results result (by rw [hresults]; exact List.mem_cons_self)
  have hresult : result.1 < count := by
    obtain ⟨hlt, -⟩ := List.getElem?_eq_some_iff.mp ((h.loads _).mp (h.reports _ hreported))
    rwa [h.decoded] at hlt
  have hmissing := fun index => missing_store h.frames h.failed hresult index
  have hnodup := h.resultsNodup
  rw [hresults, List.map_cons, List.nodup_cons] at hnodup
  exact { h with
    frames := by
      rw [← h.frames]
      exact List.length_set
    failed := by
      rw [← h.failed]
      exact List.length_set
    results := by
      intro other hother
      have hother' : other.1 ≠ result.1 := by
        intro heq
        exact hnodup.1 (heq ▸ List.mem_map_of_mem hother)
      obtain ⟨hmem, hstill⟩ := h.results other (by rw [hresults]; exact List.mem_cons_of_mem _ hother)
      refine ⟨hmem, ?_⟩
      have heq := hmissing other.1
      rw [if_neg hother'] at heq
      exact heq.trans hstill
    resultsNodup := hnodup.2
    stored := by
      intro index hindex hstored
      by_cases heq : index = result.1
      · rw [heq]
        exact hreported
      · have hold := hmissing index
        rw [if_neg heq] at hold
        exact h.stored index hindex (hold.symm.trans hstored)
    received := by
      intro index hindex
      by_cases heq : index = result.1
      · have hnow := hmissing index
        rw [if_pos heq] at hnow
        exact .inl hnow
      · have hold := hmissing index
        rw [if_neg heq] at hold
        refine (h.received index hindex).imp hold.trans ?_
        rintro ⟨frame, hmem⟩
        rw [hresults] at hmem
        rcases List.mem_cons.mp hmem with hhead | htail
        · exact absurd (congrArg Prod.fst hhead) heq
        · exact ⟨frame, htail⟩ }

/-- The preview goes on to where it does not wait. -/
theorem Inv.goOn (preview : PreviewPhase) (h : wallpapers.Inv count started)
    (hpresent : wallpapers.preview ≠ .exited) (hpending : ∀ request, preview = .waiting request ∨
      preview = .rendering request true → request.backgroundPreset < count) :
    Inv count started { wallpapers with preview } :=
  { h with
    reported := fun _ => h.reported hpresent
    finished := fun hstarted hexited _ => h.finished hstarted hexited hpresent
    pending := hpending }

theorem drain_cases (wallpapers : Wallpapers Frame) (request : WallpaperRequest) :
    (∃ result results, wallpapers.wallpaperResults = result :: results ∧
      wallpapers.drain request = { wallpapers.store result with wallpaperResults := results }) ∨
    wallpapers.drain request = { wallpapers with preview := .asking request } := by
  rw [drain]
  split
  · rename_i result results hresults
    exact .inl ⟨result, results, hresults, rfl⟩
  · exact .inr rfl

theorem Inv.drain {request : WallpaperRequest} (h : wallpapers.Inv count started)
    (hpreview : wallpapers.preview = .draining request) :
    (wallpapers.drain request).Inv count started := by
  rcases wallpapers.drain_cases request with ⟨result, results, hresults, heq⟩ | heq
  · rw [heq]
    exact h.store hresults
  · rw [heq]
    exact h.goOn _ (by simp [hpreview]) (by rintro _ (h | h) <;> cases h)

/-- What the preview asks for is missing. -/
theorem ask_cases (wallpapers : Wallpapers Frame) (request : WallpaperRequest) :
    (wallpapers.missing request.backgroundPreset = true ∧ wallpapers.ask request = { wallpapers with
      preview := .rendering request true
      wallpaperRequests :=
        if wallpapers.worker.phase = .exited then wallpapers.wallpaperRequests
        else wallpapers.wallpaperRequests ++ [request.backgroundPreset]
      asked := wallpapers.asked ++ [request.backgroundPreset] }) ∨
    wallpapers.ask request = { wallpapers with preview := .rendering request false } := by
  rw [ask]
  split
  · rename_i hasks
    exact .inl ⟨hasks.2, rfl⟩
  · exact .inr rfl

theorem Inv.ask {request : WallpaperRequest} (h : wallpapers.Inv count started)
    (hpreview : wallpapers.preview = .asking request) :
    (wallpapers.ask request).Inv count started := by
  have hpresent : wallpapers.preview ≠ .exited := by simp [hpreview]
  rcases wallpapers.ask_cases request with ⟨hmissing, heq⟩ | heq
  · rw [heq]
    have hindex : request.backgroundPreset < count := by
      obtain ⟨hframe, -⟩ := (missing_iff h.frames h.failed).mp hmissing
      obtain ⟨hlt, -⟩ := List.getElem?_eq_some_iff.mp hframe
      rwa [h.frames] at hlt
    exact { h with
      requests := by
        intro index hmem
        dsimp only at hmem
        split at hmem
        · exact h.requests index hmem
        · rcases List.mem_append.mp hmem with hmem | hmem
          · exact h.requests index hmem
          · rw [List.mem_singleton.mp hmem]
            exact hindex
      reported := fun _ => h.reported hpresent
      finished := fun hstarted hexited _ => h.finished hstarted hexited hpresent
      pending := by
        intro other hother
        rcases hother with hother | hother
        · cases hother
        · cases hother
          exact hindex }
  · rw [heq]
    exact h.goOn _ hpresent (by rintro _ (h | h) <;> cases h)

/-- What the preview does when it waits: it stores a result, or goes on to compose with the image, or without
it once the worker is gone and the channel empty. -/
theorem receive_cases {request : WallpaperRequest} (hreceive : wallpapers.receive request = some wallpapers') :
    (∃ result results, wallpapers.wallpaperResults = result :: results ∧
      wallpapers' = { wallpapers.store result with wallpaperResults := results }) ∨
    (wallpapers.missing request.backgroundPreset = false ∨
        wallpapers.wallpaperResults = [] ∧ wallpapers.worker.phase = .exited) ∧
      wallpapers' = { wallpapers with preview := .composing request } := by
  rw [receive] at hreceive
  split at hreceive
  · cases hresults : wallpapers.wallpaperResults with
    | cons result results =>
      rw [hresults] at hreceive
      exact .inl ⟨result, results, rfl, (Option.some.inj hreceive).symm⟩
    | nil =>
      rw [hresults] at hreceive
      dsimp only at hreceive
      split at hreceive
      · rename_i hexited
        exact .inr ⟨.inr ⟨rfl, hexited⟩, (Option.some.inj hreceive).symm⟩
      · cases hreceive
  · rename_i hstored
    exact .inr ⟨.inl (Bool.eq_false_iff.mpr hstored), (Option.some.inj hreceive).symm⟩

theorem Inv.receive {request : WallpaperRequest} (h : wallpapers.Inv count started)
    (hpreview : wallpapers.preview = .waiting request)
    (hreceive : wallpapers.receive request = some wallpapers') : wallpapers'.Inv count started := by
  rcases receive_cases hreceive with ⟨result, results, hresults, rfl⟩ | ⟨-, rfl⟩
  · exact h.store hresults
  · exact h.goOn (.composing request) (by simp [hpreview]) (by rintro _ (h | h) <;> cases h)

/-! ## Runs -/

theorem initial_inv (Frame : Type) (count : ℕ) (started : Bool) :
    (initial Frame count started).Inv count started where
  decoded := List.length_replicate
  frames := List.length_replicate
  failed := List.length_replicate
  requests := by rintro _ ⟨⟩
  loads := by
    intro index
    simp [initial, List.getElem?_replicate]
  loadsNodup := List.nodup_nil
  decoding := by
    intro index hphase
    cases started with
    | false => cases hphase
    | true => cases hphase
  preload := fun index hlt => absurd hlt (Nat.not_lt_zero index)
  reports := by rintro _ ⟨⟩
  reportsNodup := List.nodup_nil
  reported := fun _ => rfl
  results := by rintro _ ⟨⟩
  resultsNodup := List.nodup_nil
  stored := by
    intro index hindex hstored
    have hmissing : (initial Frame count started).missing index = true :=
      (missing_iff List.length_replicate List.length_replicate).mpr
        ⟨by simp [initial, hindex], by simp [initial, hindex]⟩
    rw [hmissing] at hstored
    cases hstored
  received := by rintro _ ⟨⟩
  finished := by
    rintro rfl ⟨⟩
  pending := by rintro _ (h | h) <;> cases h

/-- What a step needs and what it leaves. -/
theorem step_spec {label : WallpaperStep Frame} (hstep : wallpapers.step label = some wallpapers') :
    match label with
    | .choose => wallpapers.worker.phase = .choosing ∧ wallpapers' = wallpapers.choose
    | .decode frame => ∃ index, wallpapers.worker.phase = .decoding index ∧
        wallpapers' = wallpapers.decode index frame
    | .request request => wallpapers.preview = .idle ∧
        wallpapers' = { wallpapers with preview := .draining request }
    | .drain => ∃ request, wallpapers.preview = .draining request ∧
        wallpapers' = wallpapers.drain request
    | .ask => ∃ request, wallpapers.preview = .asking request ∧ wallpapers' = wallpapers.ask request
    | .content rendered => ∃ request wallpaperPending,
        wallpapers.preview = .rendering request wallpaperPending ∧
        wallpapers' = { wallpapers with
          preview := if !rendered then .idle else if wallpaperPending then .waiting request
            else .composing request }
    | .receive => ∃ request, wallpapers.preview = .waiting request ∧
        wallpapers.receive request = some wallpapers'
    | .compose sent => ∃ request, wallpapers.preview = .composing request ∧
        wallpapers' = { wallpapers with preview := if sent then .idle else .exited }
    | .close => wallpapers.preview = .idle ∧ wallpapers' = { wallpapers with preview := .exited } := by
  cases label with
  | choose | request _ | close =>
    obtain ⟨hguard, hnext⟩ := Option.ite_none_right_eq_some.mp hstep
    exact ⟨hguard, (Option.some.inj hnext).symm⟩
  | decode _ | drain | ask | compose _ =>
    rw [step] at hstep
    split at hstep
    · rename_i hphase
      exact ⟨_, hphase, (Option.some.inj hstep).symm⟩
    · cases hstep
  | content _ =>
    rw [step] at hstep
    split at hstep
    · rename_i hpreview
      exact ⟨_, _, hpreview, (Option.some.inj hstep).symm⟩
    · cases hstep
  | receive =>
    rw [step] at hstep
    split at hstep
    · rename_i hpreview
      exact ⟨_, hpreview, hstep⟩
    · cases hstep

theorem Inv.step {label : WallpaperStep Frame} (h : wallpapers.Inv count started)
    (hstep : wallpapers.step label = some wallpapers') : wallpapers'.Inv count started := by
  have hspec := step_spec hstep
  cases label with
  | choose =>
    obtain ⟨hphase, rfl⟩ := hspec
    exact h.choose hphase
  | decode frame =>
    obtain ⟨index, hphase, rfl⟩ := hspec
    exact h.decode hphase frame
  | request request =>
    obtain ⟨hpreview, rfl⟩ := hspec
    exact h.goOn (.draining request) (by simp [hpreview]) (by rintro _ (h | h) <;> cases h)
  | drain =>
    obtain ⟨request, hpreview, rfl⟩ := hspec
    exact h.drain hpreview
  | ask =>
    obtain ⟨request, hpreview, rfl⟩ := hspec
    exact h.ask hpreview
  | content rendered =>
    obtain ⟨request, wallpaperPending, hpreview, rfl⟩ := hspec
    refine h.goOn _ (by simp [hpreview]) fun other hother => ?_
    -- only a preview that waits has a preset to answer for, the one it was rendering
    cases rendered with
    | false => rcases hother with hother | hother <;> cases hother
    | true =>
      cases wallpaperPending with
      | false => rcases hother with hother | hother <;> cases hother
      | true =>
        rcases hother with hother | hother
        · obtain rfl : request = other := PreviewPhase.waiting.inj hother
          exact h.pending request (.inr hpreview)
        · cases hother
  | receive =>
    obtain ⟨request, hpreview, hreceive⟩ := hspec
    exact h.receive hpreview hreceive
  | compose sent =>
    obtain ⟨request, hpreview, rfl⟩ := hspec
    have hpresent : wallpapers.preview ≠ .exited := by simp [hpreview]
    cases sent with
    | true => exact h.goOn .idle hpresent (by rintro _ (h | h) <;> cases h)
    | false => exact h.goOn .exited hpresent (by rintro _ (h | h) <;> cases h)
  | close =>
    obtain ⟨hpreview, rfl⟩ := hspec
    exact h.goOn .exited (by simp [hpreview]) (by rintro _ (h | h) <;> cases h)

theorem reachable_inv (h : (wallpaperWorkers Frame count started).Reachable wallpapers) :
    wallpapers.Inv count started := by
  refine h.invariant ?_ fun wallpapers label wallpapers' hinv hstep => hinv.step hstep
  rintro _ rfl
  exact initial_inv Frame count started

end Wallpapers

end Blip.Capture
