import Blip.Server.Calls
import Blip.Server.World

/-!
# Uploads under concurrency

Any number of `complete`, `abort`, `signPart` and `signAsset` requests interleaved, call by call. A
request's knowledge of the record it has read is `Known`: the row is still there but for its status,
or it is gone and nothing can complete any more. `abort` deletes a row only with the second half in
hand, `complete` marks one only once the object exists, and the two exclude each other.
-/

namespace Blip.Server

section

variable (storageConfigOf : String → Option StorageConfig)

/-- The main object of a recording exists. -/
def MainObject (video : VideoRecord) (s : World) : Prop :=
  ∃ config, storageConfigOf video.storageConfig = some config ∧ s.HasObject config video.objectKey

/-- No upload of the recording has completed, and none is running. -/
def Abandoned (video : VideoRecord) (s : World) : Prop :=
  ∀ config uploadId, storageConfigOf video.storageConfig = some config →
    s.uploads config video.objectKey uploadId = none ∨
      s.uploads config video.objectKey uploadId = some .aborted

/-- The database agrees with the storage: rows stand under their ids, complete recordings have their
object, and a recording's key is used by its own upload only. -/
structure UploadsConsistent (s : World) : Prop where
  keyed : ∀ id row, s.videos id = some row → row.id = id
  completed : ∀ id row, s.videos id = some row → row.status = .complete →
    MainObject storageConfigOf row.toVideoRecord s
  own : ∀ id row config uploadId, s.videos id = some row →
    storageConfigOf row.storageConfig = some config →
    s.uploads config row.objectKey uploadId ≠ none → uploadId = row.uploadId

/-- What the requests may do between them: uploads start nowhere and end once, rows change only from
uploading to complete, and a row disappears only with nothing left to complete. -/
structure UploadsEvolve (s s' : World) : Prop where
  unused : ∀ config key uploadId, s.uploads config key uploadId = none →
    s'.uploads config key uploadId = none
  ended : ∀ config key uploadId phase, s.uploads config key uploadId = some phase →
    phase ≠ .started → s'.uploads config key uploadId = some phase
  rows : ∀ id row', s'.videos id = some row' → ∃ row, s.videos id = some row ∧
    (row' = row ∨ row' = { row with status := .complete })
  deleted : ∀ id row, s.videos id = some row → s'.videos id = none →
    Abandoned storageConfigOf row.toVideoRecord s'

/-- What a request still knows of a record it has read. -/
def Known (video : VideoRecord) (s : World) : Prop :=
  (∃ row, s.videos video.id = some row ∧
    { row.toVideoRecord with status := video.status } = video) ∨
    s.videos video.id = none ∧ Abandoned storageConfigOf video s

/-- The recording is stored and complete. -/
def StoredComplete (id : String) (s : World) : Prop :=
  ∃ row, s.videos id = some row ∧ row.status = .complete

end

section

variable {storageConfigOf : String → Option StorageConfig} {video : VideoRecord} {s s' : World}

theorem UploadsEvolve.refl (s : World) : UploadsEvolve storageConfigOf s s where
  unused _ _ _ h := h
  ended _ _ _ _ h _ := h
  rows _ row' h := ⟨row', h, .inl rfl⟩
  deleted _ _ h h' := absurd (h.symm.trans h') (by simp)

/-- A recording with its object is not abandoned. -/
theorem MainObject.not_abandoned (h : MainObject storageConfigOf video s) :
    ¬ Abandoned storageConfigOf video s := by
  intro habandoned
  obtain ⟨config, hconfig, uploadId, hupload⟩ := h
  rcases habandoned config uploadId hconfig with hnone | haborted
  · exact absurd (hupload.symm.trans hnone) (by simp)
  · exact absurd (hupload.symm.trans haborted) (by simp)

theorem MainObject.evolve (h : MainObject storageConfigOf video s)
    (hevolve : UploadsEvolve storageConfigOf s s') : MainObject storageConfigOf video s' := by
  obtain ⟨config, hconfig, uploadId, hupload⟩ := h
  exact ⟨config, hconfig, uploadId, hevolve.ended _ _ _ _ hupload (by decide)⟩

theorem Abandoned.evolve (h : Abandoned storageConfigOf video s)
    (hevolve : UploadsEvolve storageConfigOf s s') : Abandoned storageConfigOf video s' := by
  intro config uploadId hconfig
  rcases h config uploadId hconfig with hnone | haborted
  · exact .inl (hevolve.unused _ _ _ hnone)
  · exact .inr (hevolve.ended _ _ _ _ haborted (by decide))

theorem Known.evolve (h : Known storageConfigOf video s)
    (hevolve : UploadsEvolve storageConfigOf s s') : Known storageConfigOf video s' := by
  rcases h with ⟨row, hrow, hvideo⟩ | ⟨hnone, habandoned⟩
  · cases hrow' : s'.videos video.id with
    | none =>
      refine .inr ⟨hrow', ?_⟩
      have := hevolve.deleted _ _ hrow hrow'
      rw [← hvideo]
      exact this
    | some row' =>
      obtain ⟨row₀, hrow₀, heq⟩ := hevolve.rows _ _ hrow'
      obtain rfl : row = row₀ := Option.some_inj.mp (hrow.symm.trans hrow₀)
      refine .inl ⟨row', hrow', ?_⟩
      rcases heq with rfl | rfl
      · exact hvideo
      · exact hvideo
  · refine .inr ⟨?_, habandoned.evolve hevolve⟩
    by_contra hsome
    obtain ⟨row', hrow'⟩ := Option.ne_none_iff_exists'.mp hsome
    obtain ⟨row, hrow, -⟩ := hevolve.rows _ _ hrow'
    exact absurd (hrow.symm.trans hnone) (by simp)

/-- A complete recording stays. -/
theorem StoredComplete.evolve {id : String} (h : StoredComplete id s)
    (hs : UploadsConsistent storageConfigOf s) (hevolve : UploadsEvolve storageConfigOf s s') :
    StoredComplete id s' := by
  obtain ⟨row, hrow, hcomplete⟩ := h
  cases hrow' : s'.videos id with
  | none =>
    have hobject := (hs.completed _ _ hrow hcomplete).evolve hevolve
    exact absurd (hevolve.deleted _ _ hrow hrow') hobject.not_abandoned
  | some row' =>
    obtain ⟨row₀, hrow₀, heq⟩ := hevolve.rows _ _ hrow'
    obtain rfl : row = row₀ := Option.some_inj.mp (hrow.symm.trans hrow₀)
    rcases heq with rfl | rfl
    · exact ⟨row', hrow', hcomplete⟩
    · exact ⟨_, hrow', rfl⟩

/-- Ending a running upload. -/
theorem setUpload_evolve {config : StorageConfig} {key uploadId : String} {phase : UploadPhase}
    (hstarted : s.uploads config key uploadId = some .started) :
    UploadsEvolve storageConfigOf s (s.setUpload config key uploadId phase) where
  unused config' key' uploadId' h := by
    by_cases heq : config' = config ∧ key' = key ∧ uploadId' = uploadId
    · obtain ⟨rfl, rfl, rfl⟩ := heq
      exact absurd (hstarted.symm.trans h) (by simp)
    · simp only [World.setUpload, if_neg heq, h]
  ended config' key' uploadId' phase' h hne := by
    by_cases heq : config' = config ∧ key' = key ∧ uploadId' = uploadId
    · obtain ⟨rfl, rfl, rfl⟩ := heq
      exact absurd (Option.some_inj.mp (hstarted.symm.trans h)).symm hne
    · simp only [World.setUpload, if_neg heq, h]
  rows _ row' h := ⟨row', h, .inl rfl⟩
  deleted _ _ h h' := absurd (h.symm.trans h') (by simp)

/-- Steps that leave the rows alone keep the database and the storage in agreement. -/
theorem UploadsConsistent.evolve (hs : UploadsConsistent storageConfigOf s)
    (hevolve : UploadsEvolve storageConfigOf s s') (hvideos : s'.videos = s.videos) :
    UploadsConsistent storageConfigOf s' where
  keyed id row h := hs.keyed id row (hvideos ▸ h)
  completed id row h hcomplete := (hs.completed id row (hvideos ▸ h) hcomplete).evolve hevolve
  own id row config uploadId h hconfig hne :=
    hs.own id row config uploadId (hvideos ▸ h) hconfig
      (mt (hevolve.unused config row.objectKey uploadId) hne)

/-- Marking a recording complete once its object exists. -/
theorem markComplete_step (hs : UploadsConsistent storageConfigOf s)
    (hknown : Known storageConfigOf video s) (hobject : MainObject storageConfigOf video s) :
    let s' := s.updateVideo video.id fun row => { row with status := .complete }
    UploadsConsistent storageConfigOf s' ∧ UploadsEvolve storageConfigOf s s' ∧
      StoredComplete video.id s' := by
  obtain ⟨row, hrow, hvideo⟩ := hknown.resolve_right fun h => hobject.not_abandoned h.2
  intro s'
  have hrow' : s'.videos video.id = some { row with status := .complete } := by
    simp [s', World.updateVideo, hrow]
  have hother : ∀ id, id ≠ video.id → s'.videos id = s.videos id := by
    intro id hid
    simp [s', World.updateVideo, hid]
  refine ⟨⟨?_, ?_, ?_⟩, ⟨fun _ _ _ h => h, fun _ _ _ _ h _ => h, ?_, ?_⟩, ?_⟩
  · intro id row₁ h
    by_cases hid : id = video.id
    · subst hid
      obtain rfl := Option.some_inj.mp (hrow'.symm.trans h)
      exact hs.keyed _ row hrow
    · exact hs.keyed id row₁ (hother id hid ▸ h)
  · intro id row₁ h hcomplete
    by_cases hid : id = video.id
    · subst hid
      obtain rfl := Option.some_inj.mp (hrow'.symm.trans h)
      rw [← hvideo] at hobject
      exact hobject
    · exact hs.completed id row₁ (hother id hid ▸ h) hcomplete
  · intro id row₁ config uploadId h hconfig hne
    by_cases hid : id = video.id
    · subst hid
      obtain rfl := Option.some_inj.mp (hrow'.symm.trans h)
      exact hs.own _ row config uploadId hrow hconfig hne
    · exact hs.own id row₁ config uploadId (hother id hid ▸ h) hconfig hne
  · intro id row₁ h
    by_cases hid : id = video.id
    · subst hid
      obtain rfl := Option.some_inj.mp (hrow'.symm.trans h)
      exact ⟨row, hrow, .inr rfl⟩
    · exact ⟨row₁, hother id hid ▸ h, .inl rfl⟩
  · intro id row₁ h hnone
    by_cases hid : id = video.id
    · subst hid
      exact absurd (hrow'.symm.trans hnone) (by simp)
    · exact absurd (h.symm.trans (hother id hid ▸ hnone)) (by simp)
  · exact ⟨_, hrow', rfl⟩

/-- Deleting an abandoned recording. -/
theorem deleteVideo_step (hs : UploadsConsistent storageConfigOf s)
    (hknown : Known storageConfigOf video s) (habandoned : Abandoned storageConfigOf video s) :
    UploadsConsistent storageConfigOf (s.deleteVideo video.id) ∧
      UploadsEvolve storageConfigOf s (s.deleteVideo video.id) := by
  have hkeep : ∀ id row, (s.deleteVideo video.id).videos id = some row →
      s.videos id = some row := by
    intro id row h
    by_cases hid : id = video.id
    · simp [World.deleteVideo, hid] at h
    · simpa [World.deleteVideo, hid] using h
  refine ⟨⟨fun id row h => hs.keyed id row (hkeep id row h),
      fun id row h => hs.completed id row (hkeep id row h),
      fun id row config uploadId h => hs.own id row config uploadId (hkeep id row h)⟩,
    ⟨fun _ _ _ h => h, fun _ _ _ _ h _ => h, fun id row h => ⟨row, hkeep id row h, .inl rfl⟩, ?_⟩⟩
  intro id row h hnone
  by_cases hid : id = video.id
  · subst hid
    rcases hknown with ⟨row₀, hrow₀, hvideo⟩ | ⟨hgone, -⟩
    · obtain rfl : row = row₀ := Option.some_inj.mp (h.symm.trans hrow₀)
      rw [← hvideo] at habandoned
      exact habandoned
    · exact absurd (h.symm.trans hgone) (by simp)
  · simp [World.deleteVideo, hid, h] at hnone

end

/-! ## The requests -/

section

variable {storageConfigOf : String → Option StorageConfig} {video : VideoRecord}

variable (storageConfigOf) in
/-- Rely-guarantee reasoning for the upload requests. -/
abbrev UploadValid {ε α : Type} (P : World → Prop) (effect : Effect ε α) (Q : α → World → Prop) :
    Prop :=
  Fallible.Valid (Call.exec storageConfigOf) (UploadsConsistent storageConfigOf)
    (UploadsEvolve storageConfigOf) (UploadsEvolve storageConfigOf) P effect Q fun _ _ => True

variable (storageConfigOf) in
/-- A fact the other requests keep. -/
abbrev UploadStable (P : World → Prop) : Prop :=
  Stable (UploadsConsistent storageConfigOf) (UploadsEvolve storageConfigOf) P

theorem Known.stable (video : VideoRecord) :
    UploadStable storageConfigOf (Known storageConfigOf video) :=
  fun _ _ _ _ hevolve h => h.evolve hevolve

theorem MainObject.stable (video : VideoRecord) :
    UploadStable storageConfigOf (MainObject storageConfigOf video) :=
  fun _ _ _ _ hevolve h => h.evolve hevolve

theorem Abandoned.stable (video : VideoRecord) :
    UploadStable storageConfigOf (Abandoned storageConfigOf video) :=
  fun _ _ _ _ hevolve h => h.evolve hevolve

theorem StoredComplete.stable (id : String) :
    UploadStable storageConfigOf (StoredComplete id) :=
  fun _ _ hs _ hevolve h => h.evolve hs hevolve

/-- The record a request acts on. -/
private theorem requireOwnedVideo_valid (userId id : String) :
    UploadValid storageConfigOf (fun _ => True) (requireOwnedVideo userId id) fun video s =>
      video.id = id ∧ Known storageConfigOf video s ∧
        (video.status = .complete → StoredComplete id s) := by
  have hread : UploadValid storageConfigOf (fun _ => True)
      (internal (Repository.findOwnedVideo userId id)) fun found s =>
        ∀ video, found = some video → video.id = id ∧ Known storageConfigOf video s ∧
          (video.status = .complete → StoredComplete id s) := by
    refine .mapError (Valid.ask ?_ ?_)
    · rintro (e | found)
      · exact .const True
      · intro s s' hs _ hevolve h video hvideo
        obtain ⟨hid, hknown, hcomplete⟩ := h video hvideo
        exact ⟨hid, hknown.evolve hevolve, fun hc => (hcomplete hc).evolve hs hevolve⟩
    · rintro s answer s' hs - ⟨rfl, hvalue⟩
      refine ⟨hs, .refl s', ?_⟩
      rcases answer with e | found
      · trivial
      · rintro video rfl
        obtain ⟨row, hrow, rfl⟩ := Option.map_eq_some_iff.mp (hvalue _ rfl).symm
        obtain ⟨hrow, -⟩ := Option.filter_eq_some_iff.mp hrow
        have hid := hs.keyed _ row hrow
        exact ⟨hid, .inl ⟨row, hid ▸ hrow, rfl⟩, fun hc => ⟨row, hrow, hc⟩⟩
  refine .bind hread fun found => ?_
  cases found with
  | none => exact .throw fun _ _ _ => trivial
  | some video => exact .pure fun s _ h => h video rfl

private theorem decodeStorage_valid {P : World → Prop} (hP : UploadStable storageConfigOf P)
    (encrypted : String) :
    UploadValid storageConfigOf P (decodeStorage encrypted) fun config s =>
      storageConfigOf encrypted = some config ∧ P s := by
  refine .mapError (Valid.ask ?_ ?_)
  · rintro (e | config)
    · exact .const True
    · exact (Stable.const _).and hP
  · rintro s answer s' hs hp ⟨rfl, hvalue⟩
    refine ⟨hs, .refl s', ?_⟩
    rcases answer with e | config
    · trivial
    · exact ⟨hvalue config rfl, hp⟩

private theorem objectExists_valid {config : StorageConfig}
    (hconfig : storageConfigOf video.storageConfig = some config) :
    UploadValid storageConfigOf (Known storageConfigOf video)
      (ObjectStorage.objectExists config video.objectKey) fun found s =>
        Known storageConfigOf video s ∧ (found = true → MainObject storageConfigOf video s) := by
  have hhead : Fallible.Valid (Call.exec storageConfigOf) (UploadsConsistent storageConfigOf)
      (UploadsEvolve storageConfigOf) (UploadsEvolve storageConfigOf) (Known storageConfigOf video)
      (ExceptT.mk (Prog.ask (Call.headObject config video.objectKey)) : Effect S3Error Unit)
      (fun _ s => Known storageConfigOf video s ∧ MainObject storageConfigOf video s)
      fun _ => Known storageConfigOf video := by
    refine Valid.ask ?_ ?_
    · rintro (e | _)
      · exact Known.stable video
      · exact (Known.stable video).and (MainObject.stable video)
    · rintro s answer s' hs hknown ⟨rfl, hfound, -⟩
      refine ⟨hs, .refl s', ?_⟩
      rcases answer with e | _
      · exact hknown
      · exact ⟨hknown, config, hconfig, hfound rfl⟩
  refine .mapError (.catchAll (.bind hhead fun _ => .pure fun s _ h => ⟨h.1, fun _ => h.2⟩) ?_)
  rintro (_ | message)
  · exact .pure fun s _ h => ⟨h, by simp⟩
  · exact .throw fun _ _ _ => trivial

/-- A completion that succeeds, or is reconciled, leaves the object there. -/
private theorem completeOrReconcile_valid {config : StorageConfig}
    (hconfig : storageConfigOf video.storageConfig = some config) (parts : List Part) :
    UploadValid storageConfigOf (Known storageConfigOf video)
      (completeOrReconcile config video parts) fun _ s =>
        Known storageConfigOf video s ∧ MainObject storageConfigOf video s := by
  have hcomplete : Fallible.Valid (Call.exec storageConfigOf) (UploadsConsistent storageConfigOf)
      (UploadsEvolve storageConfigOf) (UploadsEvolve storageConfigOf) (Known storageConfigOf video)
      (completeUpload config video.objectKey video.uploadId parts)
      (fun _ s => Known storageConfigOf video s ∧ MainObject storageConfigOf video s)
      fun _ => Known storageConfigOf video := by
    refine .mapError (Valid.ask ?_ ?_)
    · rintro (e | _)
      · exact Known.stable video
      · exact (Known.stable video).and (MainObject.stable video)
    · intro s answer s' hs hknown hexec
      simp only [Call.exec] at hexec
      split at hexec
      · next hstarted =>
        have hevolve : UploadsEvolve storageConfigOf s
            (s.setUpload config video.objectKey video.uploadId .completed) := setUpload_evolve hstarted
        rcases hexec with rfl | ⟨rfl, e, rfl⟩
        · refine ⟨hs.evolve hevolve rfl, hevolve, ?_⟩
          rcases answer with e | _
          · exact hknown.evolve hevolve
          · exact ⟨hknown.evolve hevolve, config, hconfig, video.uploadId, by
              simp [World.setUpload]⟩
        · exact ⟨hs, .refl s', hknown⟩
      · next hcompleted =>
        subst hexec
        refine ⟨hs, .refl s', ?_⟩
        rcases answer with e | _
        · exact hknown
        · exact ⟨hknown, config, hconfig, video.uploadId, hcompleted⟩
      · obtain ⟨rfl, e, rfl⟩ := hexec
        exact ⟨hs, .refl s', hknown⟩
  refine .catchAll hcomplete fun _ => .bind (objectExists_valid hconfig) ?_
  rintro (_ | _)
  · exact .throw fun _ _ _ => trivial
  · exact .pure fun _ _ h => ⟨h.1, h.2 rfl⟩

private theorem markVideoComplete_valid :
    UploadValid storageConfigOf
      (fun s => Known storageConfigOf video s ∧ MainObject storageConfigOf video s)
      (internal (Repository.markVideoComplete video.id)) fun _ => StoredComplete video.id := by
  refine .mapError (Valid.ask ?_ ?_)
  · rintro (e | _)
    · exact .const True
    · exact StoredComplete.stable video.id
  · rintro s answer s' hs ⟨hknown, hobject⟩ (rfl | ⟨rfl, e, rfl⟩)
    · obtain ⟨hs', hevolve, hstored⟩ := markComplete_step hs hknown hobject
      refine ⟨hs', hevolve, ?_⟩
      rcases answer with e | _
      · trivial
      · exact hstored
    · exact ⟨hs, .refl s', trivial⟩

/-- Aborting an upload leaves nothing that could complete. -/
private theorem abortUpload_valid {config : StorageConfig}
    (hconfig : storageConfigOf video.storageConfig = some config) :
    UploadValid storageConfigOf (Known storageConfigOf video)
      (unavailable (ObjectStorage.abortUpload config video.objectKey video.uploadId)) fun _ s =>
        Known storageConfigOf video s ∧ Abandoned storageConfigOf video s := by
  have hothers : ∀ s, UploadsConsistent storageConfigOf s → Known storageConfigOf video s →
      (s.uploads config video.objectKey video.uploadId = none ∨
        s.uploads config video.objectKey video.uploadId = some .aborted) →
      Abandoned storageConfigOf video s := by
    rintro s hs (⟨row, hrow, hvideo⟩ | ⟨-, habandoned⟩) hupload
    · intro config' uploadId' hconfig'
      obtain rfl : config = config' := Option.some_inj.mp (hconfig.symm.trans hconfig')
      by_cases hid : uploadId' = video.uploadId
      · rw [hid]
        exact hupload
      · left
        by_contra hne
        refine hid ?_
        rw [← hvideo] at hne hconfig ⊢
        exact hs.own _ row config uploadId' hrow hconfig hne
    · exact habandoned
  refine .mapError (.mapError (Valid.ask ?_ ?_))
  · rintro (e | _)
    · exact .const True
    · exact (Known.stable video).and (Abandoned.stable video)
  · intro s answer s' hs hknown hexec
    simp only [Call.exec] at hexec
    split at hexec
    · next hstarted =>
      have hevolve : UploadsEvolve storageConfigOf s
          (s.setUpload config video.objectKey video.uploadId .aborted) := setUpload_evolve hstarted
      rcases hexec with rfl | ⟨rfl, e, rfl⟩
      · refine ⟨hs.evolve hevolve rfl, hevolve, ?_⟩
        rcases answer with e | _
        · trivial
        · exact ⟨hknown.evolve hevolve, hothers _ (hs.evolve hevolve rfl) (hknown.evolve hevolve)
            (.inr (by simp [World.setUpload]))⟩
      · exact ⟨hs, .refl s', trivial⟩
    · obtain ⟨rfl, e, rfl⟩ := hexec
      exact ⟨hs, .refl s', trivial⟩
    · next hstarted hcompleted =>
      subst hexec
      refine ⟨hs, .refl s', ?_⟩
      rcases answer with e | _
      · trivial
      · refine ⟨hknown, hothers s' hs hknown ?_⟩
        cases hphase : s'.uploads config video.objectKey video.uploadId with
        | none => exact .inl rfl
        | some phase =>
          cases phase with
          | started => exact absurd hphase hstarted
          | completed => exact absurd hphase hcompleted
          | aborted => exact .inr rfl

private theorem deleteVideo_valid :
    UploadValid storageConfigOf
      (fun s => Known storageConfigOf video s ∧ Abandoned storageConfigOf video s)
      (internal (Repository.deleteVideo video.id)) fun _ _ => True := by
  refine .mapError (Valid.ask ?_ ?_)
  · rintro (e | _) <;> exact .const True
  · rintro s answer s' hs ⟨hknown, habandoned⟩ (rfl | ⟨rfl, e, rfl⟩)
    · obtain ⟨hs', hevolve⟩ := deleteVideo_step hs hknown habandoned
      refine ⟨hs', hevolve, ?_⟩
      rcases answer with e | _ <;> trivial
    · exact ⟨hs, .refl s', trivial⟩

/-- A `complete` that succeeds leaves the recording complete. -/
theorem complete_valid (publicOrigin : String) (user : CurrentUser) (id uploadId : String)
    (parts : List Part) :
    UploadValid storageConfigOf (fun _ => True) (complete publicOrigin user id uploadId parts)
      fun _ => StoredComplete id := by
  refine .bind (requireOwnedVideo_valid user.id id) fun video => .assume ?_
  rintro rfl
  split
  · exact .throw fun _ _ _ => trivial
  split
  · next hcomplete => exact .pure fun _ _ h => h.2 hcomplete
  split
  · exact .throw fun _ _ _ => trivial
  refine .weaken (P := Known storageConfigOf video) ?_ (fun _ _ h => h.1) (fun _ _ _ h => h)
    fun _ _ _ h => h
  refine .bind (decodeStorage_valid (Known.stable video) _) fun config => .assume fun hconfig => ?_
  refine .bind (.mapError (completeOrReconcile_valid hconfig parts)) fun _ => ?_
  exact .bind markVideoComplete_valid fun _ => .pure fun _ _ h => h

/-- An `abort` deletes only a recording that can no longer complete. -/
theorem abort_valid (user : CurrentUser) (id uploadId : String) :
    UploadValid storageConfigOf (fun _ => True) (abort user id uploadId) fun _ _ => True := by
  refine .bind (requireOwnedVideo_valid user.id id) fun video => ?_
  split
  · exact .throw fun _ _ _ => trivial
  refine .weaken (P := Known storageConfigOf video) ?_ (fun _ _ h => h.2.1) (fun _ _ _ h => h)
    fun _ _ _ h => h
  refine .bind (decodeStorage_valid (Known.stable video) _) fun config => .assume fun hconfig => ?_
  exact .bind (abortUpload_valid hconfig) fun _ => deleteVideo_valid

/-! ## Signing -/

/-- The calls that sign a URL. -/
def Call.signs : Call → Prop
  | presignUrl _ => True
  | _ => False

/-- The calls that read a record. -/
def Call.readsRecord : Call → Prop
  | findOwnedVideo _ _ => True
  | _ => False

/-- A read of a record that does not answer an uploading one. -/
def Call.SawNoUpload : (c : Call) → c.Answer → Prop
  | findOwnedVideo _ _, answer => ∀ video, answer = .ok (some video) → video.status = .complete
  | _, _ => False

theorem Call.ofCompletion.not_signs : ∀ c : Call, c.ofCompletion → ¬ c.signs
  | .presignUrl _, h => h.elim
  | .findOwnedVideo _ _, _ | .decrypt _, _ | .completeMultipartUpload _ _ _ _, _
  | .headObject _ _, _ | .markVideoComplete _, _ => not_false

theorem Call.ofAbortion.not_signs : ∀ c : Call, c.ofAbortion → ¬ c.signs
  | .presignUrl _, h => h.elim
  | .findOwnedVideo _ _, _ | .decrypt _, _ | .abortMultipartUpload _ _ _, _
  | .deleteVideo _, _ => not_false

/-- A handler that signs only for an uploading record never signs after a read that missed it. -/
theorem requireOwnedVideo_avoidsAfter {α : Type} {f : VideoRecord → Effect HttpError α}
    (userId id : String)
    (hcomplete : ∀ video, video.status = .complete → Fallible.Avoids Call.signs (f video))
    (hreads : ∀ video, Fallible.Avoids Call.readsRecord (f video)) :
    Prog.AvoidsAfter Call.SawNoUpload Call.signs (requireOwnedVideo userId id >>= f).run := by
  have hseen : ∀ c r, Call.SawNoUpload c r → Call.readsRecord c := by
    intro c r h
    cases c <;> first | exact trivial | exact h.elim
  rintro (e | _ | video)
  · exact ⟨fun _ => trivial, trivial⟩
  · exact ⟨fun _ => trivial, trivial⟩
  · exact ⟨fun h => hcomplete video (h video rfl), (hreads video).unseen hseen⟩

private theorem signing_valid {ε α : Type} {effect : Effect ε α}
    (h : CallsOnly Call.ofSigning effect) :
    UploadValid storageConfigOf (fun _ => True) effect fun _ _ => True := by
  refine (Valid.of_avoids h ?_).weaken (fun _ _ h => h) ?_
  · intro s c answer s' hread hs hexec
    have hs' : s' = s := by
      cases c with
      | findOwnedVideo userId id => exact hexec.1
      | decrypt value => exact hexec.1
      | presignUrl request => exact hexec.1
      | _ => exact absurd id hread
    subst hs'
    exact ⟨hs, .refl s'⟩
  · rintro (e | a) _ _ _ <;> trivial

private theorem signPart_avoidsAfter (user : CurrentUser) (id uploadId : String)
    (partNumber : ℕ) :
    Prog.AvoidsAfter Call.SawNoUpload Call.signs (signPart user id uploadId partNumber).run := by
  refine requireOwnedVideo_avoidsAfter user.id id ?_ ?_
  · intro video hcomplete
    rw [if_pos (.inr (by simp [hcomplete]))]
    exact .throw _
  · intro video
    split
    · exact .throw _
    · refine CallsOnly.avoids (.bind (callsOnly_decodeStorage _ not_false) fun config => ?_)
        fun _ h => h
      exact .mapError (callsOnly_presign _ _ _ _ _ fun _ => not_false)

private theorem signAsset_avoidsAfter (user : CurrentUser) (id uploadId name : String) :
    Prog.AvoidsAfter Call.SawNoUpload Call.signs (signAsset user id uploadId name).run := by
  refine requireOwnedVideo_avoidsAfter user.id id ?_ ?_
  · intro video hcomplete
    rw [if_pos (.inr (.inl (by simp [hcomplete])))]
    exact .throw _
  · intro video
    split
    · exact .throw _
    split
    · exact .throw _
    · refine CallsOnly.avoids (.bind (callsOnly_decodeStorage _ not_false) fun config => ?_)
        fun _ h => h
      exact .bind (.mapError (callsOnly_presign _ _ _ _ _ fun _ => not_false)) fun _ => .pure _

end

/-! ## Every interleaving -/

/-- A request on an upload. -/
inductive UploadRequest
  | complete (user : CurrentUser) (id uploadId : String) (parts : List Part)
  | abort (user : CurrentUser) (id uploadId : String)
  | signPart (user : CurrentUser) (id uploadId : String) (partNumber : ℕ)
  | signAsset (user : CurrentUser) (id uploadId name : String)

/-- What a request on an upload answers. -/
inductive UploadResponse
  | completed (viewerUrl : String)
  | aborted
  | signedPart (url : String)
  | signedAsset (url contentType : String)

def UploadRequest.handle (publicOrigin : String) :
    UploadRequest → Prog Call Call.Answer (Except HttpError UploadResponse)
  | complete user id uploadId parts =>
    (Blip.Server.complete publicOrigin user id uploadId parts).run >>= fun result =>
      .done (result.map UploadResponse.completed)
  | abort user id uploadId =>
    (Blip.Server.abort user id uploadId).run >>= fun result =>
      .done (result.map fun _ => UploadResponse.aborted)
  | signPart user id uploadId partNumber =>
    (Blip.Server.signPart user id uploadId partNumber).run >>= fun result =>
      .done (result.map UploadResponse.signedPart)
  | signAsset user id uploadId name =>
    (Blip.Server.signAsset user id uploadId name).run >>= fun result =>
      .done (result.map fun signed => UploadResponse.signedAsset signed.1 signed.2)

/-- Upload requests arriving and running concurrently, from any consistent state. -/
def uploadPool (storageConfigOf : String → Option StorageConfig) (publicOrigin : String) :=
  pool (Call.exec storageConfigOf) (UploadRequest.handle publicOrigin)
    (UploadsConsistent storageConfigOf)

section

variable {storageConfigOf : String → Option StorageConfig} {publicOrigin : String}

/-- What a request that has answered has established. -/
def UploadRequest.Established : UploadRequest → Except HttpError UploadResponse → World → Prop
  | complete _ id _ _, .ok _, s => StoredComplete id s
  | _, _, _ => True

private theorem handle_valid (request : UploadRequest) :
    Valid (Call.exec storageConfigOf) (UploadsConsistent storageConfigOf)
      (UploadsEvolve storageConfigOf) (UploadsEvolve storageConfigOf) (fun _ => True)
      (request.handle publicOrigin) request.Established := by
  cases request with
  | complete user id uploadId parts =>
    refine .bind (complete_valid publicOrigin user id uploadId parts) ?_
    rintro (e | url)
    · exact fun _ _ _ => trivial
    · exact fun _ _ h => h
  | abort user id uploadId =>
    refine .bind (abort_valid user id uploadId) fun result => ?_
    cases result <;> exact fun _ _ _ => trivial
  | signPart user id uploadId partNumber =>
    refine .bind (signing_valid (callsOnly_signPart user id uploadId partNumber)) fun result => ?_
    cases result <;> exact fun _ _ _ => trivial
  | signAsset user id uploadId name =>
    refine .bind (signing_valid (callsOnly_signAsset user id uploadId name)) fun result => ?_
    cases result <;> exact fun _ _ _ => trivial

private theorem handle_avoidsAfter (request : UploadRequest) :
    (request.handle publicOrigin).AvoidsAfter Call.SawNoUpload Call.signs := by
  cases request with
  | complete user id uploadId parts =>
    exact (callsOnly_complete publicOrigin user id uploadId parts).avoids
      Call.ofCompletion.not_signs |>.after.map _
  | abort user id uploadId =>
    exact (callsOnly_abort user id uploadId).avoids Call.ofAbortion.not_signs |>.after.map _
  | signPart user id uploadId partNumber =>
    exact (signPart_avoidsAfter user id uploadId partNumber).map _
  | signAsset user id uploadId name => exact (signAsset_avoidsAfter user id uploadId name).map _

variable {config : World × List (Thread UploadRequest Call Call.Answer
  (Except HttpError UploadResponse))}

/-- In every interleaving, a complete recording has its object. -/
theorem uploadPool_consistent (h : (uploadPool storageConfigOf publicOrigin).Reachable config) :
    UploadsConsistent storageConfigOf config.1 :=
  (pool_valid (fun _ hs => hs) handle_valid h).1

/-- A stable fact outlives any continuation of an interleaving. -/
theorem uploadPool_stable {P : World → Prop} (hP : UploadStable storageConfigOf P)
    (h : (uploadPool storageConfigOf publicOrigin).Reachable config) {labels config'}
    (hrun : (uploadPool storageConfigOf publicOrigin).Run config labels config')
    (hp : P config.1) : P config'.1 :=
  pool_stable (fun _ hs => hs) handle_valid h hrun hP hp

/-- A recording that disappears can never complete any more. -/
theorem uploadPool_deleted (h : (uploadPool storageConfigOf publicOrigin).Reachable config)
    {labels config'} (hrun : (uploadPool storageConfigOf publicOrigin).Run config labels config')
    {id : String} {row : VideoRow} (hrow : config.1.videos id = some row)
    (hgone : config'.1.videos id = none) :
    Abandoned storageConfigOf row.toVideoRecord config'.1 := by
  have hid := (uploadPool_consistent h).keyed id row hrow
  have hknown : Known storageConfigOf row.toVideoRecord config.1 :=
    .inl ⟨row, hid.symm ▸ hrow, rfl⟩
  rcases uploadPool_stable (Known.stable _) h hrun hknown with ⟨row', hrow', -⟩ | ⟨-, habandoned⟩
  · rw [hid] at hrow'
    exact absurd (hrow'.symm.trans hgone) (by simp)
  · exact habandoned

/-- Uploads are safe in every interleaving: a complete recording has its object; a deleted one has
none and never gets one; a successful `complete` is final; and a request that reads a record after
it became complete signs nothing. -/
theorem uploads_safe (h : (uploadPool storageConfigOf publicOrigin).Reachable config) :
    (∀ id row, config.1.videos id = some row → row.status = .complete →
      MainObject storageConfigOf row.toVideoRecord config.1) ∧
    (∀ labels config' id row, (uploadPool storageConfigOf publicOrigin).Run config labels config' →
      config.1.videos id = some row → config'.1.videos id = none →
      ∀ labels' config'', (uploadPool storageConfigOf publicOrigin).Run config' labels' config'' →
        ¬ MainObject storageConfigOf row.toVideoRecord config''.1) ∧
    (∀ user id uploadId parts response,
      ⟨.complete user id uploadId parts, .done (.ok response)⟩ ∈ config.2 →
      ∀ labels config', (uploadPool storageConfigOf publicOrigin).Run config labels config' →
        StoredComplete id config'.1) ∧
    (∀ i userId id answer config', (uploadPool storageConfigOf publicOrigin).step config
        (.call i (.findOwnedVideo userId id) answer) config' → StoredComplete id config.1 →
      ∀ labels config'' c answer',
        (uploadPool storageConfigOf publicOrigin).Run config' labels config'' →
        .call i c answer' ∈ labels → ¬ c.signs) := by
  have hconsistent := uploadPool_consistent h
  refine ⟨hconsistent.completed, ?_, ?_, ?_⟩
  · intro labels config' id row hrun hrow hgone labels' config'' hrun' hobject
    exact hobject.not_abandoned (uploadPool_stable (Abandoned.stable _) (h.run hrun) hrun'
      (uploadPool_deleted h hrun hrow hgone))
  · intro user id uploadId parts response hthread labels config' hrun
    have hstored : StoredComplete id config.1 :=
      pool_returned (fun _ hs => hs) handle_valid h hthread
    exact uploadPool_stable (StoredComplete.stable id) h hrun hstored
  · intro i userId id answer config' hstep hstored labels config'' c answer' hrun hlabel
    refine pool_avoids_after handle_avoidsAfter h hstep ?_ hrun hlabel
    obtain ⟨request, next, -, ⟨-, hvalue⟩, -⟩ := hstep
    obtain ⟨row, hrow, hcomplete⟩ := hstored
    intro video hvideo
    have hfound := hvalue _ hvideo
    rw [hrow] at hfound
    obtain ⟨row', hrow', rfl⟩ := Option.map_eq_some_iff.mp hfound.symm
    obtain rfl := Option.some_inj.mp (Option.filter_eq_some_iff.mp hrow').1
    exact hcomplete

end

/-! ## A run with an ambiguous failure -/

private def sampleConfig : StorageConfig where
  endpoint := "https://storage.example"
  region := "auto"
  bucket := "recordings"
  accessKeyId := "key"
  secretAccessKey := "secret"
  forcePathStyle := true

private def sampleRow : VideoRow where
  id := "v"
  userId := "u"
  name := "Demo"
  createdAt := "2026-01-01T00:00:00.000Z"
  objectKey := "users/u/recordings/v.mp4"
  uploadId := "up"
  storageConfig := "sealed"
  status := .uploading
  privacy := .«public»
  passwordHash := none
  archivedAt := none

private def sampleWorld : World where
  videos := fun id => if id = "v" then some sampleRow else none
  uploads := fun config key uploadId =>
    if config = sampleConfig ∧ key = sampleRow.objectKey ∧ uploadId = "up" then some .started
    else none
  tokens := []
  drawn := []
  sessions := fun _ => none

private def sampleConfigOf (value : String) : Option StorageConfig :=
  if value = "sealed" then some sampleConfig else none

private def sampleRequest : UploadRequest :=
  .complete ⟨"u", "User", some "sealed"⟩ "v" "up" [⟨1, "tag"⟩]

/-- The storage completes the upload and reports a failure; the object is found; the recording is
marked. -/
private def sampleLabels : List (PoolStep UploadRequest Call Call.Answer) :=
  [.arrive sampleRequest,
    .call 0 (.findOwnedVideo "u" "v") (.ok (some sampleRow.toVideoRecord)),
    .call 0 (.decrypt "sealed") (.ok sampleConfig),
    .call 0 (.completeMultipartUpload sampleConfig sampleRow.objectKey "up"
      (completedParts [⟨1, "tag"⟩])) (.error (.other "timeout")),
    .call 0 (.headObject sampleConfig sampleRow.objectKey) (.ok ()),
    .call 0 (.markVideoComplete "v") (.ok ())]

private theorem sampleWorld_consistent : UploadsConsistent sampleConfigOf sampleWorld where
  keyed id row h := by
    obtain ⟨rfl, h⟩ := Option.ite_none_right_eq_some.mp h
    rw [← Option.some_inj.mp h]
    rfl
  completed id row h hcomplete := by
    obtain ⟨-, h⟩ := Option.ite_none_right_eq_some.mp h
    rw [← Option.some_inj.mp h] at hcomplete
    exact absurd hcomplete (by decide)
  own id row config uploadId h _ hne := by
    obtain ⟨-, h⟩ := Option.ite_none_right_eq_some.mp h
    rw [← Option.some_inj.mp h] at hne ⊢
    by_contra hid
    exact hne (if_neg fun hall => hid hall.2.2)

private def sampleStored : World :=
  sampleWorld.setUpload sampleConfig sampleRow.objectKey "up" .completed

private def sampleMarked : World :=
  sampleStored.updateVideo "v" fun row => { row with status := .complete }

private theorem sample_run : (uploadPool sampleConfigOf "https://blip.example").Run
    (sampleWorld, []) sampleLabels
    (sampleMarked, [⟨sampleRequest, .done (.ok (.completed "https://blip.example/v/v"))⟩]) := by
  have hread : Call.exec sampleConfigOf sampleWorld (.findOwnedVideo "u" "v")
      (.ok (some sampleRow.toVideoRecord)) sampleWorld :=
    ⟨rfl, fun video hvideo => by obtain rfl := Except.ok.inj hvideo; rfl⟩
  have hdecrypt : Call.exec sampleConfigOf sampleWorld (.decrypt "sealed") (.ok sampleConfig)
      sampleWorld :=
    ⟨rfl, fun config hconfig => by obtain rfl := Except.ok.inj hconfig; rfl⟩
  have hupload : sampleWorld.uploads sampleConfig sampleRow.objectKey "up" = some .started := by
    simp [sampleWorld]
  have hcomplete : Call.exec sampleConfigOf sampleWorld
      (.completeMultipartUpload sampleConfig sampleRow.objectKey "up" (completedParts [⟨1, "tag"⟩]))
      (.error (.other "timeout")) sampleStored := by
    simp only [Call.exec, hupload]
    exact .inl rfl
  have hfound : Call.exec sampleConfigOf sampleStored
      (.headObject sampleConfig sampleRow.objectKey) (.ok ()) sampleStored :=
    ⟨rfl, fun _ => ⟨"up", by simp [sampleStored, World.setUpload]⟩, fun h => nomatch h⟩
  have hmark : Call.exec sampleConfigOf sampleStored (.markVideoComplete "v") (.ok ())
      sampleMarked := .inl rfl
  exact pool_run_arrive (pool_run_call sampleWorld rfl hread
    (pool_run_call sampleWorld rfl hdecrypt (pool_run_call sampleStored rfl hcomplete
      (pool_run_call sampleStored rfl hfound (pool_run_call sampleMarked rfl hmark (.nil _))))))

/-- After the run, the recording is complete. -/
theorem uploads_safe_reconciled : StoredComplete "v" sampleMarked :=
  (uploads_safe ⟨_, sampleLabels, ⟨sampleWorld_consistent, rfl⟩, sample_run⟩).2.2.1
    _ "v" "up" _ _ (List.mem_singleton_self _) [] _ (.nil _)

end Blip.Server
