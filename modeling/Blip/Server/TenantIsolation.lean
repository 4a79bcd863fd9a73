import Blip.Server.RequestProtocol

/-!
# Users and their recordings

In every run, a request of a user reads and changes that user's recordings only, every request to the
storage names an object of the recording it is for and the configuration stored with that recording,
and no object belongs to two recordings. The invariant is over the state and the phases of all requests
together: a request that has drawn an id is the only one to use it until it has stored a record under
it, so the ids of the records stay distinct and each keeps the configuration its upload was started
with.
-/

namespace Blip.Server

/-- The same recording, apart from what its owner can change. -/
structure VideoRecord.SameRecording (video other : VideoRecord) : Prop where
  id : video.id = other.id
  userId : video.userId = other.userId
  objectKey : video.objectKey = other.objectKey
  uploadId : video.uploadId = other.uploadId
  storageConfig : video.storageConfig = other.storageConfig

theorem VideoRecord.SameRecording.refl (video : VideoRecord) : video.SameRecording video :=
  ⟨rfl, rfl, rfl, rfl, rfl⟩

theorem VideoRecord.SameRecording.trans {video other third : VideoRecord}
    (h : video.SameRecording other) (h' : other.SameRecording third) : video.SameRecording third where
  id := h.id.trans h'.id
  userId := h.userId.trans h'.userId
  objectKey := h.objectKey.trans h'.objectKey
  uploadId := h.uploadId.trans h'.uploadId
  storageConfig := h.storageConfig.trans h'.storageConfig

theorem VideoRecord.SameRecording.keys {video other : VideoRecord} (h : video.SameRecording other) :
    video.keys = other.keys := by
  unfold VideoRecord.keys
  rw [h.objectKey]

/-! ## What the calls change -/

/-- The recording a call changes. -/
def Call.target : Call → Option String
  | createVideo video => some video.id
  | setVideoName id _ => some id
  | setVideoPrivacy id _ _ => some id
  | archiveVideo id _ => some id
  | markVideoComplete id => some id
  | deleteVideo id => some id
  | _ => none

/-- How a call that changes a recording changes its row. -/
def Call.rowEffect : Call → Option VideoRow → Option VideoRow
  | createVideo video, none => some { toVideoRecord := video, archivedAt := none }
  | createVideo _, some row => some row
  | setVideoName _ name, row => row.map fun row => { row with name }
  | setVideoPrivacy _ privacy passwordHash, row => row.map fun row => { row with privacy, passwordHash }
  | archiveVideo _ archivedAt, row => row.map fun row => { row with archivedAt := some archivedAt }
  | markVideoComplete _, row => row.map fun row => { row with status := .complete }
  | deleteVideo _, _ => none
  | _, row => row

variable {storageConfigOf : String → Option StorageConfig}

private theorem row_of_writes {s s' : World} {changed : String} {f : VideoRow → VideoRow}
    {answer : Except Failure Unit} (h : Writes (·.updateVideo changed f) s answer s') (id : String) :
    s'.videos id = s.videos id ∨ some changed = some id ∧ s'.videos id = (s.videos id).map f := by
  rcases h with rfl | ⟨rfl, -⟩
  · by_cases hid : id = changed
    · exact .inr ⟨congrArg some hid.symm, if_pos hid⟩
    · exact .inl (if_neg hid)
  · exact .inl rfl

/-- A call leaves every row alone but that of the recording it changes. -/
theorem exec_row {s s' : World} {c : Call} {answer : c.Answer} (h : c.exec storageConfigOf s answer s')
    (id : String) : s'.videos id = s.videos id ∨
      c.target = some id ∧ s'.videos id = c.rowEffect (s.videos id) := by
  cases c with
  | createVideo video =>
    rw [Call.exec] at h
    split at h
    · rename_i hnone
      rcases h with rfl | ⟨rfl, -⟩
      · by_cases hid : id = video.id
        · subst hid
          refine .inr ⟨rfl, ?_⟩
          rw [hnone]
          exact if_pos rfl
        · exact .inl (if_neg hid)
      · exact .inl rfl
    · exact .inl (by rw [h.1])
  | setVideoName _ _ => exact row_of_writes h id
  | setVideoPrivacy _ _ _ => exact row_of_writes h id
  | archiveVideo _ _ => exact row_of_writes h id
  | markVideoComplete _ => exact row_of_writes h id
  | deleteVideo changed =>
    rcases h with rfl | ⟨rfl, -⟩
    · by_cases hid : id = changed
      · exact .inr ⟨congrArg some hid.symm, if_pos hid⟩
      · exact .inl (if_neg hid)
    · exact .inl rfl
  | createMultipartUpload config key _ _ =>
    rcases h with ⟨uploadId, -, rfl, -⟩ | ⟨rfl, -⟩
    · exact .inl rfl
    · exact .inl rfl
  | completeMultipartUpload config key uploadId _ =>
    rw [Call.exec] at h
    split at h
    · rcases h with rfl | ⟨rfl, -⟩
      · exact .inl rfl
      · exact .inl rfl
    · exact .inl (by rw [h])
    · exact .inl (by rw [h.1])
  | abortMultipartUpload config key uploadId =>
    rw [Call.exec] at h
    split at h
    · rcases h with rfl | ⟨rfl, -⟩
      · exact .inl rfl
      · exact .inl rfl
    · exact .inl (by rw [h.1])
    · exact .inl (by rw [h])
  | encryptString value =>
    match answer, h with
    | .ok token, h => exact .inl (by rw [h.2])
    | .error e, h => exact .inl (congrArg (World.videos · id) h)
  | getRandomValues count => exact .inl (by rw [h.2.2])
  | getObject config key => exact .inl (congrArg (World.videos · id) h)
  | randomUUID => exact .inl (congrArg (World.videos · id) h)
  | toISOString => exact .inl (congrArg (World.videos · id) h)
  | _ => exact .inl (congrArg (World.videos · id) h.1)

/-- Every row is of a record that has been stored. -/
structure RowsCreated (s : Tenants) : Prop where
  id : ∀ id row, s.world.videos id = some row → row.id = id
  created : ∀ id row, s.world.videos id = some row →
    ∃ video ∈ s.created, video.SameRecording row.toVideoRecord

variable (storageConfigOf) in
/-- An operation on the storage is for no recording, or for that of an id whose record has this
configuration, if it is stored, or is still to be stored with it. -/
def Attributed (s : Tenants) (phases : ℕ → Phase) (operation : StorageConfig × String) : Prop :=
  '/' ∉ operation.2.toList ∨ ∃ id ∈ s.ids, KeyOf id.toList operation.2.toList ∧
    (∀ video ∈ s.created, video.id = id →
      storageConfigOf video.storageConfig = some operation.1) ∧
    ∀ i, (phases i).pending = some id → ∃ key uploadId,
      phases i = .started id operation.1 key uploadId

variable (storageConfigOf) in
/-- What holds of the state and the phases of all requests. -/
structure Isolated (s : Tenants) (phases : ℕ → Phase) : Prop where
  rows : RowsCreated s
  keyed : ∀ video ∈ s.created, video.Keyed
  distinct : (s.created.map (·.id)).Nodup
  drawn : ∀ video ∈ s.created, video.id ∈ s.ids
  uuids : ∀ id ∈ s.ids, IsUuid id
  pending : ∀ i id, (phases i).pending = some id →
    id ∈ s.ids ∧ (∀ video ∈ s.created, video.id ≠ id) ∧ ∀ j, (phases j).pending = some id → j = i
  holding : ∀ i video, phases i = .holding video → ∃ other ∈ s.created, other.SameRecording video
  operations : ∀ operation ∈ s.operations, Attributed storageConfigOf s phases operation

/-- The user a call changes. -/
def UserCall.target : UserCall → Option String
  | upsertUser id _ _ => some id
  | setStorageConfig userId _ => some userId
  | _ => none

/-- A call of the user's own leaves every recording and every other user alone. -/
theorem userCall_frame {s s' : Tenants} {c : UserCall} {answer : c.Answer}
    (h : c.exec storageConfigOf s answer s') : s'.world = s.world ∧ s'.ids = s.ids ∧
      s'.created = s.created ∧ s'.operations = s.operations ++ c.storage ∧
      ∀ id, s'.users id ≠ s.users id → c.target = some id := by
  have hnil : s.operations = s.operations ++ [] := (List.append_nil _).symm
  cases c with
  | upsertUser changed name createdAt =>
    rcases h with rfl | ⟨rfl, -⟩
    · refine ⟨rfl, rfl, rfl, hnil, fun id hne => ?_⟩
      by_contra hid
      exact hne (if_neg fun heq => hid (congrArg some heq.symm))
    · exact ⟨rfl, rfl, rfl, hnil, fun id hne => absurd rfl hne⟩
  | setStorageConfig changed storageConfig =>
    rcases h with rfl | ⟨rfl, -⟩
    · refine ⟨rfl, rfl, rfl, hnil, fun id hne => ?_⟩
      by_contra hid
      exact hne (if_neg fun heq => hid (congrArg some heq.symm))
    · exact ⟨rfl, rfl, rfl, hnil, fun id hne => absurd rfl hne⟩
  | createTestUpload config key =>
    obtain rfl := h
    exact ⟨rfl, rfl, rfl, rfl, fun id hne => absurd rfl hne⟩
  | abortTestUpload config key uploadId =>
    obtain rfl := h
    exact ⟨rfl, rfl, rfl, rfl, fun id hne => absurd rfl hne⟩
  | _ =>
    obtain ⟨rfl, -⟩ := h
    exact ⟨rfl, rfl, rfl, hnil, fun id hne => absurd rfl hne⟩

/-! ## Rows -/

theorem rowEffect_eq_some {c : Call} {found : Option VideoRow} {row' : VideoRow}
    (h : c.rowEffect found = some row') :
    (∃ row, found = some row ∧ row.id = row'.id ∧
      row.toVideoRecord.SameRecording row'.toVideoRecord) ∨
      row'.toVideoRecord ∈ c.stored ∧ c.target = some row'.id := by
  have hmap : ∀ f : VideoRow → VideoRow, found.map f = some row' →
      (∀ row : VideoRow, row.toVideoRecord.SameRecording (f row).toVideoRecord) →
      ∃ row, found = some row ∧ row.id = row'.id ∧
        row.toVideoRecord.SameRecording row'.toVideoRecord := by
    intro f hsome hf
    obtain ⟨row, rfl, rfl⟩ := Option.map_eq_some_iff.1 hsome
    exact ⟨row, rfl, (hf row).id, hf row⟩
  cases c with
  | createVideo video =>
    cases found with
    | none =>
      obtain rfl := Option.some.inj h
      exact .inr ⟨List.mem_singleton_self _, rfl⟩
    | some row =>
      obtain rfl := Option.some.inj h
      exact .inl ⟨row, rfl, rfl, .refl _⟩
  | setVideoName _ _ => exact .inl (hmap _ h fun _ => ⟨rfl, rfl, rfl, rfl, rfl⟩)
  | setVideoPrivacy _ _ _ => exact .inl (hmap _ h fun _ => ⟨rfl, rfl, rfl, rfl, rfl⟩)
  | archiveVideo _ _ => exact .inl (hmap _ h fun _ => ⟨rfl, rfl, rfl, rfl, rfl⟩)
  | markVideoComplete _ => exact .inl (hmap _ h fun _ => ⟨rfl, rfl, rfl, rfl, rfl⟩)
  | deleteVideo _ => exact absurd h nofun
  | _ => exact .inl ⟨row', h, rfl, .refl _⟩

theorem RowsCreated.exec {s s' : Tenants} {c : Call} {answer : c.Answer} (h : RowsCreated s)
    (hexec : c.exec storageConfigOf s.world answer s'.world)
    (hcreated : s'.created = s.created ++ c.stored) : RowsCreated s' := by
  have hrow : ∀ id row', s'.world.videos id = some row' → row'.id = id ∧
      ∃ video ∈ s'.created, video.SameRecording row'.toVideoRecord := by
    intro id row' hsome
    rw [hcreated]
    have hold : ∀ row, s.world.videos id = some row → row.id = row'.id →
        row.toVideoRecord.SameRecording row'.toVideoRecord → row'.id = id ∧
          ∃ video ∈ s.created ++ c.stored, video.SameRecording row'.toVideoRecord := by
      intro row hfound hid hsame
      obtain ⟨video, hmem, hvideo⟩ := h.created id row hfound
      exact ⟨hid.symm.trans (h.id id row hfound), video, List.mem_append_left _ hmem,
        hvideo.trans hsame⟩
    rcases exec_row hexec id with heq | ⟨htarget, heq⟩
    · exact hold row' (heq.symm.trans hsome) rfl (.refl _)
    · rcases rowEffect_eq_some (heq.symm.trans hsome) with ⟨row, hfound, hid, hsame⟩ | ⟨hmem, hid⟩
      · exact hold row hfound hid hsame
      · exact ⟨Option.some.inj (hid.symm.trans htarget), _, List.mem_append_right _ hmem, .refl _⟩
  exact ⟨fun id row hsome => (hrow id row hsome).1, fun id row hsome => (hrow id row hsome).2⟩

theorem RowsCreated.of_eq {s s' : Tenants} (h : RowsCreated s) (hworld : s'.world = s.world)
    (hcreated : s'.created = s.created) : RowsCreated s' := by
  constructor
  · rw [hworld]
    exact h.id
  · rw [hworld, hcreated]
    exact h.created

/-- What a call tells is so while every row is of a record under its id. -/
theorem tells_of_exec {s s' : Tenants} (h : RowsCreated s) {c : TenantCall} {answer : TenantAnswer c}
    (hexec : c.exec storageConfigOf s answer s') : Tells storageConfigOf c answer := by
  rcases c with c | c
  · obtain ⟨hdrawn, world, hexec, -⟩ := hexec
    cases c with
    | findOwnedVideo userId id =>
      rintro video rfl
      obtain ⟨row, hrow, rfl⟩ := Option.map_eq_some_iff.1 (hexec.2 _ rfl).symm
      obtain ⟨hfound, howner⟩ := Option.filter_eq_some_iff.1 hrow
      exact ⟨h.id id row hfound, of_decide_eq_true howner⟩
    | findVideo id =>
      rintro video rfl
      obtain ⟨row, hrow, rfl⟩ := Option.map_eq_some_iff.1 (hexec.2 _ rfl).symm
      exact h.id id row (Option.filter_eq_some_iff.1 hrow).1
    | decrypt value => exact hexec.2
    | randomUUID => exact (hdrawn answer (List.mem_singleton_self _)).1
    | _ => trivial
  · trivial

/-! ## The invariant -/

section

variable {s s' : Tenants} {phases : ℕ → Phase} {i : ℕ} {phase' : Phase}

theorem Attributed.congr {operation : StorageConfig × String}
    (h : Attributed storageConfigOf s phases operation) (hids : s'.ids = s.ids)
    (hcreated : s'.created = s.created) : Attributed storageConfigOf s' phases operation := by
  unfold Attributed at h ⊢
  rwa [hids, hcreated]

/-- Two records of one id are one. -/
theorem Isolated.eq_of_id (h : Isolated storageConfigOf s phases) {video other : VideoRecord}
    (hvideo : video ∈ s.created) (hother : other ∈ s.created) (hid : video.id = other.id) :
    video = other :=
  List.inj_on_of_nodup_map h.distinct hvideo hother hid

theorem Isolated.attributed_of_holding (h : Isolated storageConfigOf s phases) {video : VideoRecord}
    (hphase : phases i = .holding video) {config : StorageConfig} {key : String}
    (hconfig : storageConfigOf video.storageConfig = some config) (hkey : key ∈ video.keys) :
    Attributed storageConfigOf s phases (config, key) := by
  obtain ⟨other, hother, hsame⟩ := h.holding i video hphase
  refine .inr ⟨other.id, h.drawn other hother, (h.keyed other hother).keyOf (hsame.keys ▸ hkey),
    fun video' hvideo' hid => ?_, fun j hj => ?_⟩
  · rw [h.eq_of_id hvideo' hother hid, hsame.storageConfig]
    exact hconfig
  · exact absurd rfl ((h.pending j other.id hj).2.1 other hother)

/-- A step that draws no id and stores no record. -/
theorem Isolated.settle (h : Isolated storageConfigOf s phases) (hrows : RowsCreated s')
    (hids : s'.ids = s.ids) (hcreated : s'.created = s.created)
    (hphase : ∀ id, phase'.pending = some id → (phases i).pending = some id)
    (hholding : ∀ video, phase' = .holding video →
      ∃ other ∈ s.created, other.SameRecording video)
    (hoperations : ∀ operation ∈ s'.operations,
      Attributed storageConfigOf s (Function.update phases i phase') operation) :
    Isolated storageConfigOf s' (Function.update phases i phase') := by
  have hpending : ∀ j id, (Function.update phases i phase' j).pending = some id →
      (phases j).pending = some id := by
    intro j id hj
    by_cases hij : j = i
    · subst hij
      rw [Function.update_self] at hj
      exact hphase id hj
    · rwa [Function.update_of_ne hij] at hj
  refine ⟨hrows, ?_, ?_, ?_, ?_, ?_, ?_, ?_⟩
  · rw [hcreated]
    exact h.keyed
  · rw [hcreated]
    exact h.distinct
  · rw [hcreated, hids]
    exact h.drawn
  · rw [hids]
    exact h.uuids
  · intro j id hj
    rw [hids, hcreated]
    obtain ⟨hid, hfresh, hunique⟩ := h.pending j id (hpending j id hj)
    exact ⟨hid, hfresh, fun k hk => hunique k (hpending k id hk)⟩
  · intro j video hj
    rw [hcreated]
    by_cases hij : j = i
    · subst hij
      rw [Function.update_self] at hj
      exact hholding video hj
    · rw [Function.update_of_ne hij] at hj
      exact h.holding j video hj
  · exact fun operation hmem => (hoperations operation hmem).congr hids hcreated

/-- A step that leaves the phase. -/
theorem Isolated.stay (h : Isolated storageConfigOf s phases) (hrows : RowsCreated s')
    (hids : s'.ids = s.ids) (hcreated : s'.created = s.created)
    {operations : List (StorageConfig × String)} (hoperations : s'.operations = s.operations ++ operations)
    (hnew : ∀ operation ∈ operations, Attributed storageConfigOf s phases operation) :
    Isolated storageConfigOf s' (Function.update phases i (phases i)) := by
  refine h.settle hrows hids hcreated (fun _ hid => hid) (fun video => h.holding i video) ?_
  rw [Function.update_eq_self, hoperations]
  intro operation hmem
  rcases List.mem_append.1 hmem with hmem | hmem
  · exact h.operations operation hmem
  · exact hnew operation hmem

/-- A step that finds a recording. -/
theorem Isolated.found (h : Isolated storageConfigOf s phases) (hrows : RowsCreated s')
    (hids : s'.ids = s.ids) (hcreated : s'.created = s.created)
    (hoperations : s'.operations = s.operations) {video : VideoRecord}
    (hvideo : ∃ other ∈ s.created, other.SameRecording video) :
    Isolated storageConfigOf s' (Function.update phases i (.holding video)) := by
  refine h.settle hrows hids hcreated (fun _ hid => absurd hid nofun) ?_ ?_
  · rintro _ ⟨⟩
    exact hvideo
  rw [hoperations]
  intro operation hmem
  refine (h.operations operation hmem).imp_right
    fun ⟨id, hid, hkey, hstored, hstart⟩ => ⟨id, hid, hkey, hstored, fun j hj => ?_⟩
  by_cases hij : j = i
  · subst hij
    rw [Function.update_self] at hj
    exact absurd hj nofun
  · rw [Function.update_of_ne hij] at hj ⊢
    exact hstart j hj

/-- A step that starts the upload of a new recording, or fails to. -/
theorem Isolated.start (h : Isolated storageConfigOf s phases) (hrows : RowsCreated s')
    (hids : s'.ids = s.ids) (hcreated : s'.created = s.created) {config : StorageConfig}
    {id key : String} (hoperations : s'.operations = s.operations ++ [(config, key)])
    (hdrawn : phases i = .drawn id) (hkey : KeyOf id.toList key.toList)
    (hphase : (∃ uploadId, phase' = .started id config key uploadId) ∨ phase' = .failed) :
    Isolated storageConfigOf s' (Function.update phases i phase') := by
  have hpending : (phases i).pending = some id := by
    rw [hdrawn]
    rfl
  obtain ⟨hid, hfresh, hunique⟩ := h.pending i id hpending
  have hphase' : ∀ id', phase'.pending = some id' →
      id' = id ∧ ∃ uploadId, phase' = .started id config key uploadId := by
    intro id' hid'
    rcases hphase with ⟨uploadId, rfl⟩ | rfl
    · exact ⟨(Option.some.inj hid').symm, uploadId, rfl⟩
    · exact absurd hid' nofun
  refine h.settle hrows hids hcreated (fun id' hid' => (hphase' id' hid').1 ▸ hpending) ?_ ?_
  · rintro video rfl
    rcases hphase with ⟨uploadId, heq⟩ | heq <;> exact absurd heq nofun
  rw [hoperations]
  intro operation hmem
  rcases List.mem_append.1 hmem with hmem | hmem
  · refine (h.operations operation hmem).imp_right
      fun ⟨id', hid', hkey', hstored, hstart⟩ => ⟨id', hid', hkey', hstored, fun j hj => ?_⟩
    by_cases hij : j = i
    · subst hij
      rw [Function.update_self] at hj
      obtain ⟨rfl, -⟩ := hphase' id' hj
      -- Nothing has been asked of the storage for an id that is only drawn.
      obtain ⟨key', uploadId, hstarted⟩ := hstart j hpending
      exact absurd (hdrawn.symm.trans hstarted) nofun
    · rw [Function.update_of_ne hij] at hj ⊢
      exact hstart j hj
  · rw [List.mem_singleton.1 hmem]
    refine .inr ⟨id, hid, hkey, fun video hvideo hvideo' => absurd hvideo' (hfresh video hvideo),
      fun j hj => ?_⟩
    by_cases hij : j = i
    · subst hij
      rw [Function.update_self] at hj ⊢
      obtain ⟨-, uploadId, hstarted⟩ := hphase' id hj
      exact ⟨key, uploadId, hstarted⟩
    · rw [Function.update_of_ne hij] at hj
      exact absurd (hunique j hj) hij

/-- A step that stores the record of a started upload. -/
theorem Isolated.store (h : Isolated storageConfigOf s phases) {video : VideoRecord}
    (hrows : RowsCreated s') (hids : s'.ids = s.ids) (hcreated : s'.created = s.created ++ [video])
    (hoperations : s'.operations = s.operations) {config : StorageConfig} {key uploadId : String}
    (hstarted : phases i = .started video.id config key uploadId)
    (hobject : ∃ hls, video.objectKey = recordingKey video.userId video.id hls)
    (hconfig : storageConfigOf video.storageConfig = some config) :
    Isolated storageConfigOf s' (Function.update phases i (.holding video)) := by
  have hpending : (phases i).pending = some video.id := by
    rw [hstarted]
    rfl
  obtain ⟨hid, hfresh, hunique⟩ := h.pending i video.id hpending
  -- the request that stores has no id pending afterwards
  have hother : ∀ j id, (Function.update phases i (.holding video) j).pending = some id →
      (phases j).pending = some id ∧ j ≠ i := by
    intro j id hj
    by_cases hij : j = i
    · subst hij
      rw [Function.update_self] at hj
      exact absurd hj nofun
    · rw [Function.update_of_ne hij] at hj
      exact ⟨hj, hij⟩
  refine ⟨hrows, ?_, ?_, ?_, ?_, ?_, ?_, ?_⟩
  · rw [hcreated]
    intro video' hvideo'
    rcases List.mem_append.1 hvideo' with hvideo' | hvideo'
    · exact h.keyed video' hvideo'
    · rw [List.mem_singleton.1 hvideo']
      exact ⟨h.uuids video.id hid, hobject⟩
  · rw [hcreated, List.map_append, List.map_singleton]
    refine List.nodup_append.2 ⟨h.distinct, List.nodup_singleton _, ?_⟩
    intro id hmem id' hmem' heq
    obtain ⟨video', hvideo', rfl⟩ := List.mem_map.1 hmem
    exact hfresh video' hvideo' (heq.trans (List.mem_singleton.1 hmem'))
  · rw [hcreated, hids]
    intro video' hvideo'
    rcases List.mem_append.1 hvideo' with hvideo' | hvideo'
    · exact h.drawn video' hvideo'
    · rw [List.mem_singleton.1 hvideo']
      exact hid
  · rw [hids]
    exact h.uuids
  · intro j id hj
    obtain ⟨hold, hij⟩ := hother j id hj
    obtain ⟨hid', hfresh', hunique'⟩ := h.pending j id hold
    rw [hids, hcreated]
    refine ⟨hid', fun video' hvideo' => ?_, fun k hk => hunique' k (hother k id hk).1⟩
    rcases List.mem_append.1 hvideo' with hvideo' | hvideo'
    · exact hfresh' video' hvideo'
    · rw [List.mem_singleton.1 hvideo']
      rintro rfl
      exact hij (hunique j hold)
  · intro j video' hj
    rw [hcreated]
    by_cases hij : j = i
    · subst hij
      rw [Function.update_self] at hj
      obtain rfl := Phase.holding.inj hj
      exact ⟨video, List.mem_append_right _ (List.mem_singleton_self _), .refl _⟩
    · rw [Function.update_of_ne hij] at hj
      obtain ⟨other, hmem, hsame⟩ := h.holding j video' hj
      exact ⟨other, List.mem_append_left _ hmem, hsame⟩
  · intro operation hmem
    rw [hoperations] at hmem
    refine (h.operations operation hmem).imp_right
      fun ⟨id, hid', hkey, hstored, hstart⟩ => ⟨id, ?_, hkey, ?_, fun j hj => ?_⟩
    · rw [hids]
      exact hid'
    · rw [hcreated]
      intro video' hvideo' heq
      rcases List.mem_append.1 hvideo' with hvideo' | hvideo'
      · exact hstored video' hvideo' heq
      · obtain rfl := List.mem_singleton.1 hvideo'
        -- the record keeps the configuration that its upload was started with
        obtain ⟨key', uploadId', hstarted'⟩ := hstart i (heq ▸ hpending)
        rw [hconfig, (Phase.started.inj (hstarted.symm.trans hstarted')).2.1]
    · obtain ⟨hold, hij⟩ := hother j id hj
      rw [Function.update_of_ne hij]
      exact hstart j hold

/-- A step that draws an id. -/
theorem Isolated.draw (h : Isolated storageConfigOf s phases) (hrows : RowsCreated s') {id : String}
    (huuid : IsUuid id) (hfresh : id ∉ s.ids) (hids : s'.ids = s.ids ++ [id])
    (hcreated : s'.created = s.created) (hoperations : s'.operations = s.operations) :
    Isolated storageConfigOf s' (Function.update phases i (.drawn id)) := by
  have hpending : ∀ j id', (Function.update phases i (.drawn id) j).pending = some id' →
      j = i ∧ id' = id ∨ j ≠ i ∧ (phases j).pending = some id' := by
    intro j id' hj
    by_cases hij : j = i
    · subst hij
      rw [Function.update_self] at hj
      exact .inl ⟨rfl, (Option.some.inj hj).symm⟩
    · rw [Function.update_of_ne hij] at hj
      exact .inr ⟨hij, hj⟩
  -- an id that is fresh is not the one another request waits to store
  have hother : ∀ j id', (phases j).pending = some id' → id' ≠ id := by
    rintro j id' hj rfl
    exact hfresh (h.pending j id' hj).1
  refine ⟨hrows, ?_, ?_, ?_, ?_, ?_, ?_, ?_⟩
  · rw [hcreated]
    exact h.keyed
  · rw [hcreated]
    exact h.distinct
  · rw [hcreated, hids]
    exact fun video hvideo => List.mem_append_left _ (h.drawn video hvideo)
  · rw [hids]
    intro id' hid'
    rcases List.mem_append.1 hid' with hid' | hid'
    · exact h.uuids id' hid'
    · rw [List.mem_singleton.1 hid']
      exact huuid
  · intro j id' hj
    rw [hids, hcreated]
    rcases hpending j id' hj with ⟨rfl, rfl⟩ | ⟨-, hold⟩
    · refine ⟨List.mem_append_right _ (List.mem_singleton_self _), ?_, fun k hk => ?_⟩
      · rintro video hvideo rfl
        exact hfresh (h.drawn video hvideo)
      · rcases hpending k _ hk with ⟨hkj, -⟩ | ⟨-, hold⟩
        · exact hkj
        · exact absurd rfl (hother k _ hold)
    · obtain ⟨hid', hstored, hunique⟩ := h.pending j id' hold
      refine ⟨List.mem_append_left _ hid', hstored, fun k hk => ?_⟩
      rcases hpending k _ hk with ⟨-, rfl⟩ | ⟨-, hk⟩
      · exact absurd rfl (hother j _ hold)
      · exact hunique k hk
  · intro j video hj
    rw [hcreated]
    by_cases hij : j = i
    · subst hij
      rw [Function.update_self] at hj
      exact absurd hj nofun
    · rw [Function.update_of_ne hij] at hj
      exact h.holding j video hj
  · intro operation hmem
    rw [hoperations] at hmem
    refine (h.operations operation hmem).imp_right fun ⟨id', hid', hkey, hstored, hstart⟩ => ?_
    refine ⟨id', ?_, hkey, ?_, fun j hj => ?_⟩
    · rw [hids]
      exact List.mem_append_left _ hid'
    · rw [hcreated]
      exact hstored
    · rcases hpending j id' hj with ⟨-, rfl⟩ | ⟨hij, hold⟩
      · exact absurd hid' hfresh
      · rw [Function.update_of_ne hij]
        exact hstart j hold

theorem keyOf_recordingKey {userId id : String} (hls : Bool) :
    KeyOf id.toList (recordingKey userId id hls).toList := by
  cases hls with
  | false =>
    rw [toList_recordingKey_mp4]
    exact ⟨_, .inl rfl⟩
  | true =>
    rw [toList_recordingKey_hls]
    exact ⟨_, .inr ⟨_, by decide, by decide, rfl⟩⟩

/-- A request that looks for a recording. -/
theorem Isolated.find (h : Isolated storageConfigOf s phases) {found : Except Failure (Option VideoRecord)}
    {id : String} {keep : VideoRow → Bool}
    (hfound : ∀ video, found = .ok video →
      video = ((s.world.videos id).filter keep).map VideoRow.toVideoRecord)
    {video : VideoRecord} (hvideo : found = .ok (some video)) :
    ∃ other ∈ s.created, other.SameRecording video := by
  obtain ⟨row, hrow, rfl⟩ := Option.map_eq_some_iff.1 (hfound _ hvideo).symm
  exact h.rows.created id row (Option.filter_eq_some_iff.1 hrow).1

variable {request : TenantRequest}

theorem Isolated.step_service (h : Isolated storageConfigOf s phases) {c : Call} {answer : c.Answer}
    (hallowed : c.allowed storageConfigOf request (phases i))
    (hexec : TenantCall.exec storageConfigOf s (.inl c) answer s') :
    Isolated storageConfigOf s' (Function.update phases i ((phases i).next c answer)) := by
  obtain ⟨hdrawn, world, hexec, rfl⟩ := hexec
  have hrows : RowsCreated ⟨world, s.users, s.ids ++ c.drawn answer, s.created ++ c.stored,
      s.operations ++ c.storage⟩ := h.rows.exec hexec rfl
  have hquiet : ∀ operation ∈ ([] : List (StorageConfig × String)),
      Attributed storageConfigOf s phases operation := fun _ hmem => absurd hmem List.not_mem_nil
  have htouch : ∀ config key, Touches storageConfigOf request (phases i) config key →
      ∀ operation ∈ [(config, key)], Attributed storageConfigOf s phases operation := by
    rintro config key ⟨video, hphase, -, hconfig, hkey⟩ operation hmem
    rw [List.mem_singleton.1 hmem]
    exact h.attributed_of_holding hphase hconfig hkey
  have hids : s.ids ++ [] = s.ids := List.append_nil _
  have hcreated : s.created ++ [] = s.created := List.append_nil _
  have hoperations : s.operations ++ [] = s.operations := List.append_nil _
  cases c with
  | findOwnedVideo userId id =>
    rcases answer with e | _ | video
    · exact h.stay hrows hids hcreated rfl hquiet
    · exact h.stay hrows hids hcreated rfl hquiet
    · exact h.found hrows hids hcreated hoperations (h.find hexec.2 rfl)
  | findVideo id =>
    rcases answer with e | _ | video
    · exact h.stay hrows hids hcreated rfl hquiet
    · exact h.stay hrows hids hcreated rfl hquiet
    · exact h.found hrows hids hcreated hoperations (h.find hexec.2 rfl)
  | createVideo video =>
    obtain ⟨-, hobject, config, hstarted, hconfig⟩ := hallowed
    exact h.store hrows hids rfl hoperations hstarted hobject hconfig
  | createMultipartUpload config key _ _ =>
    obtain ⟨-, userId, id, hls, -, hphase, rfl⟩ := hallowed
    refine h.start hrows hids hcreated rfl hphase (keyOf_recordingKey hls) ?_
    rcases answer with e | _ | uploadId
    · exact .inr rfl
    · exact .inr rfl
    · refine .inl ⟨uploadId, ?_⟩
      rw [hphase]
      rfl
  | randomUUID =>
    obtain ⟨huuid, hfresh⟩ := hdrawn answer (List.mem_singleton_self _)
    exact h.draw hrows huuid hfresh rfl hcreated hoperations
  | completeMultipartUpload config key _ _ =>
    exact h.stay hrows hids hcreated rfl (htouch config key hallowed)
  | abortMultipartUpload config key _ =>
    exact h.stay hrows hids hcreated rfl (htouch config key hallowed)
  | headObject config key => exact h.stay hrows hids hcreated rfl (htouch config key hallowed)
  | getObject config key => exact h.stay hrows hids hcreated rfl (htouch config key hallowed)
  | presignUrl asked => exact h.stay hrows hids hcreated rfl (htouch _ _ hallowed)
  | _ => exact h.stay hrows hids hcreated rfl hquiet

theorem Isolated.step (h : Isolated storageConfigOf s phases) {c : TenantCall} {answer : TenantAnswer c}
    (hallowed : (isolation storageConfigOf request).allowed (phases i) c)
    (hexec : c.exec storageConfigOf s answer s') :
    Isolated storageConfigOf s' (Function.update phases i
      ((isolation storageConfigOf request).after (phases i) c answer)) := by
  rcases c with c | c
  · exact h.step_service hallowed hexec
  obtain ⟨hworld, hids, hcreated, hoperations, -⟩ := userCall_frame hexec
  refine h.stay (h.rows.of_eq hworld hcreated) hids hcreated hoperations fun operation hmem => .inl ?_
  cases c with
  | createTestUpload config key =>
    rw [List.mem_singleton.1 hmem]
    exact hallowed.2
  | abortTestUpload config key uploadId =>
    rw [List.mem_singleton.1 hmem]
    exact hallowed.2
  | _ => exact absurd hmem List.not_mem_nil

end

/-! ## Isolation -/

/-- The recordings that a call's answer tells of. -/
def TenantCall.found : (c : TenantCall) → TenantAnswer c → List String
  | .inl (.findOwnedVideo _ _), .ok (some video) => [video.id]
  | .inl (.findVideo _), .ok (some video) => [video.id]
  | .inr (.listOwnedVideos _), .ok videos => videos.map (·.id)
  | _, _ => []

/-- The configurations and keys a call uses in the storage. -/
def TenantCall.storage : TenantCall → List (StorageConfig × String)
  | .inl c => c.storage
  | .inr c => c.storage

/-- What a request's call reads and changes: as a user, recordings of that user only, and as a viewer
it changes none. -/
structure OwnRecords (request : TenantRequest) (c : TenantCall) (answer : TenantAnswer c)
    (s s' : Tenants) : Prop where
  reads : ∀ userId, request.userId = some userId → ∀ id ∈ c.found answer,
    ∃ row, s.world.videos id = some row ∧ row.userId = userId
  changes : ∀ id, s'.world.videos id ≠ s.world.videos id →
    ∃ userId, request.userId = some userId ∧
      ∀ row, s.world.videos id = some row ∨ s'.world.videos id = some row → row.userId = userId
  users : ∀ id, s'.users id ≠ s.users id → request.userId = some id

variable (storageConfigOf) in
/-- What a request's call asks of the storage: an object of the recording it names under the
configuration stored with that recording. A request that names none tests the storage, starts the upload
of a recording that is still to be stored, or abandons that of one that is. -/
structure OwnObjects (request : TenantRequest) (c : TenantCall) (s : Tenants) : Prop where
  named : ∀ id, request.recordId = some id → ∀ operation ∈ c.storage,
    ∃ video ∈ s.created, video.id = id ∧
      storageConfigOf video.storageConfig = some operation.1 ∧ operation.2 ∈ video.keys
  unnamed : request.recordId = none → ∀ operation ∈ c.storage, '/' ∉ operation.2.toList ∨
    (∃ userId id hls, request.userId = some userId ∧ id ∈ s.ids ∧
      (∀ video ∈ s.created, video.id ≠ id) ∧ operation.2 = recordingKey userId id hls) ∨
    ∃ video ∈ s.created, storageConfigOf video.storageConfig = some operation.1 ∧
      operation.2 ∈ video.keys

variable (storageConfigOf) in
/-- Every record is of one recording with its own id and objects, and whatever has been asked of the
storage for one of its objects was asked under the configuration stored with it. -/
structure RecordsApart (s : Tenants) : Prop where
  rows : ∀ id row, s.world.videos id = some row →
    ∃ video ∈ s.created, video.id = id ∧ video.SameRecording row.toVideoRecord
  apart : ∀ video ∈ s.created, ∀ other ∈ s.created, video ≠ other →
    video.id ≠ other.id ∧ Disjoint video.keys other.keys
  configured : ∀ operation ∈ s.operations, ∀ video ∈ s.created, operation.2 ∈ video.keys →
    storageConfigOf video.storageConfig = some operation.1

section

variable {s s' : Tenants} {phases : ℕ → Phase} {i : ℕ} {request : TenantRequest}

theorem KeyOf.slash_mem {id key : List Char} (h : KeyOf id key) : '/' ∈ key := by
  obtain ⟨before, rfl | ⟨name, -, -, rfl⟩⟩ := h
  · exact List.mem_append_right _ List.mem_cons_self
  · exact List.mem_append_right _ List.mem_cons_self

theorem Isolated.recordsApart (h : Isolated storageConfigOf s phases) :
    RecordsApart storageConfigOf s := by
  refine ⟨fun id row hrow => ?_, fun video hvideo other hother hne => ?_,
    fun operation hoperation video hvideo hkey => ?_⟩
  · obtain ⟨video, hvideo, hsame⟩ := h.rows.created id row hrow
    exact ⟨video, hvideo, hsame.id.trans (h.rows.id id row hrow), hsame⟩
  · have hid : video.id ≠ other.id := fun hid => hne (h.eq_of_id hvideo hother hid)
    exact ⟨hid, (h.keyed video hvideo).disjoint (h.keyed other hother) hid⟩
  · have hkeyOf := (h.keyed video hvideo).keyOf hkey
    rcases h.operations operation hoperation with hslash | ⟨id, hid, hkeyOf', hstored, -⟩
    · exact absurd hkeyOf.slash_mem hslash
    · exact hstored video hvideo (KeyOf.eq (h.keyed video hvideo).1 (h.uuids id hid) hkeyOf hkeyOf')

/-- The recording a call changes is its user's. -/
theorem Isolated.target (h : Isolated storageConfigOf s phases) {c : Call} {id : String}
    (hallowed : c.allowed storageConfigOf request (phases i)) (htarget : c.target = some id) :
    ∃ video ∈ s.created ++ c.stored, video.id = id ∧ request.userId = some video.userId := by
  have hheld : ∀ changed, Changes request (phases i) changed → some changed = some id →
      ∃ video ∈ s.created ++ c.stored, video.id = id ∧ request.userId = some video.userId := by
    rintro changed ⟨video, hphase, rfl, huser⟩ hid
    obtain ⟨other, hother, hsame⟩ := h.holding i video hphase
    exact ⟨other, List.mem_append_left _ hother, hsame.id.trans (Option.some.inj hid),
      hsame.userId ▸ huser⟩
  cases c with
  | createVideo video =>
    exact ⟨video, List.mem_append_right _ (List.mem_singleton_self _), Option.some.inj htarget,
      hallowed.1⟩
  | setVideoName _ _ => exact hheld _ hallowed htarget
  | setVideoPrivacy _ _ _ => exact hheld _ hallowed htarget
  | archiveVideo _ _ => exact hheld _ hallowed htarget
  | markVideoComplete _ => exact hheld _ hallowed htarget
  | deleteVideo _ => exact hheld _ hallowed htarget
  | _ => exact absurd htarget nofun

theorem Isolated.ownRecords (h : Isolated storageConfigOf s phases) {c : TenantCall}
    {answer : TenantAnswer c} (hallowed : (isolation storageConfigOf request).allowed (phases i) c)
    (hexec : c.exec storageConfigOf s answer s') : OwnRecords request c answer s s' := by
  have h' := h.step hallowed hexec
  rcases c with c | c
  · obtain ⟨-, world, hworld, rfl⟩ := hexec
    refine ⟨?_, fun id hne => ?_, fun id hne => absurd rfl hne⟩
    · intro userId huser id hmem
      cases c with
      | findOwnedVideo ownerId found =>
        rcases answer with e | _ | video
        · exact absurd hmem List.not_mem_nil
        · exact absurd hmem List.not_mem_nil
        obtain ⟨row, hrow, rfl⟩ := Option.map_eq_some_iff.1 (hworld.2 _ rfl).symm
        obtain ⟨hfound, howner⟩ := Option.filter_eq_some_iff.1 hrow
        rw [List.mem_singleton.1 hmem]
        refine ⟨row, (h.rows.id found row hfound).symm ▸ hfound, (of_decide_eq_true howner).trans ?_⟩
        exact Option.some.inj (hallowed.2.1.symm.trans huser)
      | findVideo found => exact absurd (hallowed.2.1.symm.trans huser) nofun
      | _ => exact absurd hmem List.not_mem_nil
    · rcases exec_row hworld id with heq | ⟨htarget, -⟩
      · exact absurd heq hne
      obtain ⟨video, hvideo, hid, huser⟩ := h.target hallowed htarget
      refine ⟨video.userId, huser, fun row hrow => ?_⟩
      have hrow' : ∃ other ∈ s.created ++ c.stored, other.SameRecording row.toVideoRecord ∧
          row.id = id := by
        rcases hrow with hrow | hrow
        · obtain ⟨other, hother, hsame⟩ := h.rows.created id row hrow
          exact ⟨other, List.mem_append_left _ hother, hsame, h.rows.id id row hrow⟩
        · obtain ⟨other, hother, hsame⟩ := h'.rows.created id row hrow
          exact ⟨other, hother, hsame, h'.rows.id id row hrow⟩
      obtain ⟨other, hother, hsame, hrowId⟩ := hrow'
      have heq := h'.eq_of_id hother hvideo (hsame.id.trans (hrowId.trans hid.symm))
      rw [← hsame.userId, heq]
  · refine ⟨?_, fun id hne => ?_, fun id hne => ?_⟩
    · intro userId huser id hmem
      cases c with
      | listOwnedVideos ownerId =>
        rcases answer with e | videos
        · exact absurd hmem List.not_mem_nil
        obtain ⟨listed, hlisted, rfl⟩ := List.mem_map.1 hmem
        obtain ⟨id, row, hfound, howner, -, rfl⟩ := ((hexec.2 _ rfl).2.2 listed).1 hlisted
        have hid : s.world.videos row.id = s.world.videos id :=
          congrArg s.world.videos (h.rows.id id row hfound)
        refine ⟨row, hid.trans hfound, howner.trans ?_⟩
        exact Option.some.inj (hallowed.symm.trans huser)
      | _ => exact absurd hmem List.not_mem_nil
    · exact absurd (congrArg (World.videos · id) (userCall_frame hexec).1) hne
    · have htarget := (userCall_frame hexec).2.2.2.2 id hne
      cases c with
      | upsertUser changed name createdAt => exact Option.some.inj htarget ▸ hallowed
      | setStorageConfig changed storageConfig => exact Option.some.inj htarget ▸ hallowed
      | _ => exact absurd htarget nofun

theorem Isolated.ownObjects (h : Isolated storageConfigOf s phases) {c : TenantCall}
    (hallowed : (isolation storageConfigOf request).allowed (phases i) c) :
    OwnObjects storageConfigOf request c s := by
  have htouch : ∀ config key, Touches storageConfigOf request (phases i) config key →
      c.storage = [(config, key)] → OwnObjects storageConfigOf request c s := by
    rintro config key ⟨video, hphase, hid, hconfig, hkey⟩ hstorage
    obtain ⟨other, hother, hsame⟩ := h.holding i video hphase
    rw [← hsame.storageConfig] at hconfig
    rw [← hsame.keys] at hkey
    refine ⟨fun id hid' operation hmem => ?_, fun _ operation hmem => .inr (.inr ?_)⟩ <;>
      rw [hstorage] at hmem <;> rw [List.mem_singleton.1 hmem]
    · exact ⟨other, hother, hsame.id.trans (hid id hid'), hconfig, hkey⟩
    · exact ⟨other, hother, hconfig, hkey⟩
  have htest : ∀ config key, request.recordId = none → '/' ∉ key.toList →
      c.storage = [(config, key)] → OwnObjects storageConfigOf request c s := by
    intro config key hid hslash hstorage
    refine ⟨fun id hid' => absurd (hid.symm.trans hid') nofun, fun _ operation hmem => .inl ?_⟩
    rw [hstorage] at hmem
    rw [List.mem_singleton.1 hmem]
    exact hslash
  have hnone : c.storage = [] → OwnObjects storageConfigOf request c s := by
    intro hstorage
    refine ⟨fun _ _ operation hmem => ?_, fun _ operation hmem => ?_⟩ <;>
      rw [hstorage] at hmem <;> exact absurd hmem List.not_mem_nil
  rcases c with c | c
  · cases c with
    | createMultipartUpload config key _ _ =>
      obtain ⟨hid, userId, id, hls, huser, hphase, rfl⟩ := hallowed
      refine ⟨fun id' hid' => absurd (hid.symm.trans hid') nofun,
        fun _ operation hmem => .inr (.inl ?_)⟩
      obtain ⟨hdrawn, hfresh, -⟩ := h.pending i id (by rw [hphase]; rfl)
      rw [List.mem_singleton.1 hmem]
      exact ⟨userId, id, hls, huser, hdrawn, hfresh, rfl⟩
    | completeMultipartUpload config key _ _ => exact htouch config key hallowed rfl
    | abortMultipartUpload config key _ => exact htouch config key hallowed rfl
    | headObject config key => exact htouch config key hallowed rfl
    | getObject config key => exact htouch config key hallowed rfl
    | presignUrl asked => exact htouch _ _ hallowed rfl
    | _ => exact hnone rfl
  · cases c with
    | createTestUpload config key => exact htest config key hallowed.1 hallowed.2 rfl
    | abortTestUpload config key _ => exact htest config key hallowed.1 hallowed.2 rfl
    | _ => exact hnone rfl

end

/-- In every run of requests by any number of users, the records stay apart; and every call of a
request reads and changes what is its user's, and asks the storage for objects of the recording it is
for, under the configuration stored with that recording. -/
theorem tenants_isolated {publicOrigin : String}
    {derivePassword : String → List UInt8 → List UInt8}
    {parseUrl : String → Option (String × String)} {verified : Option (List String)}
    {config : Tenants × List (Thread TenantRequest TenantCall TenantAnswer (Except HttpError Response))}
    (h : (tenancy publicOrigin derivePassword parseUrl verified storageConfigOf).Reachable config) :
    RecordsApart storageConfigOf config.1 ∧ ∀ i c answer config',
      (tenancy publicOrigin derivePassword parseUrl verified storageConfigOf).step config
        (.call i c answer) config' →
      ∃ thread, config.2[i]? = some thread ∧
        OwnRecords thread.request c answer config.1 config'.1 ∧
        OwnObjects storageConfigOf thread.request c config.1 := by
  have hinit : ∀ s : Tenants, s.Initial → Isolated storageConfigOf s fun _ => .idle := by
    intro s hs
    have hvideos : ∀ id row, s.world.videos id ≠ some row := fun id row hrow =>
      absurd ((hs.videos id).symm.trans hrow) nofun
    have hcreated : ∀ video, video ∉ s.created := by
      rw [hs.created]
      exact fun _ => List.not_mem_nil
    refine ⟨⟨fun id row hrow => absurd hrow (hvideos id row), fun id row hrow =>
      absurd hrow (hvideos id row)⟩, fun video hvideo => absurd hvideo (hcreated video), ?_,
      fun video hvideo => absurd hvideo (hcreated video), ?_, fun _ _ hpending => absurd hpending nofun,
      fun _ _ hholding => absurd hholding nofun, ?_⟩
    · rw [hs.created]
      exact List.nodup_nil
    · rw [hs.ids]
      exact fun _ hmem => absurd hmem List.not_mem_nil
    · rw [hs.operations]
      exact fun _ hmem => absurd hmem List.not_mem_nil
  have hbody : ∀ request : TenantRequest,
      (request.handle publicOrigin derivePassword parseUrl verified).run.Follows
        (Tells storageConfigOf) (isolation storageConfigOf request) .idle fun _ _ => True :=
    fun request => Prog.Follows.weaken
      (tenantKeeps_handle publicOrigin derivePassword parseUrl verified request) fun _ _ _ => trivial
  obtain ⟨phases, hstate, -, hthreads⟩ := pool_follows hbody hinit
    (fun _ _ _ _ _ hs hexec => tells_of_exec hs.rows hexec)
    (fun _ _ _ _ _ _ _ hs hallowed hexec => hs.step hallowed hexec) h
  refine ⟨hstate.recordsApart, fun i c answer config' hstep => ?_⟩
  obtain ⟨request, next, hget, hexec, -⟩ := hstep
  have hallowed := (hthreads i _ hget).1
  exact ⟨_, hget, hstate.ownRecords hallowed hexec, hstate.ownObjects hallowed⟩

/-! ### A recording is created -/

private def tenantConfig : StorageConfig where
  endpoint := "https://s3.example"
  region := "auto"
  bucket := "recordings"
  accessKeyId := "key"
  secretAccessKey := "secret"
  forcePathStyle := true

private def tenantConfigOf (value : String) : Option StorageConfig :=
  if value = "sealed" then some tenantConfig else none

private def tenantId : String := "9b2f8c1e-6f0a-4c55-8f3e-1d2c3b4a5e6f"

private def tenantRequest : TenantRequest := .user ⟨"u", "User"⟩ (.create ⟨"demo", none, none⟩)

private def tenantVideo : VideoRecord where
  id := tenantId
  userId := "u"
  name := "demo"
  createdAt := "2026-01-01T00:00:00.000Z"
  objectKey := recordingKey "u" tenantId false
  uploadId := "up"
  storageConfig := "sealed"
  status := .uploading
  privacy := .«public»
  passwordHash := none

/-- A user with a stored configuration, and nothing recorded. -/
private def tenantsBefore : Tenants where
  world :=
    { videos := fun _ => none
      uploads := fun _ _ _ => none
      tokens := []
      drawn := []
      sessions := fun _ => none }
  users := fun id => if id = "u" then some ⟨"User", some "sealed"⟩ else none
  ids := []
  created := []
  operations := []

private def tenantsAuthenticated : Tenants := tenantsBefore.setUser "u" ⟨"User", some "sealed"⟩

private def tenantsDrawn : Tenants := { tenantsAuthenticated with ids := [tenantId] }

private def tenantsStarted : Tenants :=
  { tenantsDrawn with
    world := tenantsDrawn.world.setUpload tenantConfig tenantVideo.objectKey "up" .started
    operations := [(tenantConfig, tenantVideo.objectKey)] }

private def tenantsStored : Tenants :=
  { tenantsStarted with
    world := tenantsStarted.world.insertVideo { toVideoRecord := tenantVideo, archivedAt := none }
    created := [tenantVideo] }

private def tenantLabels : List (PoolStep TenantRequest TenantCall TenantAnswer) :=
  [.arrive tenantRequest,
    .call 0 (.inl .toISOString) "2026-01-01T00:00:00.000Z",
    .call 0 (.inr (.upsertUser "u" "User" "2026-01-01T00:00:00.000Z")) (.ok ()),
    .call 0 (.inr (.selectUser "u")) (.ok (some ⟨"User", some "sealed"⟩)),
    .call 0 (.inl (.decrypt "sealed")) (.ok tenantConfig),
    .call 0 (.inl .randomUUID) tenantId,
    .call 0 (.inl (.createMultipartUpload tenantConfig tenantVideo.objectKey "video/mp4"
      "private, max-age=0")) (.ok (some "up")),
    .call 0 (.inl .toISOString) "2026-01-01T00:00:00.000Z",
    .call 0 (.inl (.createVideo tenantVideo)) (.ok ())]

private theorem tenant_run : (tenancy "https://blip.example" (fun _ _ => []) (fun _ => none) none
    tenantConfigOf).Run (tenantsBefore, []) tenantLabels (tenantsStored, [⟨tenantRequest,
      .done (.ok (.created ⟨tenantId, "up", partSize, viewerUrl "https://blip.example" tenantId⟩))⟩]) := by
  have hclock : ∀ s : Tenants, TenantCall.exec tenantConfigOf s (.inl .toISOString)
      "2026-01-01T00:00:00.000Z" { s with
        ids := s.ids ++ []
        created := s.created ++ []
        operations := s.operations ++ [] } :=
    fun s => ⟨fun _ hid => absurd hid List.not_mem_nil, s.world, rfl, rfl⟩
  refine pool_run_arrive (pool_run_call tenantsBefore rfl (hclock tenantsBefore)
    (pool_run_call tenantsAuthenticated rfl (.inl ?_)
    (pool_run_call tenantsAuthenticated rfl ⟨rfl, ?_⟩
    (pool_run_call tenantsAuthenticated rfl ?_
    (pool_run_call tenantsDrawn rfl ?_
    (pool_run_call tenantsStarted rfl ?_
    (pool_run_call tenantsStarted rfl (hclock tenantsStarted)
    (pool_run_call tenantsStored rfl ?_ (.nil _)))))))))
  · rfl
  · rintro row hrow
    obtain rfl := Except.ok.inj hrow
    rfl
  · refine ⟨fun _ hid => absurd hid List.not_mem_nil, _, ⟨rfl, fun config hconfig => ?_⟩, rfl⟩
    obtain rfl := Except.ok.inj hconfig
    rfl
  · refine ⟨fun id hid => ?_, _, rfl, rfl⟩
    rw [List.mem_singleton.1 hid]
    exact ⟨⟨by decide, by simp [tenantId]⟩, List.not_mem_nil⟩
  · refine ⟨fun _ hid => absurd hid List.not_mem_nil, _, .inl ⟨"up", rfl, rfl, ?_⟩, rfl⟩
    intro uploadId huploadId
    exact (Option.some.inj (Except.ok.inj huploadId)).symm
  · have hcreate : Call.exec tenantConfigOf tenantsStarted.world (.createVideo tenantVideo) (.ok ())
        tenantsStored.world := by
      simp only [Call.exec]
      exact (if_pos rfl).mpr (.inl rfl)
    exact ⟨fun _ hid => absurd hid List.not_mem_nil, _, hcreate, rfl⟩

/-- After the run, the upload of the new record was started under the configuration stored with it. -/
theorem tenants_isolated_created : RecordsApart tenantConfigOf tenantsStored :=
  (tenants_isolated ⟨_, tenantLabels, ⟨⟨fun _ => rfl, rfl, rfl, rfl⟩, rfl⟩, tenant_run⟩).1

end Blip.Server
