import Blip.Capture.ProfileSettings

/-!
# Three holders of one store

What the user's operations on profiles do to the file, the toolbar and the settings window, in any
order. The state also records which servers were imported and not edited or deleted since, and what the
window was opened with.
-/

namespace Blip.Capture

/-- What the stores work with. -/
structure ProfileEnv (Url : Type) where
  urls : UrlLibrary Url
  home : String
  tempDir : String

/-- The texts of the settings window. -/
inductive ProfileText
  | name
  | destination
  | token
deriving DecidableEq

/-- What the user does in the settings window. -/
inductive ProfileAction
  | select (index : ℕ)
  | add (nanos : ℕ)
  | duplicate (nanos : ℕ)
  | delete
  | setRemote (remote : Bool)
  | setCompletionAction (action : CompletionAction)
  | setFormat (format : RecordingFormat)
  | type (text : ProfileText) (value : String)

inductive ProfileEvent
  /-- URLs are opened, each with a reading of the clock. -/
  | importProfileUrls (imports : List (String × ℕ)) (saves : Except String Unit)
  /-- A profile is chosen in the toolbar's menu. -/
  | selectProfile (index : ℕ) (saves : Except String Unit)
  | openSettings
  | closeSettings
  | settings (action : ProfileAction)
  | saveSettings (saves : Except String Unit)

/-- A server and its token, imported to a profile. -/
structure ImportedServer where
  id : String
  server : String
  token : String
deriving DecidableEq

/-- The settings window, with the profiles it was opened with and those the user has edited or deleted
in it. -/
structure SettingsWindow extends ProfileSettings where
  opened : List RecordingProfile
  touched : List String

structure ProfileStores where
  saved : RecordingProfiles
  toolbar : RecordingProfiles
  error : Option String
  window : Option SettingsWindow
  /-- The ids that have been given. -/
  issued : List String
  /-- The imported servers that were not edited or deleted since. -/
  imported : List ImportedServer

variable {Url : Type}

namespace ProfileSettings

/-- An action in the window. -/
def act (env : ProfileEnv Url) (settings : ProfileSettings) : ProfileAction → ProfileSettings
  | .select index => settings.select env.urls index
  | .add nanos => settings.add env.urls env.home nanos
  | .duplicate nanos => settings.duplicate env.urls nanos
  | .delete => settings.delete env.urls
  | .setRemote remote => settings.setRemote env.urls env.home remote
  | .setCompletionAction action => settings.setCompletionAction action
  | .setFormat format => settings.setFormat format
  | .type .name value => { settings with nameInput := value }
  | .type .destination value => { settings with destinationInput := value }
  | .type .token value => { settings with tokenInput := value }

/-- The profile whose text or target an action of the user edits, or that it deletes. -/
def touches (settings : ProfileSettings) : ProfileAction → Bool
  | .delete => settings.profiles.profiles.length ≠ 1
  | .type _ _ => true
  | .setRemote remote =>
    match settings.profiles.profiles[settings.selected]?.map RecordingProfile.target with
    | some (.local _) => remote
    | some (.remote _) => !remote
    | none => false
  | _ => false

def selectedId (settings : ProfileSettings) : Option String :=
  settings.profiles.profiles[settings.selected]?.map RecordingProfile.id

end ProfileSettings

def SettingsWindow.act (env : ProfileEnv Url) (window : SettingsWindow) (action : ProfileAction) :
    SettingsWindow where
  toProfileSettings := window.toProfileSettings.act env action
  opened := window.opened
  touched :=
    if window.touches action then window.selectedId.toList ++ window.touched else window.touched

/-- `import_url` of one URL after the other. -/
def importUrls (urls : UrlLibrary Url) :
    RecordingProfiles → List (String × ℕ) → Except String RecordingProfiles
  | store, [] => .ok store
  | store, (url, nanos) :: imports =>
    match store.importUrl urls nanos url with
    | .error error => .error error
    | .ok store => importUrls urls store imports

/-- The server's URL in an import URL. -/
def importedUrl (urls : UrlLibrary Url) (value : String) : String :=
  (((urls.parse value).map urls.queryPairs).bind (·.lookup "url")).getD ""

/-- The imported servers, with the one of an import. -/
def recordImport (urls : UrlLibrary Url) (imported : List ImportedServer) (store : RecordingProfiles)
    (url : String) : List ImportedServer :=
  let split := splitServerUrl urls (importedUrl urls url)
  ⟨store.selectedProfileId, split.1, split.2⟩ ::
    imported.filter (·.id ≠ store.selectedProfileId)

/-- The imported servers after importing one URL after the other. -/
def recordImports (urls : UrlLibrary Url) :
    List ImportedServer → RecordingProfiles → List (String × ℕ) → List ImportedServer
  | imported, _, [] => imported
  | imported, store, (url, nanos) :: imports =>
    match store.importUrl urls nanos url with
    | .error _ => imported
    | .ok store => recordImports urls (recordImport urls imported store url) store imports

namespace ProfileStores

variable (env : ProfileEnv Url)

/-- The URLs that import a profile. -/
def profileUrls (imports : List (String × ℕ)) : List (String × ℕ) :=
  imports.filter fun url => !opensBundle env.urls url.1

/-- `import_profile_urls`. -/
def importProfileUrls (stores : ProfileStores) (imports : List (String × ℕ))
    (saves : Except String Unit) : ProfileStores :=
  let imports := profileUrls env imports
  if imports = [] then stores
  else
    let loaded := stores.saved.loaded env.home env.tempDir
    match importUrls env.urls loaded imports with
    | .error error => { stores with error := some error }
    | .ok store =>
      match saves with
      | .error error => { stores with error := some error }
      | .ok () =>
        { stores with
          saved := store
          toolbar := store
          error := none
          imported := recordImports env.urls stores.imported loaded imports }

/-- A selection in the toolbar's menu; what is selected stays so when it cannot be saved. -/
def selectProfile (stores : ProfileStores) (index : ℕ) (saves : Except String Unit) : ProfileStores :=
  match stores.toolbar.profiles[index]? with
  | none => stores
  | some profile =>
    let toolbar := { stores.toolbar with selectedProfileId := profile.id }
    match saves with
    | .error error =>
      { stores with
        toolbar
        error := some error }
    | .ok () =>
      { stores with
        toolbar
        saved := toolbar }

def openSettings (stores : ProfileStores) : ProfileStores :=
  { stores with
    window := some {
      toProfileSettings := .ofProfiles env.urls stores.toolbar
      opened := stores.toolbar.profiles
      touched := [] } }

/-- A save of the settings window, which closes it. -/
def saveSettings (stores : ProfileStores) (window : SettingsWindow) (saves : Except String Unit) :
    ProfileStores :=
  let settings := window.commitInputs env.urls
  match ProfileSettings.firstError env.urls settings.profiles.profiles with
  | some error =>
    { stores with
      window := some { window with toProfileSettings := { settings with error := some error } } }
  | none =>
    match saves with
    | .error error =>
      { stores with
        window := some { window with toProfileSettings := { settings with error := some error } } }
    | .ok () =>
      { stores with
        saved := settings.profiles
        toolbar := settings.profiles
        error := none
        window := none
        imported := stores.imported.filter (·.id ∉ window.touched) }

/-- One event. -/
def step (stores : ProfileStores) : ProfileEvent → ProfileStores
  | .importProfileUrls imports saves => stores.importProfileUrls env imports saves
  | .selectProfile index saves => stores.selectProfile index saves
  | .openSettings =>
    match stores.window with
    | none => stores.openSettings env
    | some _ => stores
  | .closeSettings => { stores with window := none }
  | .settings action =>
    match stores.window with
    | none => stores
    | some window => { stores with window := some (window.act env action) }
  | .saveSettings saves =>
    match stores.window with
    | none => stores
    | some window => stores.saveSettings env window saves

end ProfileStores

/-- The readings of the clock in an event. -/
def ProfileEvent.readings : ProfileEvent → List ℕ
  | .importProfileUrls imports _ => imports.map Prod.snd
  | .settings (.add nanos) | .settings (.duplicate nanos) => [nanos]
  | _ => []

/-- The stores, from a file with at least one profile and distinct ids. The readings of the clock are
distinct, so the ids made of them are new. -/
def profileSystem (env : ProfileEnv Url) : System ProfileStores ProfileEvent where
  init stores :=
    stores.saved.profiles ≠ [] ∧ (stores.saved.profiles.map RecordingProfile.id).Nodup ∧
      stores.toolbar = stores.saved.loaded env.home env.tempDir ∧ stores.window = none ∧
      (∀ profile ∈ stores.saved.profiles, profile.id ∈ stores.issued) ∧ stores.imported = []
  step stores event stores' :=
    let ids := event.readings.map newProfileId
    ids.Nodup ∧ (∀ id ∈ ids, id ∉ stores.issued) ∧
      stores' = { stores.step env event with issued := ids ++ stores.issued }

/-! ## Well-formed stores -/

def RecordingProfiles.ids (store : RecordingProfiles) : List String :=
  store.profiles.map RecordingProfile.id

/-- At least one profile, distinct ids that were given before, and a selection that is there. -/
structure RecordingProfiles.Wf (issued : List String) (store : RecordingProfiles) : Prop where
  nonempty : store.ids ≠ []
  nodup : store.ids.Nodup
  selected : store.selectedProfileId ∈ store.ids
  issued : ∀ id ∈ store.ids, id ∈ issued

theorem map_id_modify {f : RecordingProfile → RecordingProfile} (hf : ∀ p, (f p).id = p.id)
    (profiles : List RecordingProfile) (index : ℕ) :
    (profiles.modify index f).map RecordingProfile.id = profiles.map RecordingProfile.id := by
  apply List.ext_getElem?
  intro i
  rw [List.getElem?_map, List.getElem?_map, List.getElem?_modify]
  cases profiles[i]? with
  | none => rfl
  | some p =>
    by_cases h : index = i
    · simp [h, hf]
    · simp [h]

namespace RecordingProfiles

variable {issued : List String} {store : RecordingProfiles}

/-- Well-formedness is about the ids alone. -/
theorem Wf.congr {store' : RecordingProfiles} (h : store.Wf issued) (hids : store'.ids = store.ids)
    (hselected : store'.selectedProfileId = store.selectedProfileId) : store'.Wf issued where
  nonempty := hids ▸ h.nonempty
  nodup := hids ▸ h.nodup
  selected := hids ▸ hselected ▸ h.selected
  issued := hids ▸ h.issued

theorem Wf.weaken (h : store.Wf issued) {issued' : List String}
    (hissued : ∀ id ∈ issued, id ∈ issued') : store.Wf issued' :=
  ⟨h.nonempty, h.nodup, h.selected, fun id hid => hissued id (h.issued id hid)⟩

theorem Wf.modify (h : store.Wf issued) (f : RecordingProfile → RecordingProfile)
    (hf : ∀ p, (f p).id = p.id) (index : ℕ) :
    ({ store with profiles := store.profiles.modify index f } : RecordingProfiles).Wf issued :=
  h.congr (map_id_modify hf store.profiles index) rfl

/-- A profile with a new id at the end. -/
theorem Wf.append (h : store.Wf issued) {profile : RecordingProfile} (hnew : profile.id ∉ issued)
    {selectedProfileId : String}
    (hselected : selectedProfileId = profile.id ∨ selectedProfileId = store.selectedProfileId) :
    ({ profiles := store.profiles ++ [profile]
       selectedProfileId } : RecordingProfiles).Wf (profile.id :: issued) := by
  have hids : ({ profiles := store.profiles ++ [profile]
                 selectedProfileId } : RecordingProfiles).ids = store.ids ++ [profile.id] :=
    List.map_append
  refine ⟨?_, ?_, ?_, ?_⟩
  · rw [hids]
    exact List.append_ne_nil_of_right_ne_nil _ (List.cons_ne_nil _ _)
  · rw [hids, List.nodup_append]
    refine ⟨h.nodup, List.nodup_singleton _, fun id hid id' hid' heq => ?_⟩
    rw [List.mem_singleton] at hid'
    exact hnew (hid' ▸ heq ▸ h.issued id hid)
  · rw [hids]
    rcases hselected with rfl | rfl
    · exact List.mem_append_right _ (List.mem_singleton_self _)
    · exact List.mem_append_left _ h.selected
  · rw [hids]
    intro id hid
    rcases List.mem_append.mp hid with hid | hid
    · exact List.mem_cons_of_mem _ (h.issued id hid)
    · exact List.mem_singleton.mp hid ▸ List.mem_cons_self

/-- What is loaded of a file with profiles of distinct ids. -/
theorem wf_loaded {home tempDir : String} (hne : store.profiles ≠ [])
    (hnodup : store.ids.Nodup) (hissued : ∀ id ∈ store.ids, id ∈ issued) :
    (store.loaded home tempDir).Wf issued ∧ (store.loaded home tempDir).profiles = store.profiles := by
  unfold loaded
  split
  · rename_i hnil
    exact absurd hnil hne
  · rename_i profile profiles hprofiles
    have hids : store.ids ≠ [] := fun hnil => hne (List.map_eq_nil_iff.mp hnil)
    split
    · rename_i hany
      refine ⟨⟨hids, hnodup, ?_, hissued⟩, rfl⟩
      obtain ⟨p, hmem, heq⟩ := List.any_eq_true.mp hany
      exact List.mem_map.mpr ⟨p, hmem, of_decide_eq_true heq⟩
    · refine ⟨⟨hids, hnodup, ?_, hissued⟩, rfl⟩
      exact List.mem_map.mpr ⟨profile, hprofiles ▸ List.mem_cons_self, rfl⟩

/-- The profile of an imported server. -/
def withServer (serverUrl : String) (profile : RecordingProfile) : RecordingProfile :=
  { profile with target := .remote serverUrl }

/-- What an import does that succeeds. -/
theorem importUrl_cases {urls : UrlLibrary Url} {nanos : ℕ} {value : String}
    {store' : RecordingProfiles} (h : store.importUrl urls nanos value = .ok store') :
    let serverUrl := importedUrl urls value
    let matching := store.profiles.findIdx? (ofServer urls (splitServerUrl urls serverUrl).1)
    (∃ index profile, matching = some index ∧ store.profiles[index]? = some profile ∧
      store' = {
        profiles := store.profiles.modify index (withServer serverUrl)
        selectedProfileId := profile.id }) ∨
    ∃ name, matching = none ∧
      (RecordingProfile.newRemote nanos name serverUrl).validate urls = .ok () ∧
      store' = {
        profiles := store.profiles ++ [.newRemote nanos name serverUrl]
        selectedProfileId := newProfileId nanos } := by
  unfold importUrl at h
  split at h
  · cases h
  rename_i importUrl hparse
  split at h
  · cases h
  split at h
  · cases h
  rename_i serverUrl hlookup
  have hserver : importedUrl urls value = serverUrl := by
    rw [importedUrl, hparse, Option.map_some, Option.bind_some, hlookup]
    rfl
  rw [hserver]
  dsimp only at h ⊢
  split at h
  · rename_i index hindex
    obtain ⟨hlt, -⟩ := List.findIdx?_eq_some_iff_getElem.mp hindex
    have hprofile := List.getElem?_eq_getElem hlt
    rw [hprofile] at h
    exact .inl ⟨index, _, hindex, hprofile, (Except.ok.inj h).symm⟩
  · rename_i hnone
    split at h
    · cases h
    split at h
    · cases h
    · rename_i hvalid
      exact .inr ⟨_, hnone, hvalid, (Except.ok.inj h).symm⟩

/-- An import keeps stores well-formed. -/
theorem Wf.importUrl (h : store.Wf issued) {urls : UrlLibrary Url} {nanos : ℕ} {value : String}
    {store' : RecordingProfiles} (hnew : newProfileId nanos ∉ issued)
    (himport : store.importUrl urls nanos value = .ok store') :
    store'.Wf (newProfileId nanos :: issued) := by
  rcases importUrl_cases himport with ⟨index, profile, -, hprofile, rfl⟩ | ⟨name, -, -, rfl⟩
  · have hmem : profile.id ∈ store.ids :=
      List.mem_map.mpr ⟨profile, List.mem_of_getElem? hprofile, rfl⟩
    have hids : ({
        profiles := store.profiles.modify index (withServer (importedUrl urls value))
        selectedProfileId := profile.id } : RecordingProfiles).ids = store.ids :=
      map_id_modify (f := withServer _) (fun _ => rfl) store.profiles index
    refine ⟨?_, ?_, ?_, ?_⟩
    · rw [hids]
      exact h.nonempty
    · rw [hids]
      exact h.nodup
    · rw [hids]
      exact hmem
    · rw [hids]
      exact fun id hid => List.mem_cons_of_mem _ (h.issued id hid)
  · have hid : (RecordingProfile.newRemote nanos name (importedUrl urls value)).id ∉ issued := hnew
    exact h.append hid (.inl rfl)

/-- The imports of several URLs, with new ids. -/
theorem Wf.importUrls {urls : UrlLibrary Url} {imports : List (String × ℕ)} :
    ∀ {store store' : RecordingProfiles} {issued : List String}, store.Wf issued →
      (imports.map fun url => newProfileId url.2).Nodup →
      (∀ url ∈ imports, newProfileId url.2 ∉ issued) →
      Capture.importUrls urls store imports = .ok store' →
      store'.Wf ((imports.map fun url => newProfileId url.2) ++ issued) := by
  induction imports with
  | nil =>
    intro store store' issued h _ _ himport
    exact Except.ok.inj himport ▸ h
  | cons url imports ih =>
    obtain ⟨url, nanos⟩ := url
    intro store store' issued h hnodup hnew himport
    rw [List.map_cons, List.nodup_cons] at hnodup
    unfold Capture.importUrls at himport
    split at himport
    · cases himport
    rename_i next hnext
    have hwf := h.importUrl (hnew _ List.mem_cons_self) hnext
    refine (ih hwf hnodup.2 (fun other hother hmem => ?_) himport).weaken fun id hid => ?_
    · rcases List.mem_cons.mp hmem with heq | hmem
      · exact hnodup.1 (heq ▸ List.mem_map_of_mem hother)
      · exact hnew other (List.mem_cons_of_mem _ hother) hmem
    · rw [List.map_cons, List.cons_append]
      rcases List.mem_append.mp hid with hid | hid
      · exact List.mem_cons_of_mem _ (List.mem_append_left _ hid)
      · rcases List.mem_cons.mp hid with rfl | hid
        · exact List.mem_cons_self
        · exact List.mem_cons_of_mem _ (List.mem_append_right _ hid)

end RecordingProfiles

/-! ## The settings window -/

namespace ProfileSettings

variable {env : ProfileEnv Url} {settings : ProfileSettings}

/-- The window's copy is well-formed, and one of its profiles is selected. -/
structure Wf (issued : List String) (settings : ProfileSettings) : Prop where
  profiles : settings.profiles.Wf issued
  selected : settings.selected < settings.profiles.profiles.length

@[simp] theorem loadInputs_profiles (urls : UrlLibrary Url) (settings : ProfileSettings) :
    (settings.loadInputs urls).profiles = settings.profiles := by
  unfold loadInputs
  split <;> rfl

@[simp] theorem loadInputs_selected (urls : UrlLibrary Url) (settings : ProfileSettings) :
    (settings.loadInputs urls).selected = settings.selected := by
  unfold loadInputs
  split <;> rfl

variable {issued : List String}

theorem Wf.loadInputs (h : settings.Wf issued) (urls : UrlLibrary Url) :
    (settings.loadInputs urls).Wf issued where
  profiles := (loadInputs_profiles urls settings).symm ▸ h.profiles
  selected := by
    rw [loadInputs_selected, loadInputs_profiles]
    exact h.selected

theorem Wf.congr {settings' : ProfileSettings} (h : settings.Wf issued)
    (hprofiles : settings'.profiles = settings.profiles) (hselected : settings'.selected = settings.selected) :
    settings'.Wf issued where
  profiles := hprofiles ▸ h.profiles
  selected := by
    rw [hselected, hprofiles]
    exact h.selected

/-- A change of one profile that keeps its id. -/
theorem Wf.modify (h : settings.Wf issued) (f : RecordingProfile → RecordingProfile)
    (hf : ∀ p, (f p).id = p.id) (index : ℕ) :
    Wf issued { settings with
      profiles.profiles := settings.profiles.profiles.modify index f } where
  profiles := h.profiles.modify f hf index
  selected := by
    rw [List.length_modify]
    exact h.selected

theorem Wf.commitInputs (h : settings.Wf issued) (urls : UrlLibrary Url) :
    (settings.commitInputs urls).Wf issued :=
  h.modify (committed urls _ _ _) (fun _ => rfl) settings.selected

theorem Wf.push (h : settings.Wf issued) (urls : UrlLibrary Url) {profile : RecordingProfile}
    (hnew : profile.id ∉ issued) : (settings.push urls profile).Wf (profile.id :: issued) := by
  refine Wf.loadInputs ⟨h.profiles.append hnew (.inr rfl), ?_⟩ urls
  dsimp only
  rw [List.length_append, List.length_singleton]
  omega

theorem Wf.weaken (h : settings.Wf issued) {issued' : List String}
    (hissued : ∀ id ∈ issued, id ∈ issued') : settings.Wf issued' :=
  ⟨h.profiles.weaken hissued, h.selected⟩

theorem Wf.delete (h : settings.Wf issued) (urls : UrlLibrary Url) :
    (settings.delete urls).Wf issued := by
  unfold ProfileSettings.delete
  split
  · exact h.congr rfl rfl
  rename_i hone
  rw [List.getElem?_eq_getElem h.selected]
  have hpos : 0 < settings.profiles.profiles.length := Nat.zero_lt_of_lt h.selected
  have hlength := List.length_eraseIdx_of_lt h.selected
  have hsub : ((settings.profiles.profiles.eraseIdx settings.selected).map
      RecordingProfile.id).Sublist settings.profiles.ids := (List.eraseIdx_sublist ..).map _
  refine Wf.loadInputs (Wf.mk ⟨?_, ?_, ?_, ?_⟩ ?_) urls
  · intro hnil
    have hzero := congrArg List.length hnil
    rw [RecordingProfiles.ids, List.length_map, hlength, List.length_nil] at hzero
    omega
  · exact hsub.nodup h.profiles.nodup
  · dsimp only
    split
    · -- the selected profile is deleted, and the first of the others takes its place
      cases hrest : settings.profiles.profiles.eraseIdx settings.selected with
      | nil =>
        rw [hrest, List.length_nil] at hlength
        omega
      | cons first rest => exact List.mem_map.mpr ⟨first, List.mem_cons_self, rfl⟩
    · rename_i hne
      obtain ⟨kept, hkept, hid⟩ := List.mem_map.mp h.profiles.selected
      obtain ⟨i, hi⟩ := List.mem_iff_getElem?.mp hkept
      have hother : i ≠ settings.selected := by
        rintro rfl
        rw [List.getElem?_eq_getElem h.selected] at hi
        exact hne (hid.symm.trans (congrArg RecordingProfile.id (Option.some.inj hi).symm))
      have hmem : kept ∈ settings.profiles.profiles.eraseIdx settings.selected :=
        List.mem_eraseIdx_iff_getElem?.mpr ⟨i, hother, hi⟩
      exact List.mem_map.mpr ⟨kept, hmem, hid⟩
  · exact fun id hid => h.profiles.issued id (hsub.subset hid)
  · dsimp only
    rw [hlength]
    omega

/-- The id an action gives to a profile. -/
def givenIds : ProfileAction → List String
  | .add nanos | .duplicate nanos => [newProfileId nanos]
  | _ => []

/-- Every action keeps the window's copy well-formed. -/
theorem Wf.act (h : settings.Wf issued) (action : ProfileAction)
    (hnew : ∀ id ∈ givenIds action, id ∉ issued) :
    (settings.act env action).Wf (givenIds action ++ issued) := by
  have hcommit := h.commitInputs env.urls
  cases action with
  | select index =>
    unfold ProfileSettings.act ProfileSettings.select
    dsimp only
    split
    · exact hcommit
    · rename_i hsome
      apply Wf.loadInputs
      exact ⟨hcommit.profiles, Nat.lt_of_not_le (List.getElem?_eq_none_iff.not.mp hsome)⟩
  | add nanos =>
    have hid : (RecordingProfile.newLocal nanos (joinPath env.home "Desktop")).id ∉ issued :=
      hnew _ List.mem_cons_self
    exact hcommit.push env.urls hid
  | duplicate nanos =>
    unfold ProfileSettings.act ProfileSettings.duplicate
    dsimp only
    split
    · exact hcommit.weaken fun id hid => List.mem_cons_of_mem _ hid
    · rename_i profile _
      have hid : (profile.duplicate nanos).id ∉ issued := hnew _ List.mem_cons_self
      exact hcommit.push env.urls hid
  | delete => exact h.delete env.urls
  | setRemote remote =>
    unfold ProfileSettings.act ProfileSettings.setRemote
    dsimp only
    split
    · exact hcommit
    · refine Wf.loadInputs ?_ env.urls
      refine Wf.congr (hcommit.modify (retargeted env.home remote) (fun profile => ?_) _) rfl rfl
      unfold retargeted
      split <;> rfl
  | setCompletionAction completionAction =>
    exact h.modify (fun profile => { profile with completionAction }) (fun _ => rfl) _
  | setFormat format => exact h.modify (fun profile => { profile with format }) (fun _ => rfl) _
  | type text value =>
    cases text with
    | name => exact h.congr rfl rfl
    | destination => exact h.congr rfl rfl
    | token => exact h.congr rfl rfl

end ProfileSettings

/-! ## Every store is well-formed -/

namespace ProfileStores

variable {env : ProfileEnv Url} {stores : ProfileStores} {initial : RecordingProfiles}

/-- The toolbar and the window hold well-formed stores; the file has the toolbar's profiles, and is
well-formed once it is saved. -/
structure Inv (initial : RecordingProfiles) (stores : ProfileStores) : Prop where
  saved : stores.saved = initial ∨ stores.saved.Wf stores.issued
  same : stores.saved.profiles = stores.toolbar.profiles
  toolbar : stores.toolbar.Wf stores.issued
  window : ∀ window ∈ stores.window, window.Wf stores.issued

theorem Inv.init (h : (profileSystem env).init stores) : stores.Inv stores.saved := by
  obtain ⟨hne, hnodup, htoolbar, hwindow, hissued, -⟩ := h
  have hids : ∀ id ∈ stores.saved.ids, id ∈ stores.issued := by
    intro id hid
    obtain ⟨profile, hmem, rfl⟩ := List.mem_map.mp hid
    exact hissued profile hmem
  obtain ⟨hwf, hprofiles⟩ : (stores.saved.loaded env.home env.tempDir).Wf stores.issued ∧ _ :=
    RecordingProfiles.wf_loaded hne hnodup hids
  refine ⟨.inl rfl, ?_, ?_, ?_⟩
  · rw [htoolbar, hprofiles]
  · rw [htoolbar]
    exact hwf
  · rw [hwindow]
    exact fun _ hmem => absurd hmem (by simp)

/-- More ids given. -/
theorem Inv.weaken (h : stores.Inv initial) (ids : List String) :
    Inv initial { stores with issued := ids ++ stores.issued } where
  saved := h.saved.imp_right fun hwf => hwf.weaken fun _ hid => List.mem_append_right _ hid
  same := h.same
  toolbar := h.toolbar.weaken fun _ hid => List.mem_append_right _ hid
  window window hmem := (h.window window hmem).weaken fun _ hid => List.mem_append_right _ hid

/-- What is loaded of the file. -/
theorem Inv.loaded (h : stores.Inv initial) :
    (stores.saved.loaded env.home env.tempDir).Wf stores.issued ∧
      (stores.saved.loaded env.home env.tempDir).profiles = stores.toolbar.profiles := by
  have hids : stores.saved.ids = stores.toolbar.ids := congrArg (List.map _) h.same
  have hne : stores.saved.profiles ≠ [] := fun hnil =>
    h.toolbar.nonempty (hids ▸ congrArg (List.map _) hnil)
  rw [← h.same]
  exact RecordingProfiles.wf_loaded hne (hids ▸ h.toolbar.nodup) (hids ▸ h.toolbar.issued)

theorem wf_ofProfiles {issued : List String} {store : RecordingProfiles} (h : store.Wf issued)
    (urls : UrlLibrary Url) : (ProfileSettings.ofProfiles urls store).Wf issued := by
  apply ProfileSettings.Wf.loadInputs
  refine ⟨h, ?_⟩
  dsimp only
  have hpos : 0 < store.profiles.length :=
    List.length_pos_of_ne_nil fun hnil => h.nonempty (congrArg (List.map _) hnil)
  unfold RecordingProfiles.selectedIndex
  cases hindex : store.profiles.findIdx? fun profile => profile.id = store.selectedProfileId with
  | none => exact hpos
  | some index => exact (List.findIdx?_eq_some_iff_getElem.mp hindex).1

/-- A store that is saved and shown in the toolbar. -/
theorem Inv.replace (h : stores.Inv initial) {store : RecordingProfiles} {issued : List String}
    (hstore : store.Wf issued) (hissued : ∀ id ∈ stores.issued, id ∈ issued)
    {stores' : ProfileStores} (hsaved : stores'.saved = store) (htoolbar : stores'.toolbar = store)
    (hwindow : ∀ window ∈ stores'.window, window ∈ stores.window) (hids : stores'.issued = issued) :
    Inv initial stores' where
  saved := .inr (hsaved ▸ hids ▸ hstore)
  same := congrArg RecordingProfiles.profiles (hsaved.trans htoolbar.symm)
  toolbar := htoolbar ▸ hids ▸ hstore
  window window hmem := hids ▸ (h.window window (hwindow window hmem)).weaken hissued

/-- An import gives ids that are new. -/
theorem Inv.importProfileUrls (h : stores.Inv initial) {imports : List (String × ℕ)}
    {saves : Except String Unit} (hnodup : ((imports.map Prod.snd).map newProfileId).Nodup)
    (hnew : ∀ id ∈ (imports.map Prod.snd).map newProfileId, id ∉ stores.issued) :
    Inv initial { stores.importProfileUrls env imports saves with
      issued := (imports.map Prod.snd).map newProfileId ++ stores.issued } := by
  have hmore := h.weaken ((imports.map Prod.snd).map newProfileId)
  unfold ProfileStores.importProfileUrls
  dsimp only
  split
  · exact hmore
  split
  · exact ⟨hmore.saved, hmore.same, hmore.toolbar, hmore.window⟩
  · rename_i store himport
    cases saves with
    | error error => exact ⟨hmore.saved, hmore.same, hmore.toolbar, hmore.window⟩
    | ok _ =>
      have hsub : (profileUrls env imports).Sublist imports := List.filter_sublist
      have hids : ((imports.map Prod.snd).map newProfileId) =
          imports.map fun url => newProfileId url.2 := List.map_map
      have hfresh : ∀ url ∈ profileUrls env imports, newProfileId url.2 ∉ stores.issued :=
        fun url hmem => hnew _ (hids ▸ List.mem_map_of_mem (hsub.subset hmem))
      have hwf := h.loaded.1.importUrls ((hsub.map _).nodup (hids ▸ hnodup)) hfresh himport
      refine h.replace (hwf.weaken fun id hid => ?_) (fun _ hid => List.mem_append_right _ hid)
        rfl rfl (fun _ hmem => hmem) rfl
      rcases List.mem_append.mp hid with hid | hid
      · exact List.mem_append_left _ (hids ▸ (hsub.map _).subset hid)
      · exact List.mem_append_right _ hid

theorem Inv.selectProfile (h : stores.Inv initial) (index : ℕ) (saves : Except String Unit) :
    Inv initial { stores.selectProfile index saves with issued := stores.issued } := by
  unfold ProfileStores.selectProfile
  dsimp only
  split
  · exact h
  · rename_i profile hprofile
    have hwf : ({ stores.toolbar with selectedProfileId := profile.id } : RecordingProfiles).Wf
        stores.issued :=
      ⟨h.toolbar.nonempty, h.toolbar.nodup,
        List.mem_map.mpr ⟨profile, List.mem_of_getElem? hprofile, rfl⟩, h.toolbar.issued⟩
    cases saves with
    | error error => exact ⟨h.saved, h.same, hwf, h.window⟩
    | ok _ => exact h.replace hwf (fun _ hid => hid) rfl rfl (fun _ hmem => hmem) rfl

theorem Inv.saveSettings (h : stores.Inv initial) {window : SettingsWindow}
    (hwindow : window ∈ stores.window) (saves : Except String Unit) :
    Inv initial { stores.saveSettings env window saves with issued := stores.issued } := by
  have hcommit := (h.window window hwindow).commitInputs env.urls
  unfold ProfileStores.saveSettings
  dsimp only
  split
  · -- the window stays, with what was typed
    refine ⟨h.saved, h.same, h.toolbar, fun window' hmem => ?_⟩
    obtain rfl := Option.mem_some.mp hmem
    exact hcommit.congr rfl rfl
  · cases saves with
    | error error =>
      refine ⟨h.saved, h.same, h.toolbar, fun window' hmem => ?_⟩
      obtain rfl := Option.mem_some.mp hmem
      exact hcommit.congr rfl rfl
    | ok _ =>
      exact h.replace hcommit.profiles (fun _ hid => hid) rfl rfl
        (fun _ hmem => absurd hmem (by simp)) rfl

theorem Inv.step (h : stores.Inv initial) {event : ProfileEvent} {stores' : ProfileStores}
    (hstep : (profileSystem env).step stores event stores') : stores'.Inv initial := by
  obtain ⟨hnodup, hnew, rfl⟩ := hstep
  have hmore := h.weaken (event.readings.map newProfileId)
  cases event with
  | importProfileUrls imports saves => exact h.importProfileUrls hnodup hnew
  | selectProfile index saves => exact h.selectProfile index saves
  | openSettings =>
    unfold ProfileStores.step
    dsimp only
    split
    · refine ⟨hmore.saved, hmore.same, hmore.toolbar, fun window hmem => ?_⟩
      obtain rfl := Option.mem_some.mp hmem
      exact wf_ofProfiles h.toolbar env.urls
    · exact hmore
  | closeSettings =>
    exact ⟨hmore.saved, hmore.same, hmore.toolbar, fun _ hmem => (Option.not_mem_none _ hmem).elim⟩
  | settings action =>
    unfold ProfileStores.step
    dsimp only
    split
    · exact hmore
    · rename_i window hwindow
      refine ⟨hmore.saved, hmore.same, hmore.toolbar, fun window' hmem => ?_⟩
      obtain rfl := Option.mem_some.mp hmem
      have hids : ((ProfileEvent.settings action).readings.map newProfileId) =
          ProfileSettings.givenIds action := by cases action <;> rfl
      rw [hids] at hnew ⊢
      exact (h.window window hwindow).act action hnew
  | saveSettings saves =>
    unfold ProfileStores.step
    dsimp only
    split
    · exact hmore
    · rename_i window hwindow
      exact h.saveSettings hwindow saves

end ProfileStores

end Blip.Capture
