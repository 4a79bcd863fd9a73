import Blip.Capture.ProfileStores

/-!
# What is left of imported servers

A server that was imported stays in the stores with its token until the user edits or deletes its
profile, as long as the settings window is saved only while the toolbar has the profiles the window was
opened with. A profile that the user only looks at in the window keeps its server and token, though the
text of its URL can change.
-/

namespace Blip.Capture

variable {Url : Type}

/-! ## Servers and tokens -/

/-- What is relied on of the URL library. A URL is parsed as it was printed, and printing it leaves no
white space around it or its fragment; a fragment is printed as it was parsed. -/
structure UrlLibrary.Lawful (urls : UrlLibrary Url) : Prop where
  parse_text : ∀ url, urls.parse (urls.text url) = some url
  trim_text : ∀ url, trim (urls.text url) = urls.text url
  trim_fragment : ∀ url fragment, urls.fragment url = some fragment → trim fragment = fragment
  fragment_setFragment : ∀ url url' fragment,
    fragment = "" ∨ urls.fragment url' = some fragment →
      urls.fragment (urls.setFragment (some fragment) url) = some fragment
  setFragment_none : ∀ url fragment,
    urls.setFragment none (urls.setFragment (some fragment) (urls.setFragment none url)) =
      urls.setFragment none url

/-- The profile records to a server, with a token. -/
def RecordingProfile.Serves (urls : UrlLibrary Url) (server token : String)
    (profile : RecordingProfile) : Prop :=
  ∃ serverUrl url, profile.target = .remote serverUrl ∧ urls.parse (trim serverUrl) = some url ∧
    server = urls.text (urls.setFragment none url) ∧ token = (urls.fragment url).getD ""

namespace RecordingProfile

variable {urls : UrlLibrary Url} {server token : String} {profile : RecordingProfile}

theorem Serves.split (h : profile.Serves urls server token) :
    ∃ serverUrl, profile.target = .remote serverUrl ∧
      splitServerUrl urls serverUrl = (server, token) := by
  obtain ⟨serverUrl, url, htarget, hparse, rfl, rfl⟩ := h
  refine ⟨serverUrl, htarget, ?_⟩
  rw [splitServerUrl, hparse]

theorem Serves.shown (h : profile.Serves urls server token) :
    ProfileSettings.shown urls profile = (server, token) := by
  obtain ⟨serverUrl, htarget, hsplit⟩ := h.split
  rw [ProfileSettings.shown, htarget]
  exact hsplit

/-- Committing the server and token that are shown keeps them. -/
theorem Serves.committed (hurls : urls.Lawful) (h : profile.Serves urls server token)
    (name : String) : (ProfileSettings.committed urls name server token profile).Serves urls server
      token := by
  obtain ⟨serverUrl, url, htarget, -, rfl, rfl⟩ := h
  have htrim : trim ((urls.fragment url).getD "") = (urls.fragment url).getD "" := by
    cases hfragment : urls.fragment url with
    | none => decide
    | some fragment => exact hurls.trim_fragment url fragment hfragment
  have hfragment : urls.fragment (urls.setFragment (some ((urls.fragment url).getD ""))
      (urls.setFragment none url)) = some ((urls.fragment url).getD "") := by
    refine hurls.fragment_setFragment _ url _ ?_
    cases urls.fragment url with
    | none => exact .inl rfl
    | some fragment => exact .inr rfl
  have hbare := hurls.setFragment_none url ((urls.fragment url).getD "")
  obtain ⟨whole, hwhole⟩ : ∃ whole, whole = urls.setFragment
      (some ((urls.fragment url).getD "")) (urls.setFragment none url) := ⟨_, rfl⟩
  rw [← hwhole] at hfragment hbare
  refine ⟨urls.text whole, whole, ?_, ?_, ?_, ?_⟩
  · rw [ProfileSettings.committed, htarget]
    dsimp only
    rw [joinServerUrl, hurls.trim_text, hurls.trim_text, hurls.parse_text, htrim, htrim, hwhole]
  · rw [hurls.trim_text, hurls.parse_text]
  · rw [hbare]
  · rw [hfragment]
    rfl

end RecordingProfile

namespace ProfileSettings

variable {env : ProfileEnv Url} {settings : ProfileSettings} {id server token : String}

/-- The window's copy has the profile `id`, which records to the server with the token. -/
def Has (urls : UrlLibrary Url) (id server token : String) (settings : ProfileSettings) : Prop :=
  ∃ profile ∈ settings.profiles.profiles, profile.id = id ∧ profile.Serves urls server token

/-- The window's copy has the profile, and when it is the selected one its server and token are those
of the inputs. -/
def Keeps (urls : UrlLibrary Url) (id server token : String) (settings : ProfileSettings) : Prop :=
  ∃ index profile, settings.profiles.profiles[index]? = some profile ∧ profile.id = id ∧
    profile.Serves urls server token ∧
    (index = settings.selected → settings.destinationInput = server ∧ settings.tokenInput = token)

theorem Keeps.has (h : settings.Keeps env.urls id server token) :
    settings.Has env.urls id server token := by
  obtain ⟨index, profile, hprofile, hid, hserves, -⟩ := h
  exact ⟨profile, List.mem_of_getElem? hprofile, hid, hserves⟩

/-- Loading the inputs shows what the selected profile has. -/
theorem Has.loadInputs (h : settings.Has env.urls id server token) :
    (settings.loadInputs env.urls).Keeps env.urls id server token := by
  obtain ⟨profile, hmem, hid, hserves⟩ := h
  obtain ⟨index, hprofile⟩ := List.mem_iff_getElem?.mp hmem
  refine ⟨index, profile, ?_, hid, hserves, fun hindex => ?_⟩
  · rw [loadInputs_profiles]
    exact hprofile
  · rw [loadInputs_selected] at hindex
    rw [ProfileSettings.loadInputs, ← hindex, hprofile]
    dsimp only
    rw [hserves.shown]
    exact ⟨rfl, rfl⟩

theorem Keeps.commitInputs (hurls : env.urls.Lawful) (h : settings.Keeps env.urls id server token) :
    (settings.commitInputs env.urls).Keeps env.urls id server token := by
  obtain ⟨index, profile, hprofile, hid, hserves, hinputs⟩ := h
  have hindex : (settings.commitInputs env.urls).profiles.profiles[index]? = some
      (if settings.selected = index then
        committed env.urls settings.nameInput settings.destinationInput settings.tokenInput profile
      else profile) := by
    unfold ProfileSettings.commitInputs
    dsimp only
    rw [List.getElem?_modify, hprofile]
    split <;> rfl
  refine ⟨index, _, hindex, ?_, ?_, hinputs⟩
  · split <;> exact hid
  · split
    · rename_i hselected
      obtain ⟨hdestination, htoken⟩ := hinputs hselected.symm
      rw [hdestination, htoken]
      exact hserves.committed hurls settings.nameInput
    · exact hserves

theorem Has.push (h : settings.Has env.urls id server token) (profile : RecordingProfile) :
    (settings.push env.urls profile).Keeps env.urls id server token := by
  apply Has.loadInputs
  obtain ⟨kept, hmem, hid, hserves⟩ := h
  exact ⟨kept, List.mem_append_left _ hmem, hid, hserves⟩

/-- A change of the selected profile that is not to its id or target. -/
theorem Keeps.modify (h : settings.Keeps env.urls id server token)
    {f : RecordingProfile → RecordingProfile} (hid : ∀ p, (f p).id = p.id)
    (htarget : ∀ p, (f p).target = p.target) :
    Keeps env.urls id server token { settings with
      profiles.profiles := settings.profiles.profiles.modify settings.selected f } := by
  obtain ⟨index, profile, hprofile, heq, ⟨serverUrl, url, hremote, hserves⟩, hinputs⟩ := h
  have hindex : (settings.profiles.profiles.modify settings.selected f)[index]? =
      some (if settings.selected = index then f profile else profile) := by
    rw [List.getElem?_modify, hprofile]
    split <;> rfl
  refine ⟨index, _, hindex, ?_, ?_, hinputs⟩
  · split
    · exact (hid profile).trans heq
    · exact heq
  · refine ⟨serverUrl, url, ?_, hserves⟩
    split
    · exact (htarget profile).trans hremote
    · exact hremote

/-- A profile that is not the selected one. -/
theorem Keeps.ne_selected {index : ℕ} {profile : RecordingProfile}
    (hne : settings.selectedId ≠ some id) (hprofile : settings.profiles.profiles[index]? = some profile)
    (hid : profile.id = id) : index ≠ settings.selected := by
  rintro rfl
  refine hne ?_
  rw [selectedId, hprofile]
  exact congrArg some hid

theorem Keeps.delete (h : settings.Keeps env.urls id server token)
    (hne : settings.profiles.profiles.length ≠ 1 → settings.selectedId ≠ some id) :
    (settings.delete env.urls).Keeps env.urls id server token := by
  unfold ProfileSettings.delete
  split
  · exact h
  rename_i hone
  have hkept := h
  obtain ⟨index, profile, hprofile, hid, hserves, -⟩ := hkept
  split
  · exact h
  · apply Has.loadInputs
    have hother := Keeps.ne_selected (hne hone) hprofile hid
    exact ⟨profile, List.mem_eraseIdx_iff_getElem?.mpr ⟨index, hother, hprofile⟩, hid, hserves⟩

theorem Keeps.setRemote (hurls : env.urls.Lawful) (h : settings.Keeps env.urls id server token)
    {remote : Bool}
    (hne : settings.touches (.setRemote remote) = true → settings.selectedId ≠ some id) :
    (settings.setRemote env.urls env.home remote).Keeps env.urls id server token := by
  have hcommit := h.commitInputs hurls
  unfold ProfileSettings.setRemote
  dsimp only
  split
  · exact hcommit
  apply Has.loadInputs
  obtain ⟨index, profile, hprofile, hid, hserves, -⟩ := hcommit
  obtain ⟨serverUrl, htarget, -⟩ := hserves.split
  refine ⟨profile, List.mem_iff_getElem?.mpr ⟨index, ?_⟩, hid, hserves⟩
  rw [List.getElem?_modify, hprofile]
  split
  · rename_i hselected
    cases remote with
    | true => simp [retargeted, htarget]
    | false =>
      -- the selected profile records to a server, so the action would edit it
      exfalso
      obtain rfl : settings.selected = index := hselected
      simp only [ProfileSettings.commitInputs, List.getElem?_modify, if_true] at hprofile
      cases hbefore : settings.profiles.profiles[settings.selected]? with
      | none =>
        rw [hbefore] at hprofile
        cases hprofile
      | some before =>
        rw [hbefore] at hprofile
        obtain rfl := Option.some.inj hprofile
        refine hne ?_ ?_
        · rw [touches, hbefore]
          cases hkind : before.target with
          | «local» folder =>
            simp [committed, hkind] at htarget
          | remote serverUrl => simp [hkind]
        · rw [selectedId, hbefore]
          exact congrArg some hid
  · rfl

/-- What the user does not edit or delete is kept. -/
theorem Keeps.act (hurls : env.urls.Lawful) (h : settings.Keeps env.urls id server token)
    (action : ProfileAction)
    (hne : settings.touches action = true → settings.selectedId ≠ some id) :
    (settings.act env action).Keeps env.urls id server token := by
  have hcommit := h.commitInputs hurls
  cases action with
  | select index =>
    unfold ProfileSettings.act ProfileSettings.select
    dsimp only
    split
    · exact hcommit
    · apply Has.loadInputs
      exact hcommit.has
  | add nanos => exact hcommit.has.push _
  | duplicate nanos =>
    unfold ProfileSettings.act ProfileSettings.duplicate
    dsimp only
    split
    · exact hcommit
    · exact hcommit.has.push _
  | delete => exact h.delete fun hone => hne (decide_eq_true hone)
  | setRemote remote => exact h.setRemote hurls hne
  | setCompletionAction action => exact h.modify (fun _ => rfl) fun _ => rfl
  | setFormat format => exact h.modify (fun _ => rfl) fun _ => rfl
  | type text value =>
    obtain ⟨index, profile, hprofile, hid, hserves, hinputs⟩ := h
    have hother := Keeps.ne_selected (hne rfl) hprofile hid
    cases text with
    | name => exact ⟨index, profile, hprofile, hid, hserves, hinputs⟩
    | destination => exact ⟨index, profile, hprofile, hid, hserves, fun heq => absurd heq hother⟩
    | token => exact ⟨index, profile, hprofile, hid, hserves, fun heq => absurd heq hother⟩

end ProfileSettings

/-! ## Imports -/

/-- Every imported server is in the store, with its token. -/
def Tracked (urls : UrlLibrary Url) (imported : List ImportedServer) (store : RecordingProfiles) : Prop :=
  ∀ server ∈ imported, ∃ profile ∈ store.profiles, profile.id = server.id ∧
    profile.Serves urls server.server server.token

namespace RecordingProfiles

variable {urls : UrlLibrary Url} {store store' : RecordingProfiles} {imported : List ImportedServer}

/-- The URL of a server that is parsed makes its profile record there. -/
theorem serves_of_parse {serverUrl : String} (hparse : (urls.parse (trim serverUrl)).isSome)
    {profile : RecordingProfile} (htarget : profile.target = .remote serverUrl) :
    profile.Serves urls (splitServerUrl urls serverUrl).1 (splitServerUrl urls serverUrl).2 := by
  obtain ⟨url, hurl⟩ := Option.isSome_iff_exists.mp hparse
  refine ⟨serverUrl, url, htarget, hurl, ?_, ?_⟩ <;> rw [splitServerUrl, hurl]

theorem tracked_importUrl {nanos : ℕ} {value : String}
    (hparse : (urls.parse (trim (importedUrl urls value))).isSome)
    (himport : store.importUrl urls nanos value = .ok store') (h : Tracked urls imported store) :
    Tracked urls (recordImport urls imported store' value) store' := by
  intro server hserver
  rcases importUrl_cases himport with ⟨index, profile, -, hprofile, rfl⟩ | ⟨name, -, -, rfl⟩
  · have hindex : (store.profiles.modify index (withServer (importedUrl urls value)))[index]? =
        some (withServer (importedUrl urls value) profile) := by
      rw [List.getElem?_modify, hprofile]
      simp
    rcases List.mem_cons.mp hserver with rfl | hserver
    · exact ⟨_, List.mem_of_getElem? hindex, rfl, serves_of_parse hparse rfl⟩
    · obtain ⟨hmem, hne⟩ := List.mem_filter.mp hserver
      obtain ⟨kept, hkept, hid, hserves⟩ := h server hmem
      obtain ⟨i, hi⟩ := List.mem_iff_getElem?.mp hkept
      have hother : index ≠ i := by
        rintro rfl
        rw [hprofile] at hi
        obtain rfl := Option.some.inj hi
        exact of_decide_eq_true hne hid.symm
      refine ⟨kept, List.mem_iff_getElem?.mpr ⟨i, ?_⟩, hid, hserves⟩
      rw [List.getElem?_modify, hi]
      simp [hother]
  · rcases List.mem_cons.mp hserver with rfl | hserver
    · exact ⟨_, List.mem_append_right _ List.mem_cons_self, rfl, serves_of_parse hparse rfl⟩
    · obtain ⟨hmem, -⟩ := List.mem_filter.mp hserver
      obtain ⟨kept, hkept, hid, hserves⟩ := h server hmem
      exact ⟨kept, List.mem_append_left _ hkept, hid, hserves⟩

theorem tracked_importUrls {imports : List (String × ℕ)}
    (hparse : ∀ url ∈ imports, (urls.parse (trim (importedUrl urls url.1))).isSome)
    (himport : Capture.importUrls urls store imports = .ok store')
    (h : Tracked urls imported store) :
    Tracked urls (recordImports urls imported store imports) store' := by
  induction imports generalizing store imported with
  | nil =>
    obtain rfl := Except.ok.inj himport
    exact h
  | cons url imports ih =>
    obtain ⟨url, nanos⟩ := url
    unfold Capture.importUrls at himport
    unfold recordImports
    split at himport
    · cases himport
    · rename_i next hnext
      have hurl : (urls.parse (trim (importedUrl urls url))).isSome :=
        hparse (url, nanos) List.mem_cons_self
      exact ih (fun other hother => hparse other (List.mem_cons_of_mem _ hother)) himport
        (tracked_importUrl hurl hnext h)

end RecordingProfiles

/-! ## Runs -/

namespace ProfileStores

variable {env : ProfileEnv Url} {stores : ProfileStores} {initial : RecordingProfiles}

/-- Imported servers parse as URLs, and the window is saved while the toolbar has the profiles that the
window was opened with. -/
def KeepsImports (env : ProfileEnv Url) (stores : ProfileStores) : ProfileEvent → Prop
  | .importProfileUrls imports _ =>
    ∀ store, importUrls env.urls (stores.saved.loaded env.home env.tempDir)
        (profileUrls env imports) = .ok store →
      ∀ url ∈ profileUrls env imports, (env.urls.parse (trim (importedUrl env.urls url.1))).isSome
  | .saveSettings _ => ∀ window ∈ stores.window, window.opened = stores.toolbar.profiles
  | _ => True

/-- The toolbar has every imported server, and the window what it was opened with, but for what the
user edited or deleted. -/
structure Tracks (env : ProfileEnv Url) (stores : ProfileStores) : Prop where
  imported : Tracked env.urls stores.imported stores.toolbar
  window : ∀ window ∈ stores.window, ∀ profile ∈ window.opened, profile.id ∉ window.touched →
    ∀ server token, profile.Serves env.urls server token →
      window.Keeps env.urls profile.id server token

theorem Tracked.congr {urls : UrlLibrary Url} {imported : List ImportedServer}
    {store store' : RecordingProfiles} (h : Tracked urls imported store)
    (hprofiles : store'.profiles = store.profiles) : Tracked urls imported store' := by
  intro server hserver
  rw [hprofiles]
  exact h server hserver

theorem Tracks.importProfileUrls (hinv : stores.Inv initial) (h : stores.Tracks env)
    {imports : List (String × ℕ)} {saves : Except String Unit}
    (hkeeps : stores.KeepsImports env (.importProfileUrls imports saves)) :
    (stores.importProfileUrls env imports saves).Tracks env := by
  unfold ProfileStores.importProfileUrls
  dsimp only
  split
  · exact h
  split
  · exact ⟨h.imported, h.window⟩
  · rename_i store himport
    cases saves with
    | error error => exact ⟨h.imported, h.window⟩
    | ok _ =>
      have hloaded : Tracked env.urls stores.imported (stores.saved.loaded env.home env.tempDir) :=
        Tracked.congr h.imported hinv.loaded.2
      exact ⟨RecordingProfiles.tracked_importUrls (hkeeps store himport) himport hloaded, h.window⟩

theorem Tracks.selectProfile (h : stores.Tracks env) (index : ℕ) (saves : Except String Unit) :
    (stores.selectProfile index saves).Tracks env := by
  unfold ProfileStores.selectProfile
  dsimp only
  split
  · exact h
  · cases saves with
    | error error => exact ⟨Tracked.congr h.imported rfl, h.window⟩
    | ok _ => exact ⟨Tracked.congr h.imported rfl, h.window⟩

/-- A profile that an action does not touch stays as it was when the window was opened. -/
theorem Tracks.act (hurls : env.urls.Lawful) (h : stores.Tracks env) {window : SettingsWindow}
    (hwindow : window ∈ stores.window) (action : ProfileAction) :
    Tracks env { stores with window := some (window.act env action) } := by
  refine ⟨h.imported, fun window' hmem profile hprofile htouched server token hserves => ?_⟩
  obtain rfl := Option.mem_some.mp hmem
  have hmore : (window.touches action = true → window.selectedId ≠ some profile.id) ∧
      profile.id ∉ window.touched := by
    unfold SettingsWindow.act at htouched
    dsimp only at htouched
    split at htouched
    · rename_i htouches
      rw [List.mem_append, not_or, Option.mem_toList] at htouched
      exact ⟨fun _ => htouched.1, htouched.2⟩
    · rename_i htouches
      exact ⟨fun htouches' => absurd htouches' htouches, htouched⟩
  exact (h.window window hwindow profile hprofile hmore.2 server token hserves).act hurls action
    hmore.1

theorem Tracks.saveSettings (hurls : env.urls.Lawful) (h : stores.Tracks env)
    {window : SettingsWindow} (hwindow : window ∈ stores.window)
    (hopened : window.opened = stores.toolbar.profiles) (saves : Except String Unit) :
    (stores.saveSettings env window saves).Tracks env := by
  have hcommit : ∀ profile ∈ window.opened, profile.id ∉ window.touched →
      ∀ server token, profile.Serves env.urls server token →
        (window.commitInputs env.urls).Keeps env.urls profile.id server token :=
    fun profile hprofile htouched server token hserves =>
      (h.window window hwindow profile hprofile htouched server token hserves).commitInputs hurls
  unfold ProfileStores.saveSettings
  dsimp only
  split
  · refine ⟨h.imported, fun window' hmem => ?_⟩
    obtain rfl := Option.mem_some.mp hmem
    exact hcommit
  · cases saves with
    | error error =>
      refine ⟨h.imported, fun window' hmem => ?_⟩
      obtain rfl := Option.mem_some.mp hmem
      exact hcommit
    | ok _ =>
      -- the window's profiles replace the toolbar's, with those it has not touched among them
      refine ⟨fun server hserver => ?_, fun _ hmem => (Option.not_mem_none _ hmem).elim⟩
      obtain ⟨hmem, htouched⟩ := List.mem_filter.mp hserver
      obtain ⟨profile, hprofile, hid, hserves⟩ := h.imported server hmem
      rw [← hopened] at hprofile
      have huntouched : profile.id ∉ window.touched := hid ▸ of_decide_eq_true htouched
      obtain ⟨kept, hkept, hkeptId, hkeptServes⟩ :=
        (hcommit profile hprofile huntouched _ _ hserves).has
      exact ⟨kept, hkept, hkeptId.trans hid, hkeptServes⟩

theorem Tracks.step (hurls : env.urls.Lawful) (hinv : stores.Inv initial) (h : stores.Tracks env)
    {event : ProfileEvent} (hkeeps : stores.KeepsImports env event) :
    (stores.step env event).Tracks env := by
  cases event with
  | importProfileUrls imports saves => exact h.importProfileUrls hinv hkeeps
  | selectProfile index saves => exact h.selectProfile index saves
  | openSettings =>
    unfold ProfileStores.step
    dsimp only
    split
    · refine ⟨h.imported, fun window hmem profile hprofile _ server token hserves => ?_⟩
      obtain rfl := Option.mem_some.mp hmem
      apply ProfileSettings.Has.loadInputs
      exact ⟨profile, hprofile, rfl, hserves⟩
    · exact h
  | closeSettings => exact ⟨h.imported, fun _ hmem => (Option.not_mem_none _ hmem).elim⟩
  | settings action =>
    unfold ProfileStores.step
    dsimp only
    split
    · exact h
    · rename_i window hwindow
      exact h.act hurls hwindow action
  | saveSettings saves =>
    unfold ProfileStores.step
    dsimp only
    split
    · exact h
    · rename_i window hwindow
      exact h.saveSettings hurls hwindow (hkeeps window hwindow) saves

theorem Tracks.init (h : (profileSystem env).init stores) : stores.Tracks env := by
  obtain ⟨-, -, -, hwindow, -, himported⟩ := h
  refine ⟨fun server hserver => ?_, fun window hmem => ?_⟩
  · rw [himported] at hserver
    exact absurd hserver List.not_mem_nil
  · rw [hwindow] at hmem
    exact (Option.not_mem_none _ hmem).elim

/-- Failed imports change no profiles. -/
theorem importProfileUrls_failed {imports : List (String × ℕ)} {saves : Except String Unit}
    (h : ∀ store, importUrls env.urls (stores.saved.loaded env.home env.tempDir)
      (profileUrls env imports) = .ok store → ∃ error, saves = .error error) :
    (stores.importProfileUrls env imports saves).saved = stores.saved ∧
      (stores.importProfileUrls env imports saves).toolbar = stores.toolbar := by
  unfold importProfileUrls
  dsimp only
  split
  · exact ⟨rfl, rfl⟩
  split
  · exact ⟨rfl, rfl⟩
  · rename_i store himport
    obtain ⟨error, rfl⟩ := h store himport
    exact ⟨rfl, rfl⟩

end ProfileStores

/-! ## What is selected after an import -/

/-- The profile that an import finds for its server is valid with the imported URL. -/
def ImportValidates (urls : UrlLibrary Url) (store : RecordingProfiles) (value : String) : Prop :=
  ∀ index profile,
    store.profiles.findIdx? (RecordingProfiles.ofServer urls
      (splitServerUrl urls (importedUrl urls value)).1) = some index →
    store.profiles[index]? = some profile →
      (RecordingProfiles.withServer (importedUrl urls value) profile).validate urls = .ok ()

namespace RecordingProfiles

variable {urls : UrlLibrary Url} {store store' : RecordingProfiles} {issued : List String}

/-- The selected profile is the one with the selected id. -/
theorem selected_eq (hnodup : store.ids.Nodup) {profile : RecordingProfile}
    (hmem : profile ∈ store.profiles) (hid : store.selectedProfileId = profile.id) :
    store.selected = some profile := by
  obtain ⟨index, hprofile⟩ := List.mem_iff_getElem?.mp hmem
  have hindex : store.profiles.findIdx? (fun profile => profile.id = store.selectedProfileId) =
      some index := by
    obtain ⟨hlt, heq⟩ := List.getElem?_eq_some_iff.mp hprofile
    refine List.findIdx?_eq_some_iff_getElem.mpr ⟨hlt, ?_, fun i hi => ?_⟩
    · rw [heq, hid]
      exact decide_eq_true rfl
    · -- another profile with the id would be the same one
      rw [Bool.not_eq_true, decide_eq_false_iff_not, hid]
      intro heq'
      have hi' : i < store.ids.length := by
        rw [ids, List.length_map]
        omega
      have hlt' : index < store.ids.length := by
        rw [ids, List.length_map]
        exact hlt
      have hsame : store.ids[i] = store.ids[index] := by
        simp only [ids, List.getElem_map]
        rw [heq', heq]
      exact absurd ((hnodup.getElem_inj_iff).mp hsame) (by omega)
  rw [selected, selectedIndex, hindex]
  exact hprofile

/-- After an import that succeeds, the selected profile is valid exactly when the one found for the
server is, or none was found. -/
theorem selected_importUrl {nanos : ℕ} {value : String} (hwf : store.Wf issued)
    (hnew : newProfileId nanos ∉ issued) (himport : store.importUrl urls nanos value = .ok store') :
    (∃ profile, store'.selected = some profile ∧ profile.validate urls = .ok ()) ↔
      ImportValidates urls store value := by
  have hwf' := hwf.importUrl hnew himport
  rcases importUrl_cases himport with ⟨index, profile, hindex, hprofile, rfl⟩ | ⟨name, hnone, hvalid, rfl⟩
  · have hmem : withServer (importedUrl urls value) profile ∈
        store.profiles.modify index (withServer (importedUrl urls value)) := by
      refine List.mem_iff_getElem?.mpr ⟨index, ?_⟩
      rw [List.getElem?_modify, hprofile]
      simp
    rw [selected_eq hwf'.nodup hmem rfl]
    refine ⟨fun hvalid index' profile' hindex' hprofile' => ?_, fun hvalid => ?_⟩
    · obtain rfl := Option.some.inj (hindex.symm.trans hindex')
      obtain rfl := Option.some.inj (hprofile.symm.trans hprofile')
      obtain ⟨_, hsome, hvalid⟩ := hvalid
      exact Option.some.inj hsome ▸ hvalid
    · exact ⟨_, rfl, hvalid index profile hindex hprofile⟩
  · rw [selected_eq hwf'.nodup (List.mem_append_right _ List.mem_cons_self) rfl]
    refine ⟨fun _ index profile hindex => ?_, fun _ => ⟨_, rfl, hvalid⟩⟩
    rw [hnone] at hindex
    cases hindex

end RecordingProfiles

/-! ## Looking at profiles -/

namespace ProfileSettings

variable {urls : UrlLibrary Url} {settings : ProfileSettings}

/-- Committing the texts that are shown of a profile gives the profile: no white space stands around its
name or folder, and its server's URL is that of the server and token it splits into. -/
def Stable (urls : UrlLibrary Url) (profile : RecordingProfile) : Prop :=
  trim profile.name = profile.name ∧
    match profile.target with
    | .local folder => trim folder = folder
    | .remote serverUrl =>
      joinServerUrl urls (trim (splitServerUrl urls serverUrl).1)
        (trim (splitServerUrl urls serverUrl).2) = serverUrl

theorem committed_shown {profile : RecordingProfile} :
    committed urls profile.name (shown urls profile).1 (shown urls profile).2 profile = profile ↔
      Stable urls profile := by
  obtain ⟨id, name, target, format, completionAction⟩ := profile
  cases target <;> simp [committed, shown, Stable]

/-- The inputs show the selected profile, as after they are loaded. -/
def Shows (urls : UrlLibrary Url) (profile : RecordingProfile) (settings : ProfileSettings) : Prop :=
  settings.profiles.profiles[settings.selected]? = some profile ∧
    settings.nameInput = profile.name ∧
    (settings.destinationInput, settings.tokenInput) = shown urls profile

theorem modify_eq_self_iff {profiles : List RecordingProfile} {index : ℕ} {profile : RecordingProfile}
    (h : profiles[index]? = some profile) (f : RecordingProfile → RecordingProfile) :
    profiles.modify index f = profiles ↔ f profile = profile := by
  refine ⟨fun heq => ?_, fun heq => ?_⟩
  · have hindex := congrArg (·[index]?) heq
    simpa [List.getElem?_modify, h] using hindex
  · apply List.ext_getElem?
    intro i
    rw [List.getElem?_modify]
    by_cases hi : index = i
    · subst hi
      simp [h, heq]
    · simp [hi]

theorem select_profiles (index : ℕ) :
    (settings.select urls index).profiles = (settings.commitInputs urls).profiles := by
  unfold select
  dsimp only
  split
  · rfl
  · rw [loadInputs_profiles]

theorem commitInputs_getElem? {index : ℕ} (hne : index ≠ settings.selected) :
    (settings.commitInputs urls).profiles.profiles[index]? = settings.profiles.profiles[index]? := by
  unfold commitInputs
  dsimp only
  rw [List.getElem?_modify]
  cases settings.profiles.profiles[index]? with
  | none => rfl
  | some other => simp [hne.symm]

/-- Selecting another profile shows it. -/
theorem select_shows {other : RecordingProfile} {index : ℕ}
    (hother : settings.profiles.profiles[index]? = some other) (hne : index ≠ settings.selected) :
    (settings.select urls index).selected = index ∧
      (settings.select urls index).Shows urls other := by
  have hcommit : (settings.commitInputs urls).profiles.profiles[index]? = some other := by
    rw [commitInputs_getElem? hne, hother]
  have hselect : settings.select urls index = { settings.commitInputs urls with
      selected := index
      nameInput := other.name
      destinationInput := (shown urls other).1
      tokenInput := (shown urls other).2
      error := none } := by
    rw [select]
    dsimp only
    rw [hcommit, if_neg (by simp), loadInputs]
    dsimp only
    rw [hcommit]
  rw [hselect]
  exact ⟨rfl, hcommit, rfl, rfl⟩

/-- Committing what is shown of the selected profile. -/
theorem Shows.commitInputs {profile : RecordingProfile} (h : settings.Shows urls profile) :
    (settings.commitInputs urls).profiles.profiles =
      settings.profiles.profiles.modify settings.selected
        (committed urls profile.name (shown urls profile).1 (shown urls profile).2) := by
  obtain ⟨-, hname, hinputs⟩ := h
  rw [ProfileSettings.commitInputs, ← hinputs, hname]

/-- Selecting another profile and back without typing leaves the profiles as they were exactly when
committing what is shown of the two does. -/
theorem select_back {profile other : RecordingProfile} {index : ℕ} (hshows : settings.Shows urls profile)
    (hother : settings.profiles.profiles[index]? = some other) (hne : index ≠ settings.selected) :
    ((settings.select urls index).select urls settings.selected).profiles = settings.profiles ↔
      Stable urls profile ∧ Stable urls other := by
  obtain ⟨hindex, hshowsOther⟩ : (settings.select urls index).selected = index ∧
      (settings.select urls index).Shows urls other := select_shows hother hne
  obtain ⟨hprofile, -⟩ := id hshows
  have hafter : ((settings.select urls index).select urls settings.selected).profiles.profiles =
      (settings.profiles.profiles.modify settings.selected
        (committed urls profile.name (shown urls profile).1 (shown urls profile).2)).modify index
          (committed urls other.name (shown urls other).1 (shown urls other).2) := by
    rw [select_profiles, hshowsOther.commitInputs, hindex, select_profiles, hshows.commitInputs]
  have hselectedId : ((settings.select urls index).select urls
      settings.selected).profiles.selectedProfileId = settings.profiles.selectedProfileId := by
    rw [select_profiles, ProfileSettings.commitInputs]
    dsimp only
    rw [select_profiles, ProfileSettings.commitInputs]
  have hiff : ((settings.select urls index).select urls settings.selected).profiles =
      settings.profiles ↔ ((settings.select urls index).select urls
        settings.selected).profiles.profiles = settings.profiles.profiles :=
    ⟨congrArg RecordingProfiles.profiles, fun h => by
      cases hleft : ((settings.select urls index).select urls settings.selected).profiles
      rw [hleft] at h hselectedId
      cases hright : settings.profiles
      rw [hright] at h hselectedId
      dsimp only at h hselectedId
      rw [h, hselectedId]⟩
  rw [hiff, hafter, ← committed_shown, ← committed_shown]
  refine ⟨fun heq => ⟨?_, ?_⟩, fun ⟨hsame, hsameOther⟩ => ?_⟩
  · have hat := congrArg (·[settings.selected]?) heq
    simpa [List.getElem?_modify, hprofile, hne] using hat
  · have hat := congrArg (·[index]?) heq
    simpa [List.getElem?_modify, hother, hne.symm] using hat
  · rw [(modify_eq_self_iff hprofile _).mpr hsame, (modify_eq_self_iff hother _).mpr hsameOther]

end ProfileSettings

/-! ## The stores -/

open ProfileStores

/-- The readings of the clock of some imports give new ids. -/
def FreshReadings (issued : List String) (imports : List (String × ℕ)) : Prop :=
  (imports.map fun url => newProfileId url.2).Nodup ∧
    ∀ url ∈ imports, newProfileId url.2 ∉ issued

theorem inv_of_run {env : ProfileEnv Url} {stores stores' : ProfileStores} {events : List ProfileEvent}
    (hinit : (profileSystem env).init stores) (hrun : (profileSystem env).Run stores events stores') :
    stores'.Inv stores.saved :=
  hrun.invariant (fun _ _ _ h hstep => h.step hstep) (Inv.init hinit)

theorem tracks_of_run {env : ProfileEnv Url} (hurls : env.urls.Lawful) {stores stores' : ProfileStores}
    {events : List ProfileEvent} (hinit : (profileSystem env).init stores)
    (hrun : ((profileSystem env).restrict (KeepsImports env)).Run stores events stores') :
    stores'.Tracks env := by
  refine (hrun.invariant (P := fun s => s.Inv stores.saved ∧ s.Tracks env) ?_
    ⟨Inv.init hinit, Tracks.init hinit⟩).2
  rintro s event s' ⟨hinv, htracks⟩ ⟨hkeeps, hstep⟩
  refine ⟨hinv.step hstep, ?_⟩
  obtain ⟨-, -, rfl⟩ := hstep
  have hnext := htracks.step hurls hinv hkeeps
  exact ⟨hnext.imported, hnext.window⟩

/-- A server's URL, or that of its import, without a fragment or with one of two. -/
structure SampleUrl where
  request : Bool
  token : Option Bool
deriving DecidableEq

namespace SampleUrl

def base (url : SampleUrl) : String :=
  if url.request then "blip-capture://add-profile?url=https%3A%2F%2Fblip.example%2F%23secret"
  else "https://blip.example/"

def fragment (url : SampleUrl) : Option String :=
  url.token.map fun secret => if secret then "secret" else ""

def all : List SampleUrl :=
  [true, false].flatMap fun request => [none, some false, some true].map fun token => ⟨request, token⟩

def text (url : SampleUrl) : String := url.base ++ (url.fragment.map ("#" ++ ·)).getD ""

def library : UrlLibrary SampleUrl where
  parse value := all.find? (·.text = value)
  text := text
  scheme url := if url.request then "blip-capture" else "https"
  hostStr url := some (if url.request then "add-profile" else "blip.example")
  queryPairs url := if url.request then [("url", "https://blip.example/#secret")] else []
  fragment := fragment
  setFragment fragment url := { url with token := fragment.map (· ≠ "") }
  toFilePath _ := none

theorem library_lawful : library.Lawful where
  parse_text := by
    rintro ⟨_ | _, _ | _ | _⟩ <;> decide
  trim_text := by
    rintro ⟨_ | _, _ | _ | _⟩ <;> decide
  trim_fragment := by
    rintro ⟨_ | _, _ | _ | _⟩ fragment hfragment <;>
      simp only [library, SampleUrl.fragment, Option.map_none, Option.map_some, reduceCtorEq,
        Option.some.injEq] at hfragment <;> subst hfragment <;> decide
  fragment_setFragment := by
    rintro url url' fragment (rfl | hfragment)
    · rfl
    · obtain ⟨request, _ | _ | _⟩ := url' <;>
        simp only [library, SampleUrl.fragment, Option.map_none, Option.map_some, reduceCtorEq,
          Option.some.injEq] at hfragment <;> subst hfragment <;> rfl
  setFragment_none _ _ := rfl

end SampleUrl

def sampleEnv : ProfileEnv SampleUrl where
  urls := SampleUrl.library
  home := "/Users/a"
  tempDir := "/tmp"

/-- The stores with one local profile. -/
def sampleStores : ProfileStores where
  saved := {
    profiles := [.ofFolder "desktop" "Desktop" "/Users/a/Desktop" .reveal]
    selectedProfileId := "desktop" }
  toolbar := {
    profiles := [.ofFolder "desktop" "Desktop" "/Users/a/Desktop" .reveal]
    selectedProfileId := "desktop" }
  error := none
  window := none
  issued := ["desktop"]
  imported := []

def importEvent : ProfileEvent :=
  .importProfileUrls
    [("blip-capture://add-profile?url=https%3A%2F%2Fblip.example%2F%23secret", 7)] (.ok ())

/-- The window is open while the server is imported, and is then saved. -/
def staleEvents : List ProfileEvent := [.openSettings, importEvent, .saveSettings (.ok ())]

/-- One event after the other, with the ids they give. -/
def ProfileStores.after (env : ProfileEnv Url) (stores : ProfileStores) (events : List ProfileEvent) :
    ProfileStores :=
  events.foldl (fun stores event =>
    { stores.step env event with
      issued := event.readings.map newProfileId ++ stores.issued }) stores

end Blip.Capture
