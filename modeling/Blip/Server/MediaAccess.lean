import Blip.Server.AccessHistory

/-!
# Media is given by the rule, in every history

A cookie holds only hashes that its client has unlocked against, since every hash in it was either verified
for that cookie or was in the one that the client sent. What a cookie holds never changes, so a later hash
is not in an earlier cookie.
-/

namespace Blip.Server

variable {ε α β Client : Type} {storageConfigOf : String → Option StorageConfig}
  {derivePassword : String → List UInt8 → List UInt8} {publicOrigin : String} {w w' : World}

/-! ## An unlock -/

/-- The vault makes a cookie with this content. -/
def World.Mints (w w' : World) (value plaintext : String) : Prop :=
  (∀ other, (value, other) ∈ w.tokens → other = plaintext) ∧
    w' = { w with tokens := (value, plaintext) :: w.tokens }

theorem World.Mints.mem {value plaintext : String} (h : w.Mints w' value plaintext) :
    (value, plaintext) ∈ w'.tokens := by
  rw [h.2]
  exact List.mem_cons_self

theorem World.Mints.kept {value plaintext : String} (h : w.Mints w' value plaintext)
    {token : String × String} (htoken : token ∈ w.tokens) : token ∈ w'.tokens := by
  rw [h.2]
  exact List.mem_cons_of_mem _ htoken

/-- A ciphertext still has one plaintext. -/
theorem World.Mints.content {value plaintext : String} (h : w.Mints w' value plaintext)
    (hcontent : ∀ value plaintext other, (value, plaintext) ∈ w.tokens → (value, other) ∈ w.tokens →
      other = plaintext) {value' content other : String} (hmem : (value', content) ∈ w'.tokens)
    (hmem' : (value', other) ∈ w'.tokens) : other = content := by
  obtain ⟨hnew, rfl⟩ := h
  rcases List.mem_cons.mp hmem with heq | hbefore
  · obtain ⟨rfl, rfl⟩ := Prod.mk.inj heq
    rcases List.mem_cons.mp hmem' with heq | hbefore
    · exact (Prod.mk.inj heq).2
    · exact hnew other hbefore
  · rcases List.mem_cons.mp hmem' with heq | hbefore'
    · obtain ⟨rfl, rfl⟩ := Prod.mk.inj heq
      exact (hnew content hbefore).symm
    · exact hcontent value' content other hbefore hbefore'

/-- What a computation does after it has read. -/
theorem Views.andThen {p : Effect ε α} {f : α → Effect ε β} {M : α → Prop} {N : ε → Prop}
    {Q : β → World → Prop} {E : ε → World → Prop} (h : Views storageConfigOf w p M N)
    (hE : ∀ e, N e → E e w) (hf : ∀ a, M a → Alone storageConfigOf w (f a) Q E) :
    Alone storageConfigOf w (p >>= f) Q E := by
  refine Fallible.Valid.bind (Fallible.Valid.weaken h (fun _ _ h => h) (fun _ _ _ h => h)
    fun e w' _ he => he.1 ▸ hE e he.2) fun a => ?_
  exact (Fallible.Valid.assume (hf a)).weaken (fun _ _ h => ⟨h.2, h.1⟩) (fun _ _ _ h => h) fun _ _ _ h => h

/-- The cookie holds the new hash and hashes of the cookie that was sent. -/
theorem setVerifiedPasswordCookie_valid (request : HttpServerRequest) (hash : String) :
    Alone storageConfigOf w (setVerifiedPasswordCookie none request hash)
      (fun cookie w' => ∃ hashes, w.Mints w' cookie.value (stringifyHashes hashes) ∧
        ∀ other ∈ hashes, other = hash ∨ w.Carries request other)
      fun _ w' => w' = w ∨ ∃ value plaintext, w.Mints w' value plaintext := by
  refine (views_getVerifiedPasswordHashes none request (E := fun _ => False)).andThen
    (fun _ => False.elim) fun verified hknown => ?_
  refine Fallible.Valid.bind (M := fun value w' => ∃ hashes, w.Mints w' value (stringifyHashes hashes) ∧
    ∀ other ∈ hashes, other = hash ∨ w.Carries request other) (.mapError ?_) fun value => ?_
  · refine Valid.ask (fun _ => stable_eq _) ?_
    rintro _ answer w' - rfl hexec
    refine ⟨trivial, trivial, ?_⟩
    rcases answer with e | token
    · exact .inl hexec
    · refine ⟨_, hexec, fun other hmem => ?_⟩
      rcases List.mem_append.mp (List.mem_of_mem_drop hmem) with hmem | hmem
      · exact .inr (hknown other (List.mem_of_mem_filter hmem))
      · exact .inl (List.mem_singleton.mp hmem)
  · split
    · refine .throw fun w' _ h => .inr ?_
      obtain ⟨hashes, hmints, -⟩ := h
      exact ⟨_, _, hmints⟩
    · exact .pure fun w' _ h => h

theorem storedHash_of_finds {id : String} {video : VideoRecord} (h : w.Finds id video) :
    storedHash w id = video.passwordHash := by
  obtain ⟨row, hrow, rfl⟩ := Option.map_eq_some_iff.mp h
  obtain ⟨hfound, -⟩ := Option.filter_eq_some_iff.mp hrow
  rw [storedHash, hfound, Option.bind_some]

theorem unlock_valid (request : HttpServerRequest) (id password : String) :
    Alone storageConfigOf w (unlock derivePassword none request id password)
      (fun cookie w' => ∃ hash hashes, storedHash w id = some hash ∧
        verifyPassword derivePassword password hash = true ∧
        w.Mints w' cookie.value (stringifyHashes hashes) ∧
        ∀ other ∈ hashes, other = hash ∨ w.Carries request other)
      fun _ w' => w' = w ∨ ∃ value plaintext, w.Mints w' value plaintext := by
  refine Views.andThen (N := fun _ => True) (.service (views_findVideo id) fun _ => trivial)
    (fun _ _ => .inl rfl) fun found hfound => ?_
  cases found with
  | none => exact .throw fun _ _ heq => .inl heq
  | some video =>
    refine .ite (fun _ => .throw fun _ _ heq => .inl heq) fun _ => ?_
    split
    · exact .throw fun _ _ heq => .inl heq
    · rename_i hash hhash
      refine .ite (fun _ => .throw fun _ _ heq => .inl heq) fun _ => ?_
      refine .ite (fun _ => .throw fun _ _ heq => .inl heq) fun hverified => ?_
      refine (setVerifiedPasswordCookie_valid request hash).weaken (fun _ _ h => h) ?_ fun _ _ _ h => h
      rintro cookie w' - ⟨hashes, hmints, hheld⟩
      refine ⟨hash, hashes, ?_, not_not.mp hverified, hmints, hheld⟩
      exact (storedHash_of_finds hfound.symm).trans hhash

/-! ## Every history -/

namespace AccessHistory

variable {s s' : AccessHistory Client}

/-- What a step can do: nothing to the cookies, another cookie that nobody gets, or an unlock. -/
inductive Effects (derivePassword : String → List UInt8 → List UInt8) (s : AccessHistory Client) :
    AccessHistory Client → Prop
  | quiet {world : World} : (s.world.PrivacyStored → world.PrivacyStored) →
      world.tokens = s.world.tokens → Effects derivePassword s { s with world }
  | minted {world : World} {value plaintext : String} : s.world.Mints world value plaintext →
      Effects derivePassword s { s with world }
  | unlocked {world : World} {client : Client} {request : HttpServerRequest} {value password hash : String}
      {hashes : List String} : s.Sends client request →
      verifyPassword derivePassword password hash = true →
      s.world.Mints world value (stringifyHashes hashes) →
      (∀ other ∈ hashes, other = hash ∨ s.world.Carries request other) →
      Effects derivePassword s
        { world
          issued := (client, value) :: s.issued
          unlocks := {
            client
            password
            hash := some hash } :: s.unlocks }

theorem step_effects {label : AccessStep Client} (hs : s.world.PrivacyStored)
    (hstep : s.step storageConfigOf derivePassword publicOrigin label s') :
    Effects derivePassword s s' := by
  cases label with
  | owner user request =>
    obtain ⟨result, world, rfl, hexec⟩ := hstep
    obtain ⟨hstored, htokens⟩ := owner_keeps hs hexec
    exact .quiet (fun _ => hstored) htokens
  | view client request id result =>
    obtain ⟨-, world, rfl, hexec⟩ := hstep
    obtain rfl := ((views_view publicOrigin none request id).exec hexec).1
    exact .quiet (fun h => h) rfl
  | playlist client request id result =>
    obtain ⟨-, world, rfl, hexec⟩ := hstep
    obtain rfl := ((views_playlist none request id).exec hexec).1
    exact .quiet (fun h => h) rfl
  | unlock client request id password result =>
    obtain ⟨hsends, world, rfl, hexec⟩ := hstep
    have hpost := (Valid.alone (unlock_valid request id password) trivial rfl hexec).2
    rcases result with error | cookie
    · rcases hpost with rfl | ⟨value, plaintext, hmints⟩
      · exact .quiet (fun h => h) rfl
      · exact .minted hmints
    · obtain ⟨hash, hashes, hstored, hverified, hmints, hheld⟩ := hpost
      rw [unlocked, hstored]
      exact .unlocked hsends hverified hmints hheld
  | sessions sessions =>
    obtain rfl := hstep
    exact .quiet (fun h => h) rfl

variable (derivePassword) in
/-- What holds of every history: the privacy is stored with its hash, a cookie has one content, and its
client has unlocked against every hash in it. -/
structure Inv (s : AccessHistory Client) : Prop where
  stored : s.world.PrivacyStored
  content : ∀ value plaintext other, (value, plaintext) ∈ s.world.tokens → (value, other) ∈ s.world.tokens →
    other = plaintext
  issued : ∀ client value, (client, value) ∈ s.issued → ∃ plaintext, (value, plaintext) ∈ s.world.tokens ∧
    ∀ hash ∈ parseHashes plaintext, s.Unlocked derivePassword client hash

/-- A client that sends a cookie has unlocked against the hashes it carries. -/
theorem Inv.carried (h : s.Inv derivePassword) {client : Client} {request : HttpServerRequest}
    (hsends : s.Sends client request) {hash : String} (hcarries : s.world.Carries request hash) :
    s.Unlocked derivePassword client hash := by
  obtain ⟨value, plaintext, hcookie, htoken, hmem⟩ := hcarries
  obtain ⟨content, hcontent, hunlocked⟩ := h.issued client value (hsends value hcookie ⟨plaintext, htoken⟩)
  obtain rfl := h.content value content plaintext hcontent htoken
  exact hunlocked hash hmem

theorem Inv.minted (h : s.Inv derivePassword) {value plaintext : String}
    (hmints : s.world.Mints w value plaintext) : Inv derivePassword { s with world := w } := by
  refine ⟨?_, fun _ _ _ => hmints.content h.content, fun client value' hissued => ?_⟩
  · rw [hmints.2]
    exact h.stored
  · obtain ⟨content, hcontent, hunlocked⟩ := h.issued client value' hissued
    exact ⟨content, hmints.kept hcontent, hunlocked⟩

theorem Inv.effects (h : s.Inv derivePassword) (heffects : Effects derivePassword s s') :
    s'.Inv derivePassword := by
  cases heffects with
  | quiet hstored htokens =>
    exact ⟨hstored h.stored, htokens ▸ h.content, htokens ▸ h.issued⟩
  | minted hmints => exact h.minted hmints
  | @unlocked world client request value password hash hashes hsends hverified hmints hheld =>
    have hminted := h.minted hmints
    have hkept : ∀ {client' : Client} {other : String}, s.Unlocked derivePassword client' other →
        Unlocked derivePassword
          { world
            issued := (client, value) :: s.issued
            unlocks := {
              client
              password
              hash := some hash } :: s.unlocks } client' other := by
      rintro client' other ⟨unlock, hmem, hunlock⟩
      exact ⟨unlock, List.mem_cons_of_mem _ hmem, hunlock⟩
    refine ⟨hminted.stored, hminted.content, fun client' value' hissued => ?_⟩
    rcases List.mem_cons.mp hissued with heq | hissued
    · obtain ⟨rfl, rfl⟩ := Prod.mk.inj heq
      refine ⟨stringifyHashes hashes, hmints.mem, fun other hmem => ?_⟩
      rw [parseHashes_stringifyHashes] at hmem
      rcases hheld other hmem with rfl | hcarries
      · exact ⟨_, List.mem_cons_self, rfl, rfl, hverified⟩
      · exact hkept (h.carried hsends hcarries)
    · obtain ⟨content, hcontent, hunlocked⟩ := hminted.issued client' value' hissued
      exact ⟨content, hcontent, fun other hmem => hkept (hunlocked other hmem)⟩

theorem Effects.tokens (h : Effects derivePassword s s') {token : String × String}
    (htoken : token ∈ s.world.tokens) : token ∈ s'.world.tokens := by
  cases h with
  | quiet _ htokens => exact htokens ▸ htoken
  | minted hmints => exact hmints.kept htoken
  | unlocked _ _ hmints _ => exact hmints.kept htoken

theorem reachable_access
    (h : (accessHistories storageConfigOf derivePassword publicOrigin Client).Reachable s) :
    s.Inv derivePassword := by
  refine h.invariant (P := Inv derivePassword) ?_ fun _ _ _ hinv hstep =>
    hinv.effects (step_effects hinv.stored hstep)
  rintro s ⟨hvideos, htokens, hissued, -⟩
  refine ⟨fun id row hrow => ?_, fun value plaintext other hmem => ?_, fun client value hmem => ?_⟩
  · rw [hvideos id] at hrow
    cases hrow
  · rw [htokens] at hmem
    cases hmem
  · rw [hissued] at hmem
    cases hmem

/-- The vault's cookies stay what they are. -/
theorem run_tokens {labels : List (AccessStep Client)}
    (hrun : (accessHistories storageConfigOf derivePassword publicOrigin Client).Run s labels s')
    (h : s.Inv derivePassword) {token : String × String} (htoken : token ∈ s.world.tokens) :
    token ∈ s'.world.tokens := by
  induction hrun with
  | nil => exact htoken
  | cons hstep _ ih =>
    have heffects := step_effects h.stored hstep
    exact ih (h.effects heffects) (heffects.tokens htoken)

/-! ## What is given -/

/-- Media was given to a client that sends its own cookie, as the rule decides with what the cookie
carries. -/
theorem obtains_decides {label : AccessStep Client} {client : Client} {request : HttpServerRequest}
    {id : String} (hstep : s.step storageConfigOf derivePassword publicOrigin label s')
    (hobtains : label.obtains = some (client, request, id)) :
    s.Sends client request ∧
      s.world.Decides id (s.world.userId request) (s.world.Verified none request) true := by
  cases label with
  | owner user request => cases hobtains
  | view client' request' id' result =>
    obtain ⟨hsends, world, -, hexec⟩ := hstep
    rcases result with error | answer
    · cases hobtains
    obtain ⟨hsource, heq⟩ := Option.ite_none_right_eq_some.mp hobtains
    obtain ⟨rfl, rfl, rfl⟩ : client' = client ∧ request' = request ∧ id' = id := by simpa using heq
    have hdecides := ((views_view publicOrigin none _ _).exec hexec).2.1 answer rfl
    rw [hsource] at hdecides
    exact ⟨hsends, hdecides⟩
  | playlist client' request' id' result =>
    obtain ⟨hsends, world, -, hexec⟩ := hstep
    rcases result with error | body
    · cases hobtains
    obtain ⟨rfl, rfl, rfl⟩ : client' = client ∧ request' = request ∧ id' = id := by
      simpa [AccessStep.obtains] using hobtains
    exact ⟨hsends, (((views_playlist none _ _).exec hexec).2.1 body rfl).2⟩
  | unlock client' request' id' password result => cases hobtains
  | sessions sessions => cases hobtains

/-- What there is to say of the recording, to anyone who was given its media. -/
theorem row_of_decides {id : String} {request : HttpServerRequest}
    (h : w.Decides id (w.userId request) (w.Verified none request) true) :
    ∃ row, w.videos id = some row ∧ row.archivedAt = none ∧ row.status = .complete ∧
      (w.userId request = some row.userId ∨ row.privacy = .«public» ∨
        row.privacy = .password ∧ ∃ hash, row.passwordHash = some hash ∧ w.Carries request hash) := by
  obtain ⟨video, hashes, hfinds, hcomplete, hknown, hiff⟩ := h
  obtain ⟨row, hrow, rfl⟩ := Option.map_eq_some_iff.mp hfinds
  obtain ⟨hfound, harchived⟩ := Option.filter_eq_some_iff.mp hrow
  refine ⟨row, hfound, of_decide_eq_true harchived, hcomplete, (hiff.mp rfl).imp_right fun hopen => ?_⟩
  refine hopen.imp_right ?_
  rintro ⟨hpassword, hash, hmem, -, hhash⟩
  exact ⟨hpassword, hash, hhash, hknown hash hmem⟩

/-- In every history, media that is given was public, or its owner's, or under a password whose hash the
client's cookie carries and the client has unlocked against. A cookie gives only what was unlocked before it
was issued. The three readings of the rule agree, but `playlist` has nothing for a recording that is one
file; and a hash is stored exactly under a password. -/
theorem media_follows_rule
    (h : (accessHistories storageConfigOf derivePassword publicOrigin Client).Reachable s) :
    (∀ id row, s.world.videos id = some row → (row.passwordHash ≠ none ↔ row.privacy = .password)) ∧
    (∀ label s' client request id, s.step storageConfigOf derivePassword publicOrigin label s' →
      label.obtains = some (client, request, id) →
      ∃ row, s.world.videos id = some row ∧ row.archivedAt = none ∧ row.status = .complete ∧
        (s.world.userId request = some row.userId ∨ row.privacy = .«public» ∨
          row.privacy = .password ∧ ∃ hash, row.passwordHash = some hash ∧ s.world.Carries request hash ∧
            s.Unlocked derivePassword client hash)) ∧
    (∀ labels later, (accessHistories storageConfigOf derivePassword publicOrigin Client).Run s labels later →
      ∀ label s' client request id value, request.cookies.lookup passwordCookie = some value →
        (client, value) ∈ s.issued → later.step storageConfigOf derivePassword publicOrigin label s' →
        label.obtains = some (client, request, id) →
        ∃ row, later.world.videos id = some row ∧
          (later.world.userId request = some row.userId ∨ row.privacy = .«public» ∨
            ∃ hash, row.passwordHash = some hash ∧ s.Unlocked derivePassword client hash)) ∧
    ∀ (w : World) id video user request hashes, w.Finds id video → video.status = .complete →
      w.userId request = user.map CurrentUser.id →
      (∀ result w' allowed, Exec (Call.exec storageConfigOf) w
          (view publicOrigin (some hashes) request id).run result w' → viewGrants result = some allowed →
        (allowed = true ↔ video.ViewableBy (user.map CurrentUser.id) hashes)) ∧
      (∀ result w' allowed, Exec (Call.exec storageConfigOf) w
          (playlist (some hashes) request id).run result w' → playlistGrants result = some allowed →
        (allowed = true ↔ isHls video.objectKey = true ∧ video.ViewableBy (user.map CurrentUser.id) hashes)) ∧
      ∀ result w' allowed, Exec (Call.exec storageConfigOf) w
          (VideosPolicy.canView (some hashes) user id).run result w' → canViewGrants result = some allowed →
        (allowed = true ↔ video.ViewableBy (user.map CurrentUser.id) hashes) := by
  have hinv := reachable_access h
  refine ⟨hinv.stored, ?_, ?_, ?_⟩
  · intro label s' client request id hstep hobtains
    obtain ⟨hsends, hdecides⟩ := obtains_decides hstep hobtains
    obtain ⟨row, hrow, harchived, hcomplete, hopen⟩ := row_of_decides hdecides
    refine ⟨row, hrow, harchived, hcomplete, hopen.imp_right fun hopen => hopen.imp_right ?_⟩
    rintro ⟨hpassword, hash, hhash, hcarries⟩
    exact ⟨hpassword, hash, hhash, hcarries, hinv.carried hsends hcarries⟩
  · intro labels later hrun label s' client request id value hcookie hissued hstep hobtains
    obtain ⟨row, hrow, -, -, hopen⟩ := row_of_decides (obtains_decides hstep hobtains).2
    refine ⟨row, hrow, hopen.imp_right fun hopen => hopen.imp_right ?_⟩
    rintro ⟨-, hash, hhash, value', plaintext, hcookie', htoken, hmem⟩
    obtain rfl := Option.some.inj (hcookie.symm.trans hcookie')
    -- the cookie still has the content that it was issued with
    obtain ⟨content, hcontent, hunlocked⟩ := hinv.issued client value hissued
    have hlater : later.Inv derivePassword := reachable_access (h.run hrun)
    obtain rfl := hlater.content value content plaintext (run_tokens hrun hinv hcontent) htoken
    exact ⟨hash, hhash, hunlocked hash hmem⟩
  · intro w id video user request hashes hfinds hcomplete huser
    rw [← huser]
    refine ⟨fun result w' allowed hexec hgrants => view_agrees hfinds hcomplete hexec hgrants,
      fun result w' allowed hexec hgrants => playlist_agrees hfinds hcomplete hexec hgrants,
      fun result w' allowed hexec hgrants => ?_⟩
    rw [huser]
    exact canView_agrees hfinds hcomplete hexec hgrants

/-! ### A public recording of one file -/

private def demoConfig : StorageConfig where
  endpoint := "https://s3.example"
  region := "auto"
  bucket := "recordings"
  accessKeyId := "key"
  secretAccessKey := "secret"
  forcePathStyle := true

private def demoConfigOf (value : String) : Option StorageConfig :=
  if value = "sealed" then some demoConfig else none

private def demoOwner : CurrentUser where
  id := "u"
  name := "User"
  storageConfig := some "sealed"

private def demoVideo : VideoRecord where
  id := "r"
  userId := "u"
  name := "demo"
  createdAt := "2026-01-01T00:00:00.000Z"
  objectKey := "users/u/recordings/r.mp4"
  uploadId := "up"
  storageConfig := "sealed"
  status := .uploading
  privacy := .«public»
  passwordHash := none

private def demoEmpty : World where
  videos := fun _ => none
  uploads := fun _ _ _ => none
  tokens := []
  drawn := []
  sessions := fun _ => none

private def demoStarted : World := demoEmpty.setUpload demoConfig demoVideo.objectKey "up" .started

private def demoStored : World :=
  demoStarted.insertVideo { toVideoRecord := demoVideo, archivedAt := none }

private def demoUploaded : World := demoStored.setUpload demoConfig demoVideo.objectKey "up" .completed

private def demoComplete : World :=
  demoUploaded.updateVideo "r" fun row => { row with status := .complete }

private def demoHistory (world : World) : AccessHistory ℕ where
  world
  issued := []
  unlocks := []

private def demoParts : List Part := [⟨1, "tag"⟩]

private theorem demo_created : Exec (Call.exec demoConfigOf) demoEmpty
    ((OwnerRequest.create ⟨"demo", none, none⟩).handle (fun _ _ => []) "https://blip.example" demoOwner).run
    (.ok ()) demoStored := by
  have hdecrypt : Call.exec demoConfigOf demoEmpty (.decrypt "sealed") (.ok demoConfig) demoEmpty := by
    refine ⟨rfl, ?_⟩
    rintro _ ⟨⟩
    rfl
  have hid : Call.exec demoConfigOf demoEmpty .randomUUID "r" demoEmpty := rfl
  have hupload : Call.exec demoConfigOf demoEmpty (.createMultipartUpload demoConfig demoVideo.objectKey
      "video/mp4" "private, max-age=0") (.ok (some "up")) demoStarted := by
    refine .inl ⟨"up", rfl, rfl, ?_⟩
    rintro _ ⟨⟩
    rfl
  have hclock : Call.exec demoConfigOf demoStarted .toISOString "2026-01-01T00:00:00.000Z" demoStarted := rfl
  have hcreate : Call.exec demoConfigOf demoStarted (.createVideo demoVideo) (.ok ()) demoStored := by
    simp only [Call.exec]
    exact (if_pos rfl).mpr (.inl rfl)
  exact .call hdecrypt (.call hid (.call hupload (.call hclock (.call hcreate (.done _ _)))))

private theorem demo_completed : Exec (Call.exec demoConfigOf) demoStored
    ((OwnerRequest.complete "r" "up" demoParts).handle (fun _ _ => []) "https://blip.example" demoOwner).run
    (.ok ()) demoComplete := by
  have hfind : Call.exec demoConfigOf demoStored (.findOwnedVideo "u" "r") (.ok (some demoVideo))
      demoStored := by
    refine ⟨rfl, ?_⟩
    rintro _ ⟨⟩
    rfl
  have hdecrypt : Call.exec demoConfigOf demoStored (.decrypt "sealed") (.ok demoConfig) demoStored := by
    refine ⟨rfl, ?_⟩
    rintro _ ⟨⟩
    rfl
  have hupload : Call.exec demoConfigOf demoStored (.completeMultipartUpload demoConfig demoVideo.objectKey
      "up" (completedParts demoParts)) (.ok ()) demoUploaded := .inl rfl
  have hmark : Call.exec demoConfigOf demoUploaded (.markVideoComplete "r") (.ok ()) demoComplete := .inl rfl
  exact .call hfind (.call hdecrypt (.call hupload (.call hmark (.done _ _))))

private def demoRequest : HttpServerRequest where
  headers := []
  cookies := []
  protocol := some "https:"

private def demoFound : VideoRecord := { demoVideo with status := .complete }

private def demoView : VideoView where
  id := "r"
  name := none
  createdAt := none
  privacy := .«public»
  owner := false
  source := some "https://s3.example/r"

private theorem demo_viewed (verified : Option (List String)) : Exec (Call.exec demoConfigOf) demoComplete
    (view "https://blip.example" verified demoRequest "r").run (.ok demoView) demoComplete := by
  have hfind : Call.exec demoConfigOf demoComplete (.findVideo "r") (.ok (some demoFound)) demoComplete := by
    refine ⟨rfl, ?_⟩
    rintro _ ⟨⟩
    rfl
  have hsession : Call.exec demoConfigOf demoComplete (.verifySession []) none demoComplete := ⟨rfl, rfl⟩
  have hdecrypt : Call.exec demoConfigOf demoComplete (.decrypt "sealed") (.ok demoConfig) demoComplete := by
    refine ⟨rfl, ?_⟩
    rintro _ ⟨⟩
    rfl
  have hsign : Call.exec demoConfigOf demoComplete (.presignUrl {
      method := .get
      config := demoConfig
      key := demoVideo.objectKey
      contentType := none
      query := []
      expiresIn := ObjectStorage.viewUrlTtlSeconds }) (.ok "https://s3.example/r") demoComplete := by
    refine ⟨rfl, ?_⟩
    rintro _ ⟨⟩
    decide
  exact .call hfind (.call hsession (.call hdecrypt (.call hsign (.done _ _))))

private def demoHistories : System (AccessHistory ℕ) (AccessStep ℕ) :=
  accessHistories demoConfigOf (fun _ _ => []) "https://blip.example" ℕ

private theorem demo_reachable : demoHistories.Reachable (demoHistory demoComplete) := by
  have hrun : demoHistories.Run (demoHistory demoEmpty) [.owner demoOwner (.create ⟨"demo", none, none⟩),
        .owner demoOwner (.complete "r" "up" demoParts)] (demoHistory demoComplete) :=
    .cons ⟨_, _, rfl, demo_created⟩ (.cons ⟨_, _, rfl, demo_completed⟩ (.nil _))
  exact ⟨_, _, ⟨fun _ => rfl, rfl, rfl, rfl⟩, hrun⟩

/-- Somebody views the recording after its upload. -/
theorem media_follows_rule_public : ∃ row, demoComplete.videos "r" = some row ∧ row.archivedAt = none ∧
    row.status = .complete ∧ row.privacy = .«public» := by
  obtain ⟨-, hgiven, -⟩ := media_follows_rule demo_reachable
  have hsends : (demoHistory demoComplete).Sends 0 demoRequest := by
    rintro value ⟨⟩
  obtain ⟨row, hrow, harchived, hcomplete, -⟩ := hgiven (.view 0 demoRequest "r" (.ok demoView)) _ 0
    demoRequest "r" ⟨hsends, demoComplete, rfl, demo_viewed none⟩ rfl
  obtain rfl := Option.some.inj hrow
  exact ⟨_, hrow, harchived, hcomplete, rfl⟩

/-- `view` gives everyone the media of a public recording of one file, and `playlist` does not find it. -/
theorem mp4_has_no_playlist : ∃ s video viewed served s₁ s₂, demoHistories.Reachable s ∧
    s.world.Finds "r" video ∧ video.status = .complete ∧
    Exec (Call.exec demoConfigOf) s.world (view "https://blip.example" (some []) demoRequest "r").run
      viewed s₁ ∧ viewGrants viewed = some true ∧
    Exec (Call.exec demoConfigOf) s.world (playlist (some []) demoRequest "r").run served s₂ ∧
      playlistGrants served = some false := by
  have hfind : Call.exec demoConfigOf demoComplete (.findVideo "r") (.ok (some demoFound)) demoComplete := by
    refine ⟨rfl, ?_⟩
    rintro _ ⟨⟩
    rfl
  have hserved : Exec (Call.exec demoConfigOf) demoComplete (playlist (some []) demoRequest "r").run
      (.error (.notFound "Recording not found")) demoComplete := .call hfind (.done _ _)
  exact ⟨_, demoFound, _, _, _, _, demo_reachable, rfl, rfl, demo_viewed (some []), rfl, hserved, rfl⟩

end AccessHistory

end Blip.Server
