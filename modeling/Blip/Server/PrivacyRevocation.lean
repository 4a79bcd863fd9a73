import Blip.Server.World

/-!
# Privacy requests under concurrency

A privacy request reads the record, works out the hash to store, and writes it. A request that keeps
the password writes back the hash it has read, so if another request has changed the password in
between, the old one is accepted again. The results here say that this is the only way: as long as
every such write finds the hash it has read still stored, a replaced hash never returns.

New hashes never repeat an old one because their salts are fresh random values (`Freshly`).
-/

namespace Blip.Server

/-- A privacy request. -/
structure PrivacyRequest where
  user : CurrentUser
  id : String
  payload : PrivacyPayload

/-- The request keeps the stored password. -/
def PrivacyRequest.Keeps (request : PrivacyRequest) : Prop :=
  request.payload.privacy = "password" ∧ request.payload.password = none

/-- The hash stored for a recording. -/
def storedHash (s : World) (id : String) : Option String := (s.videos id).bind (·.passwordHash)

/-- A privacy request being served. -/
abbrev PrivacyThread := Thread PrivacyRequest Call Call.Answer (Except HttpError VideoPrivacy)

section

variable (storageConfigOf : String → Option StorageConfig)
  (derivePassword : String → List UInt8 → List UInt8)

/-- If the hash is that of a password under a salt, the salt has been drawn. -/
def Freshly (s : World) (hash : String) : Prop :=
  ∀ password salt, hash = passwordHashOf derivePassword password salt → salt ∈ s.drawn

/-- Privacy requests arriving and running concurrently, from any state whose hashes were made with
salts drawn before. -/
def privacyPool : System (World × List PrivacyThread) (PoolStep PrivacyRequest Call Call.Answer) :=
  pool (Call.exec storageConfigOf)
    (fun request => (privacy derivePassword request.user request.id request.payload).run)
    fun s => ∀ id hash, storedHash s id = some hash → Freshly derivePassword s hash

/-- When the step is the write of a request that keeps the password, the hash it writes is the one
stored. -/
def KeepsCurrent (config : World × List PrivacyThread) :
    PoolStep PrivacyRequest Call Call.Answer → Prop
  | .call i (.setVideoPrivacy id _ hash) _ => ∀ thread, config.2[i]? = some thread →
      thread.request.Keeps → storedHash config.1 id = hash
  | _ => True

/-- The step is the write of a request that sets or clears the password, and it replaces a hash. -/
def Revokes (config : World × List PrivacyThread) (label : PoolStep PrivacyRequest Call Call.Answer)
    (config' : World × List PrivacyThread) (id hash : String) : Prop :=
  ∃ i privacy hash' answer thread, label = .call i (.setVideoPrivacy id privacy hash') answer ∧
    config.2[i]? = some thread ∧ ¬ thread.request.Keeps ∧ storedHash config.1 id = some hash ∧
    storedHash config'.1 id = hash'

end

/-! ## What a request still has to do -/

section

variable {derivePassword : String → List UInt8 → List UInt8}

/-- Nothing but the answer. -/
def Answered (prog : Prog Call Call.Answer (Except HttpError VideoPrivacy)) : Prop :=
  ∃ result, prog = .done result

variable (derivePassword) in
/-- What a privacy request that has just read its record still has to do. -/
inductive PrivacyDecided (request : PrivacyRequest) :
    Prog Call Call.Answer (Except HttpError VideoPrivacy) → Prop
  | answered {prog} : Answered prog → PrivacyDecided request prog
  | clearing {id privacy next} : ¬ request.Keeps → (∀ r, Answered (next r)) →
      PrivacyDecided request (.call (.setVideoPrivacy id privacy none) next)
  | keeping {id privacy hash next} : request.Keeps → (∀ r, Answered (next r)) →
      PrivacyDecided request (.call (.setVideoPrivacy id privacy hash) next)
  | salting (password : String) {next} : ¬ request.Keeps →
      (∀ salt, ∃ id privacy next', next salt = .call (.setVideoPrivacy id privacy
        (some (passwordHashOf derivePassword password salt))) next' ∧ ∀ r, Answered (next' r)) →
      PrivacyDecided request (.call (.getRandomValues 16) next)

variable (derivePassword) in
/-- What a privacy request still has to do. -/
inductive PrivacyServed (request : PrivacyRequest) :
    Prog Call Call.Answer (Except HttpError VideoPrivacy) → Prop
  | reading {userId id next} : (∀ answer, PrivacyDecided derivePassword request (next answer)) →
      PrivacyServed request (.call (.findOwnedVideo userId id) next)
  | decided {prog} : PrivacyDecided derivePassword request prog → PrivacyServed request prog
  | setting {id : String} {privacy : VideoPrivacy} (password : String) (salt : List UInt8)
      {next : Except Failure Unit → Prog Call Call.Answer (Except HttpError VideoPrivacy)} :
      ¬ request.Keeps → (∀ r, Answered (next r)) →
      PrivacyServed request (.call (.setVideoPrivacy id privacy
        (some (passwordHashOf derivePassword password salt))) next)

private theorem ofString?_eq_password {setting : String}
    (h : VideoPrivacy.ofString? setting = some .password) : setting = "password" := by
  unfold VideoPrivacy.ofString? at h
  split at h <;> simp_all

private theorem ofString?_ne_password {setting : String} {privacy : VideoPrivacy}
    (h : VideoPrivacy.ofString? setting = some privacy) (hne : privacy ≠ .password) :
    setting ≠ "password" := by
  rintro rfl
  exact hne (Option.some_inj.mp h).symm

private theorem passwordHashOf_ne_empty (password : String) (salt : List UInt8) :
    passwordHashOf derivePassword password salt ≠ "" := by
  intro h
  have := congrArg String.toList h
  simp [passwordHashOf] at this

/-- Storing the hash a password setting has worked out. -/
private def storePassword (video : VideoRecord) (passwordHash : Option String) :
    Prog Call Call.Answer (Except HttpError VideoPrivacy) :=
  ExceptT.run (if passwordHash = none ∨ passwordHash = some "" then
      throw (.invalidRequest "Enter a password for this recording")
    else do
      internal (Repository.setVideoPrivacy video.id .password passwordHash)
      pure .password : Effect HttpError VideoPrivacy)

private theorem storePassword_of_nonempty (video : VideoRecord) {hash : String} (h : hash ≠ "") :
    ∃ next, storePassword video (some hash) =
      .call (.setVideoPrivacy video.id .password (some hash)) next ∧ ∀ r, Answered (next r) := by
  rw [storePassword, if_neg (by simpa using h)]
  refine ⟨_, rfl, ?_⟩
  rintro (e | _) <;> exact ⟨_, rfl⟩

/-- Every privacy request proceeds in these stages. -/
theorem privacy_served (request : PrivacyRequest) :
    PrivacyServed derivePassword request
      (privacy derivePassword request.user request.id request.payload).run := by
  refine .reading ?_
  rintro (e | _ | video)
  · exact .answered ⟨_, rfl⟩
  · exact .answered ⟨_, rfl⟩
  cases hsetting : VideoPrivacy.ofString? request.payload.privacy with
  | none =>
    simp only
    exact .answered ⟨_, rfl⟩
  | some setting =>
    simp only
    cases setting with
    | «public» =>
      refine .clearing (fun h => ofString?_ne_password hsetting (by decide) h.1) ?_
      rintro (e | _) <;> exact ⟨_, rfl⟩
    | «private» =>
      refine .clearing (fun h => ofString?_ne_password hsetting (by decide) h.1) ?_
      rintro (e | _) <;> exact ⟨_, rfl⟩
    | password =>
      cases hpassword : request.payload.password with
      | none =>
        simp only
        change PrivacyDecided derivePassword request (storePassword video video.passwordHash)
        by_cases hhash : video.passwordHash = none ∨ video.passwordHash = some ""
        · rw [storePassword, if_pos hhash]
          exact .answered ⟨_, rfl⟩
        · obtain ⟨hash, hsome⟩ := Option.ne_none_iff_exists'.mp (mt .inl hhash)
          have hne : hash ≠ "" := fun h => hhash (.inr (h ▸ hsome))
          obtain ⟨next, hnext, hanswered⟩ := storePassword_of_nonempty video hne
          rw [hsome, hnext]
          exact .keeping ⟨ofString?_eq_password hsetting, hpassword⟩ hanswered
      | some password =>
        have hkeeps : ¬ request.Keeps := fun h =>
          absurd (hpassword.symm.trans h.2) (by simp)
        simp only [passwordHashFor]
        split
        · exact .answered ⟨_, rfl⟩
        · refine .salting password hkeeps fun salt => ?_
          have hne : passwordHashOf derivePassword password salt ≠ "" :=
            passwordHashOf_ne_empty password salt
          obtain ⟨next, hnext, hanswered⟩ := storePassword_of_nonempty video hne
          exact ⟨video.id, .password, next, hnext, hanswered⟩

end

/-! ## The steps -/

/-- The thread is about to store a hash it has made. -/
def Pending (thread : PrivacyThread) (hash : String) : Prop :=
  ¬ thread.request.Keeps ∧
    ∃ id privacy next, thread.prog = .call (.setVideoPrivacy id privacy (some hash)) next

theorem not_pending_of_answered {thread : PrivacyThread} (h : Answered thread.prog)
    (hash : String) : ¬ Pending thread hash := by
  rintro ⟨-, id, privacy, next, hprog⟩
  obtain ⟨result, hresult⟩ := h
  exact nomatch hresult.symm.trans hprog

theorem keepsCurrent_of_set {config : World × List PrivacyThread} {i : ℕ}
    {thread : PrivacyThread} {id : String} {privacy : VideoPrivacy} {hash : Option String}
    {answer : Except Failure Unit} (hget : config.2[i]? = some thread)
    (h : ¬ thread.request.Keeps) :
    KeepsCurrent config (.call i (.setVideoPrivacy id privacy hash) answer) := by
  intro thread' hget' hkeeps
  obtain rfl := Option.some_inj.mp (hget.symm.trans hget')
  exact absurd hkeeps h

theorem keepsCurrent_of_stored {config : World × List PrivacyThread} {i : ℕ} {id : String}
    {privacy : VideoPrivacy} {hash : Option String} {answer : Except Failure Unit}
    (h : storedHash config.1 id = hash) :
    KeepsCurrent config (.call i (.setVideoPrivacy id privacy hash) answer) :=
  fun _ _ _ => h

theorem PrivacyDecided.not_pending {derivePassword : String → List UInt8 → List UInt8}
    {thread : PrivacyThread} (h : PrivacyDecided derivePassword thread.request thread.prog)
    (hash : String) : ¬ Pending thread hash := by
  rintro ⟨hset, id, privacy, next, hprog⟩
  rw [hprog] at h
  cases h with
  | answered hanswered => exact nomatch hanswered.choose_spec
  | keeping hkeeps => exact hset hkeeps

section

variable (derivePassword : String → List UInt8 → List UInt8)

/-- What a step of the pool can do, as far as stored and pending hashes go. -/
inductive PrivacyEffect (config config' : World × List PrivacyThread) : Prop
  /-- Nothing is stored, and no hash becomes pending. -/
  | quiet : config'.1 = config.1 →
      (∀ (j : ℕ) (thread : PrivacyThread), config'.2[j]? = some thread →
        config.2[j]? = some thread ∨ ∀ hash, ¬ Pending thread hash) →
      PrivacyEffect config config'
  /-- A thread draws a salt, and the hash under it becomes pending. -/
  | drew (i : ℕ) (password : String) (salt : List UInt8) : salt ∉ config.1.drawn →
      config'.1 = { config.1 with drawn := salt :: config.1.drawn } →
      (∀ (j : ℕ) (thread : PrivacyThread), config'.2[j]? = some thread →
        j ≠ i ∧ config.2[j]? = some thread ∨ j = i ∧ ∀ hash, Pending thread hash →
          hash = passwordHashOf derivePassword password salt) →
      PrivacyEffect config config'
  /-- A thread writes a hash: none, its pending one, or the one already stored. -/
  | wrote (i : ℕ) (id : String) (hash : Option String) (thread : PrivacyThread) :
      config.2[i]? = some thread → config'.1.drawn = config.1.drawn →
      (∀ (j : ℕ) (thread : PrivacyThread), config'.2[j]? = some thread →
        j ≠ i ∧ config.2[j]? = some thread ∨ ∀ hash, ¬ Pending thread hash) →
      (∀ key, storedHash config'.1 key = storedHash config.1 key ∨
        key = id ∧ storedHash config'.1 key = hash) →
      (∀ new, hash = some new → Pending thread new ∨ storedHash config.1 id = some new) →
      PrivacyEffect config config'

theorem storedHash_updateVideo (s : World) (id key : String) (privacy : VideoPrivacy)
    (passwordHash : Option String) :
    storedHash (s.updateVideo id fun row => { row with privacy, passwordHash }) key =
        storedHash s key ∨
      key = id ∧ storedHash (s.updateVideo id fun row => { row with privacy, passwordHash }) key =
        passwordHash := by
  by_cases hkey : key = id
  · cases hrow : s.videos id with
    | none => simp [storedHash, World.updateVideo, hkey, hrow]
    | some row => simp [storedHash, World.updateVideo, hkey, hrow]
  · simp [storedHash, World.updateVideo, hkey]

private theorem getElem?_set_cases {α : Type} {l : List α} {i j : ℕ} {a b : α}
    (h : (l.set i a)[j]? = some b) : j ≠ i ∧ l[j]? = some b ∨ j = i ∧ b = a := by
  by_cases hij : i = j
  · subst hij
    rw [List.getElem?_set_self'] at h
    cases hget : l[i]? with
    | none => simp [hget] at h
    | some c => exact .inr ⟨rfl, by simpa [hget] using h.symm⟩
  · rw [List.getElem?_set_ne hij] at h
    exact .inl ⟨Ne.symm hij, h⟩

variable {derivePassword} {storageConfigOf : String → Option StorageConfig}

/-- Every step of the pool in which kept hashes are current has one of these effects. -/
theorem privacyPool_step {config config' : World × List PrivacyThread}
    {label : PoolStep PrivacyRequest Call Call.Answer}
    (hserved : ∀ thread ∈ config.2, PrivacyServed derivePassword thread.request thread.prog)
    (hcurrent : KeepsCurrent config label)
    (hstep : (privacyPool storageConfigOf derivePassword).step config label config') :
    PrivacyEffect derivePassword config config' := by
  cases label with
  | arrive request =>
    obtain ⟨hs, hthreads⟩ := hstep
    -- a request that arrives has no hash to store yet
    refine .quiet hs fun j thread hget => ?_
    rw [hthreads] at hget
    rcases Nat.lt_or_ge j config.2.length with hj | hj
    · exact .inl (by rwa [List.getElem?_append_left hj] at hget)
    · right
      rw [List.getElem?_append_right hj] at hget
      have hmem := List.mem_of_getElem? hget
      rw [List.mem_singleton.mp hmem]
      rintro hash ⟨-, id, privacy, next, hprog⟩
      exact nomatch hprog
  | call i c answer =>
    obtain ⟨request, next, hget, hexec, hthreads⟩ := hstep
    have hother : ∀ (j : ℕ) (thread : PrivacyThread), config'.2[j]? = some thread →
        j ≠ i ∧ config.2[j]? = some thread ∨ j = i ∧ thread = ⟨request, next answer⟩ := by
      intro j thread hj
      rw [hthreads] at hj
      exact getElem?_set_cases hj
    have hidle : (∀ r, Answered (next r)) → ∀ (j : ℕ) (thread : PrivacyThread),
        config'.2[j]? = some thread →
          j ≠ i ∧ config.2[j]? = some thread ∨ ∀ hash, ¬ Pending thread hash := by
      intro hanswered j thread hj
      rcases hother j thread hj with hj | ⟨-, rfl⟩
      · exact .inl hj
      · exact .inr (not_pending_of_answered (hanswered answer))
    -- an update that fails leaves the stored hashes as they were
    have hwrite : ∀ {id privacy passwordHash} {answer : Except Failure Unit},
        Writes (·.updateVideo id fun row => { row with privacy, passwordHash }) config.1 answer
          config'.1 → config'.1.drawn = config.1.drawn ∧
        ∀ key, storedHash config'.1 key = storedHash config.1 key ∨
          key = id ∧ storedHash config'.1 key = passwordHash := by
      rintro id privacy passwordHash answer (hs | ⟨hs, -⟩)
      · rw [hs]
        exact ⟨rfl, fun key => storedHash_updateVideo config.1 id key privacy passwordHash⟩
      · rw [hs]
        exact ⟨rfl, fun key => .inl rfl⟩
    have hserved := hserved _ (List.mem_of_getElem? hget)
    cases hserved with
    | reading hdecided =>
      refine .quiet hexec.1 fun j thread hj => ?_
      rcases hother j thread hj with hj | ⟨-, rfl⟩
      · exact .inl hj.2
      · exact .inr (hdecided answer).not_pending
    | decided hdecided =>
      cases hdecided with
      | answered hanswered => exact nomatch hanswered.choose_spec
      | clearing hset hanswered =>
        obtain ⟨hdrawn, hstored⟩ := hwrite hexec
        exact .wrote i _ none _ hget hdrawn (hidle hanswered) hstored (fun new h => nomatch h)
      | @keeping _ _ hash _ hkeeps hanswered =>
        obtain ⟨hdrawn, hstored⟩ := hwrite hexec
        refine .wrote i _ hash _ hget hdrawn (hidle hanswered) hstored fun new hnew => .inr ?_
        rw [← hnew]
        exact hcurrent _ hget hkeeps
      | salting password hset hsalted =>
        obtain ⟨-, hfresh, hs⟩ := hexec
        refine .drew i password answer hfresh hs fun j thread hj => ?_
        rcases hother j thread hj with hj | ⟨hi, rfl⟩
        · exact .inl hj
        · refine .inr ⟨hi, ?_⟩
          -- the hash it stores next is the one made with the salt just drawn
          obtain ⟨id, privacy, next', hnext, -⟩ := hsalted answer
          rintro hash ⟨-, id', privacy', next'', hprog⟩
          have hcall := hnext.symm.trans hprog
          injection hcall with hcall
          injection hcall with _ _ hhash
          exact (Option.some_inj.mp hhash).symm
    | setting password salt hset hanswered =>
      obtain ⟨hdrawn, hstored⟩ := hwrite hexec
      refine .wrote i _ _ _ hget hdrawn (hidle hanswered) hstored fun new hnew => .inl ?_
      obtain rfl := Option.some_inj.mp hnew
      exact ⟨hset, _, _, _, rfl⟩

/-! ## Every interleaving -/

theorem Freshly.mono {s s' : World} {hash : String} (h : Freshly derivePassword s hash)
    (hdrawn : s.drawn ⊆ s'.drawn) : Freshly derivePassword s' hash :=
  fun password salt heq => hdrawn (h password salt heq)

theorem freshly_passwordHashOf {s : World} {password : String} {salt : List UInt8}
    (h : salt ∈ s.drawn) : Freshly derivePassword s (passwordHashOf derivePassword password salt) := by
  intro password' salt' heq
  rwa [← passwordHashOf_salt heq]

/-- No step takes a drawn salt back. -/
theorem PrivacyEffect.drawn {config config' : World × List PrivacyThread}
    (h : PrivacyEffect derivePassword config config') : config.1.drawn ⊆ config'.1.drawn := by
  cases h with
  | quiet hs => rw [hs]; exact fun _ h => h
  | drew i password salt hfresh hs => rw [hs]; exact List.subset_cons_self salt _
  | wrote i id hash thread hget hdrawn => rw [hdrawn]; exact fun _ h => h

variable (derivePassword) in
/-- Pending hashes are all new: made with salts drawn, stored nowhere, and one for each thread. -/
structure PrivacyInv (config : World × List PrivacyThread) : Prop where
  stored : ∀ id hash, storedHash config.1 id = some hash → Freshly derivePassword config.1 hash
  pending : ∀ (i : ℕ) (thread : PrivacyThread) hash, config.2[i]? = some thread → Pending thread hash →
    Freshly derivePassword config.1 hash
  unstored : ∀ (i : ℕ) (thread : PrivacyThread) hash id, config.2[i]? = some thread → Pending thread hash →
    storedHash config.1 id ≠ some hash
  distinct : ∀ (i j : ℕ) (thread thread' : PrivacyThread) hash, i ≠ j →
    config.2[i]? = some thread → config.2[j]? = some thread' → Pending thread hash →
      ¬ Pending thread' hash

/-- Every step keeps pending hashes new. -/
theorem PrivacyInv.step {config config' : World × List PrivacyThread}
    (h : PrivacyInv derivePassword config) (heffect : PrivacyEffect derivePassword config config') :
    PrivacyInv derivePassword config' := by
  have hmono := heffect.drawn
  cases heffect with
  | quiet hs hthreads =>
    have hold : ∀ {i : ℕ} {thread : PrivacyThread} {hash}, config'.2[i]? = some thread → Pending thread hash →
        config.2[i]? = some thread :=
      fun hi hp => (hthreads _ _ hi).resolve_right fun hnot => hnot _ hp
    refine ⟨?_, ?_, ?_, ?_⟩
    · intro id hash hstored
      exact (h.stored id hash (hs ▸ hstored)).mono hmono
    · intro i thread hash hi hp
      exact (h.pending i thread hash (hold hi hp) hp).mono hmono
    · intro i thread hash id hi hp
      rw [hs]
      exact h.unstored i thread hash id (hold hi hp) hp
    · intro i j thread thread' hash hij hi hj hp hp'
      exact h.distinct i j thread thread' hash hij (hold hi hp) (hold hj hp') hp hp'
  | drew k password salt hfresh hs hthreads =>
    have hvideos : ∀ id, storedHash config'.1 id = storedHash config.1 id := by
      intro id
      rw [hs]
      rfl
    -- a salt nobody had drawn makes a hash that nobody has
    have hold : ∀ {hash : String}, Freshly derivePassword config.1 hash →
        hash ≠ passwordHashOf derivePassword password salt :=
      fun hf heq => hfresh (hf password salt heq)
    have hdrawn : salt ∈ config'.1.drawn := by
      rw [hs]
      exact List.mem_cons_self
    refine ⟨?_, ?_, ?_, ?_⟩
    · intro id hash hstored
      exact (h.stored id hash (hvideos id ▸ hstored)).mono hmono
    · intro i thread hash hi hp
      rcases hthreads i thread hi with ⟨-, hi⟩ | ⟨-, hnew⟩
      · exact (h.pending i thread hash hi hp).mono hmono
      · rw [hnew hash hp]
        exact freshly_passwordHashOf hdrawn
    · intro i thread hash id hi hp
      rw [hvideos]
      rcases hthreads i thread hi with ⟨-, hi⟩ | ⟨-, hnew⟩
      · exact h.unstored i thread hash id hi hp
      · exact fun hstored => hold (h.stored id hash hstored) (hnew hash hp)
    · intro i j thread thread' hash hij hi hj hp hp'
      rcases hthreads i thread hi with ⟨-, hi⟩ | ⟨hik, hnew⟩
      · rcases hthreads j thread' hj with ⟨-, hj⟩ | ⟨-, hnew'⟩
        · exact h.distinct i j thread thread' hash hij hi hj hp hp'
        · exact hold (h.pending i thread hash hi hp) (hnew' hash hp')
      · rcases hthreads j thread' hj with ⟨-, hj⟩ | ⟨hjk, -⟩
        · exact hold (h.pending j thread' hash hj hp') (hnew hash hp)
        · exact hij (hik.trans hjk.symm)
  | wrote k id hash thread hk hdrawn hthreads hstored hsource =>
    -- the thread that wrote has nothing pending any more
    have hold : ∀ {i : ℕ} {thread : PrivacyThread} {hash}, config'.2[i]? = some thread → Pending thread hash →
        i ≠ k ∧ config.2[i]? = some thread :=
      fun hi hp => (hthreads _ _ hi).resolve_right fun hnot => hnot _ hp
    refine ⟨?_, ?_, ?_, ?_⟩
    · intro key new hnew
      rcases hstored key with heq | ⟨-, heq⟩
      · exact (h.stored key new (heq ▸ hnew)).mono hmono
      · rcases hsource new (heq ▸ hnew) with hp | hsome
        · exact (h.pending k thread new hk hp).mono hmono
        · exact (h.stored id new hsome).mono hmono
    · intro i thread' new hi hp
      exact (h.pending i thread' new (hold hi hp).2 hp).mono hmono
    · intro i thread' new key hi hp hnew
      obtain ⟨hik, hi⟩ := hold hi hp
      rcases hstored key with heq | ⟨-, heq⟩
      · exact h.unstored i thread' new key hi hp (heq ▸ hnew)
      · rcases hsource new (heq ▸ hnew) with hp' | hsome
        · exact h.distinct i k thread' thread new hik hi hk hp hp'
        · exact h.unstored i thread' new id hi hp hsome
    · intro i j thread₁ thread₂ new hij hi hj hp hp'
      exact h.distinct i j thread₁ thread₂ new hij (hold hi hp).2 (hold hj hp').2 hp hp'

theorem PrivacyServed.next {request : PrivacyRequest} {c : Call} {next} {answer : c.Answer}
    (h : PrivacyServed derivePassword request (.call c next)) :
    PrivacyServed derivePassword request (next answer) := by
  cases h with
  | reading hdecided => exact .decided (hdecided answer)
  | decided hdecided =>
    cases hdecided with
    | answered hanswered => exact nomatch hanswered.choose_spec
    | clearing _ hanswered => exact .decided (.answered (hanswered answer))
    | keeping _ hanswered => exact .decided (.answered (hanswered answer))
    | salting password hset hsalted =>
      obtain ⟨id, privacy, next', hnext, hanswered⟩ := hsalted answer
      rw [hnext]
      exact .setting password answer hset hanswered
  | setting password salt _ hanswered => exact .decided (.answered (hanswered answer))

/-- Privacy requests whose kept hashes are current. -/
def keepingPool (storageConfigOf : String → Option StorageConfig)
    (derivePassword : String → List UInt8 → List UInt8) :=
  (privacyPool storageConfigOf derivePassword).restrict KeepsCurrent

variable {config config' config'' : World × List PrivacyThread}
  {label : PoolStep PrivacyRequest Call Call.Answer}

theorem keepingPool_served
    (h : (keepingPool storageConfigOf derivePassword).Reachable config) :
    ∀ thread ∈ config.2, PrivacyServed derivePassword thread.request thread.prog :=
  pool_programs privacy_served (fun _ _ _ _ h => h.next) h.of_restrict

theorem keepingPool_effect
    (h : (keepingPool storageConfigOf derivePassword).Reachable config)
    (hstep : (keepingPool storageConfigOf derivePassword).step config label config') :
    PrivacyEffect derivePassword config config' :=
  privacyPool_step (keepingPool_served h) hstep.1 hstep.2

theorem keepingPool_inv (h : (keepingPool storageConfigOf derivePassword).Reachable config) :
    PrivacyInv derivePassword config := by
  obtain ⟨start, labels, ⟨hstored, hthreads⟩, hrun⟩ := h
  have hstart : PrivacyInv derivePassword start := by
    have hnone : ∀ (i : ℕ) thread, start.2[i]? ≠ some thread := by
      intro i thread
      simp [hthreads]
    exact ⟨hstored, fun i t _ hi => absurd hi (hnone i t), fun i t _ _ hi => absurd hi (hnone i t),
      fun i _ t _ _ _ hi => absurd hi (hnone i t)⟩
  have hreached : (keepingPool storageConfigOf derivePassword).Reachable start :=
    ⟨start, [], ⟨hstored, hthreads⟩, .nil start⟩
  clear hstored hthreads
  induction hrun with
  | nil => exact hstart
  | cons hstep _ ih =>
    exact ih (hstart.step (keepingPool_effect hreached hstep)) (hreached.step hstep)

variable (derivePassword) in
/-- A hash is out of use: not stored for the recording, and nothing can store it again. -/
structure Retired (id hash : String) (config : World × List PrivacyThread) : Prop where
  stored : storedHash config.1 id ≠ some hash
  pending : ∀ (i : ℕ) (thread : PrivacyThread), config.2[i]? = some thread → ¬ Pending thread hash
  drawn : Freshly derivePassword config.1 hash

theorem Retired.step {id hash : String} (h : Retired derivePassword id hash config)
    (heffect : PrivacyEffect derivePassword config config') :
    Retired derivePassword id hash config' := by
  have hmono := heffect.drawn
  cases heffect with
  | quiet hs hthreads =>
    refine ⟨hs ▸ h.stored, fun i thread hi => ?_, h.drawn.mono hmono⟩
    rcases hthreads i thread hi with hi | hnot
    · exact h.pending i thread hi
    · exact hnot hash
  | drew k password salt hfresh hs hthreads =>
    refine ⟨?_, fun i thread hi hp => ?_, h.drawn.mono hmono⟩
    · rw [hs]
      exact h.stored
    · rcases hthreads i thread hi with ⟨-, hi⟩ | ⟨-, hnew⟩
      · exact h.pending i thread hi hp
      · exact hfresh (h.drawn password salt (hnew hash hp))
  | wrote k key new thread hk hdrawn hthreads hstored hsource =>
    refine ⟨fun hsome => ?_, fun i thread' hi => ?_, h.drawn.mono hmono⟩
    · rcases hstored id with heq | ⟨rfl, heq⟩
      · exact h.stored (heq ▸ hsome)
      · rcases hsource hash (heq ▸ hsome) with hp | hold
        · exact h.pending k thread hk hp
        · exact h.stored hold
    · rcases hthreads i thread' hi with ⟨-, hi⟩ | hnot
      · exact h.pending i thread' hi
      · exact hnot hash

/-- A hash that a request replaces is out of use from then on. -/
theorem Revokes.retired {id hash : String}
    (h : (keepingPool storageConfigOf derivePassword).Reachable config)
    (hstep : (keepingPool storageConfigOf derivePassword).step config label config')
    (hrevokes : Revokes config label config' id hash) : Retired derivePassword id hash config' := by
  have hinv := keepingPool_inv h
  have heffect := keepingPool_effect h hstep
  obtain ⟨i, privacy, hash', answer, thread, rfl, hget, hset, hstored, hstored'⟩ := hrevokes
  obtain ⟨request, next, hget', -, hthreads⟩ := hstep.2
  obtain rfl := Option.some_inj.mp (hget.symm.trans hget')
  -- The thread writes nothing or a pending hash, which is not the stored one, and then answers.
  have hwrites : hash' ≠ some hash ∧ Answered (next answer) := by
    have hserved := keepingPool_served h _ (List.mem_of_getElem? hget)
    cases hserved with
    | decided hdecided =>
      cases hdecided with
      | answered hanswered => exact nomatch hanswered.choose_spec
      | clearing _ hanswered => exact ⟨by simp, hanswered answer⟩
      | keeping hkeeps => exact absurd hkeeps hset
    | setting password salt _ hanswered =>
      refine ⟨fun hsame => ?_, hanswered answer⟩
      obtain rfl := Option.some_inj.mp hsame
      exact hinv.unstored i _ _ id hget ⟨hset, id, privacy, _, rfl⟩ hstored
  refine ⟨hstored' ▸ hwrites.1, fun j thread hj hp => ?_, (hinv.stored id hash hstored).mono
    heffect.drawn⟩
  rw [hthreads] at hj
  rcases getElem?_set_cases hj with ⟨-, hj⟩ | ⟨-, rfl⟩
  · exact hinv.unstored j thread hash id hj hp hstored
  · exact not_pending_of_answered hwrites.2 hash hp

/-- As long as every request that keeps the password finds the hash it has read still stored, a hash
that was replaced is never stored again. -/
theorem revoked_hash_never_returns {id hash : String}
    {labels : List (PoolStep PrivacyRequest Call Call.Answer)}
    (h : (keepingPool storageConfigOf derivePassword).Reachable config)
    (hstep : (keepingPool storageConfigOf derivePassword).step config label config')
    (hrevokes : Revokes config label config' id hash)
    (hrun : (keepingPool storageConfigOf derivePassword).Run config' labels config'') :
    storedHash config''.1 id ≠ some hash := by
  have hretired := hrevokes.retired h hstep
  have hreached := h.step hstep
  clear h hstep hrevokes
  induction hrun with
  | nil => exact hretired.stored
  | cons hstep _ ih =>
    exact ih (hretired.step (keepingPool_effect hreached hstep)) (hreached.step hstep)

end

/-! ## A changed password, and a lost update -/

private def sampleKey (password : String) (_ : List UInt8) : List UInt8 :=
  password.toList.map fun c => UInt8.ofNat c.toNat

private def sampleHash (password : String) (byte : UInt8) : String :=
  passwordHashOf sampleKey password (List.replicate 16 byte)

private def protectedRow : VideoRow where
  id := "v"
  userId := "u"
  name := "Demo"
  createdAt := "2026-01-01T00:00:00.000Z"
  objectKey := "users/u/recordings/v.mp4"
  uploadId := "up"
  storageConfig := "sealed"
  status := .complete
  privacy := .password
  passwordHash := some (sampleHash "first" 1)
  archivedAt := none

private def protectedWorld : World where
  videos := fun id => if id = "v" then some protectedRow else none
  uploads := fun _ _ _ => none
  tokens := []
  drawn := [List.replicate 16 1]
  sessions := fun _ => none

private def saltedWorld : World :=
  { protectedWorld with drawn := List.replicate 16 2 :: protectedWorld.drawn }

private def storing (s : World) (hash : String) : World :=
  s.updateVideo "v" fun row => { row with privacy := .password, passwordHash := some hash }

private def sampleUser : CurrentUser := ⟨"u", "User", some "sealed"⟩

private def noStorage (_ : String) : Option StorageConfig := none

private def keepRequest : PrivacyRequest := ⟨sampleUser, "v", ⟨"password", none⟩⟩

private def changeRequest : PrivacyRequest := ⟨sampleUser, "v", ⟨"password", some "second"⟩⟩

private def answeredRow : Except Failure (Option VideoRecord) :=
  .ok (some protectedRow.toVideoRecord)

private theorem protectedWorld_fresh (id hash : String)
    (h : storedHash protectedWorld id = some hash) : Freshly sampleKey protectedWorld hash := by
  have hhash : hash = sampleHash "first" 1 := by
    by_cases hid : id = "v"
    · simpa [storedHash, protectedWorld, protectedRow, hid] using h.symm
    · simp [storedHash, protectedWorld, hid] at h
  rw [hhash]
  exact freshly_passwordHashOf (List.mem_singleton_self _)

private theorem read_row : Call.exec noStorage protectedWorld (.findOwnedVideo "u" "v")
    answeredRow protectedWorld :=
  ⟨rfl, fun video hvideo => by obtain rfl := Except.ok.inj hvideo; rfl⟩

private theorem draw_salt : Call.exec noStorage protectedWorld (.getRandomValues 16)
    (List.replicate 16 2) saltedWorld :=
  ⟨rfl, by decide, rfl⟩

private theorem keeping_call {s s' : World} {threads : List PrivacyThread} {i : ℕ}
    {request : PrivacyRequest} {c : Call}
    {next : c.Answer → Prog Call Call.Answer (Except HttpError VideoPrivacy)} {answer : c.Answer}
    {labels : List (PoolStep PrivacyRequest Call Call.Answer)}
    {config : World × List PrivacyThread} (hget : threads[i]? = some ⟨request, .call c next⟩)
    (hcurrent : KeepsCurrent (s, threads) (.call i c answer))
    (hexec : Call.exec noStorage s c answer s')
    (hrest : (keepingPool noStorage sampleKey).Run (s', threads.set i ⟨request, next answer⟩) labels
      config) :
    (keepingPool noStorage sampleKey).Run (s, threads) (.call i c answer :: labels) config := by
  have hstep : (keepingPool noStorage sampleKey).step (s, threads) (.call i c answer)
      (s', threads.set i ⟨request, next answer⟩) := ⟨hcurrent, request, next, hget, hexec, rfl⟩
  exact .cons hstep hrest

private theorem keeping_arrive {s : World} {threads : List PrivacyThread}
    {request : PrivacyRequest} {labels : List (PoolStep PrivacyRequest Call Call.Answer)}
    {config : World × List PrivacyThread}
    (hrest : (keepingPool noStorage sampleKey).Run (s, threads ++ [⟨request,
      (privacy sampleKey request.user request.id request.payload).run⟩]) labels config) :
    (keepingPool noStorage sampleKey).Run (s, threads) (.arrive request :: labels) config := by
  have hstep : (keepingPool noStorage sampleKey).step (s, threads) (.arrive request)
      (s, threads ++ [⟨request, (privacy sampleKey request.user request.id request.payload).run⟩]) :=
    ⟨trivial, rfl, rfl⟩
  exact .cons hstep hrest

private theorem read_changed_row (hash : String) : Call.exec noStorage (storing saltedWorld hash)
    (.findOwnedVideo "u" "v")
    (.ok (some { protectedRow.toVideoRecord with passwordHash := some hash }))
    (storing saltedWorld hash) :=
  ⟨rfl, fun video hvideo => by obtain rfl := Except.ok.inj hvideo; rfl⟩

private theorem changeRequest_sets : ¬ changeRequest.Keeps := by
  simp [changeRequest, PrivacyRequest.Keeps]

/-- The password is changed, and a later request keeps the new one. -/
theorem revoked_hash_never_returns_kept :
    storedHash (storing (storing saltedWorld (sampleHash "second" 2)) (sampleHash "second" 2)) "v" ≠
      some (sampleHash "first" 1) := by
  have hbefore : (keepingPool noStorage sampleKey).Run (protectedWorld, [])
      [.arrive changeRequest, .call 0 (.findOwnedVideo "u" "v") answeredRow,
        .call 0 (.getRandomValues 16) (List.replicate 16 2)] _ :=
    keeping_arrive (keeping_call rfl trivial read_row (keeping_call rfl trivial draw_salt (.nil _)))
  exact @revoked_hash_never_returns sampleKey noStorage _
    (storing saltedWorld (sampleHash "second" 2), _)
    (storing (storing saltedWorld (sampleHash "second" 2)) (sampleHash "second" 2), _)
    (.call 0 (.setVideoPrivacy "v" .password (some (sampleHash "second" 2))) (.ok ())) "v" _
    [.arrive keepRequest, .call 1 (.findOwnedVideo "u" "v") _,
      .call 1 (.setVideoPrivacy "v" .password (some (sampleHash "second" 2))) (.ok ())]
    ⟨_, _, ⟨protectedWorld_fresh, rfl⟩, hbefore⟩
    ⟨keepsCurrent_of_set rfl changeRequest_sets, _, _, rfl, .inl rfl, rfl⟩
    ⟨0, .password, _, _, _, rfl, rfl, changeRequest_sets, rfl, rfl⟩
    (keeping_arrive (keeping_call rfl trivial (read_changed_row _)
      (keeping_call rfl (keepsCurrent_of_stored rfl) (.inl rfl) (.nil _))))

/-- A request that keeps the password overlaps one that changes it, and stores the old hash again. -/
theorem keeping_restores_replaced_hash :
    ∃ config label config' labels config'',
      (privacyPool noStorage sampleKey).Reachable config ∧
      (privacyPool noStorage sampleKey).step config label config' ∧
      Revokes config label config' "v" (sampleHash "first" 1) ∧
      (privacyPool noStorage sampleKey).Run config' labels config'' ∧
      storedHash config''.1 "v" = some (sampleHash "first" 1) := by
  have hbefore : (privacyPool noStorage sampleKey).Run (protectedWorld, [])
      [.arrive keepRequest, .arrive changeRequest,
        .call 0 (.findOwnedVideo "u" "v") answeredRow,
        .call 1 (.findOwnedVideo "u" "v") answeredRow,
        .call 1 (.getRandomValues 16) (List.replicate 16 2)] _ :=
    pool_run_arrive (pool_run_arrive (pool_run_call protectedWorld rfl read_row
      (pool_run_call protectedWorld rfl read_row
        (pool_run_call saltedWorld rfl draw_salt (.nil _)))))
  exact ⟨_, .call 1 (.setVideoPrivacy "v" .password (some (sampleHash "second" 2))) (.ok ()),
    (storing saltedWorld (sampleHash "second" 2), _),
    [.call 0 (.setVideoPrivacy "v" .password (some (sampleHash "first" 1))) (.ok ())], _,
    ⟨_, _, ⟨protectedWorld_fresh, rfl⟩, hbefore⟩, ⟨_, _, rfl, .inl rfl, rfl⟩,
    ⟨1, .password, _, _, _, rfl, rfl, changeRequest_sets, rfl, rfl⟩,
    pool_run_call (storing (storing saltedWorld (sampleHash "second" 2)) (sampleHash "first" 1))
      rfl (.inl rfl) (.nil _), rfl⟩

end Blip.Server
