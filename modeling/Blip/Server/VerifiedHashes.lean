import Blip.Common.Recency
import Blip.Server.AccessHistory
import Blip.Server.MediaAccess

/-!
# The hashes a client has verified, over all its unlocks

A client carries one cookie, which each unlock that succeeds replaces. Between its unlocks the server
does anything, changing passwords and unlocking for others. A call of the services may fail, but the
vault decrypts what it has encrypted, and makes no ciphertext that the client already happens to carry.
-/

namespace Blip.Server

variable {ε α : Type}

/-! ## What a cookie holds -/

/-- What the vault answers: the plaintext of a ciphertext that it has made, and no ciphertext
is empty. -/
def Call.Decrypts (s : World) : (c : Call) → c.Answer → Prop
  | .decryptString value, answer => ∀ plaintext, (value, plaintext) ∈ s.tokens → answer = .ok plaintext
  | .encryptString _, answer => answer ≠ .ok ""
  | _, _ => True

/-- The outcomes of a call, with a vault that decrypts. -/
def Call.execDecrypting (storageConfigOf : String → Option StorageConfig) (s : World) (c : Call)
    (answer : c.Answer) (s' : World) : Prop :=
  c.exec storageConfigOf s answer s' ∧ c.Decrypts s answer

namespace World

/-- A ciphertext has one plaintext. -/
def Deciphered (s : World) : Prop :=
  ∀ value plaintext other, (value, plaintext) ∈ s.tokens → (value, other) ∈ s.tokens → other = plaintext

/-- The hashes in a client's cookie: none if there is no cookie, if the vault has not made it, or if it
decrypts to something else than an array of strings. -/
def held (s : World) (cookie : Option String) : List String :=
  match cookie with
  | none => []
  | some "" => []
  | some value => ((s.tokens.lookup value).map parseHashes).getD []

/-- A cookie that does not decrypt, or not to an array of strings. -/
def Broken (s : World) (value : String) : Prop :=
  ∀ plaintext, (value, plaintext) ∈ s.tokens → JsonStrings.parse plaintext.toList = none

end World

/-! ## A client -/

/-- The server, the client's cookie, and the hashes of its unlocks in order. -/
structure UnlockHistory where
  world : World
  cookie : Option String
  unlocked : List String

inductive UnlockStep
  | unlock (request : HttpServerRequest) (id password : String) (result : Except HttpError SetCookie)
  | other

section

variable (storageConfigOf : String → Option StorageConfig)
  (derivePassword : String → List UInt8 → List UInt8)

namespace UnlockHistory

variable (s : UnlockHistory)

/-- The client does not carry a ciphertext that the vault has yet to make. -/
def Unguessed (world : World) : Prop :=
  ∀ value plaintext, s.cookie = some value → (value, plaintext) ∈ world.tokens →
    (value, plaintext) ∈ s.world.tokens

/-- What the client has got after its unlock. -/
def answered (world : World) (id : String) : Except HttpError SetCookie → UnlockHistory
  | .ok cookie =>
    -- the hash that was verified is the one stored when the unlock began
    { world
      cookie := some cookie.value
      unlocked := s.unlocked ++ (storedHash s.world id).toList }
  | .error _ => { s with world }

def step : UnlockStep → UnlockHistory → Prop
  | .unlock request id password result, s' => request.cookies.lookup passwordCookie = s.cookie ∧
      ∃ world, s.Unguessed world ∧ s' = s.answered world id result ∧
        Exec (Call.execDecrypting storageConfigOf) s.world
          (Blip.Server.unlock derivePassword none request id password).run result world
  | .other, s' => ∃ (ε α : Type) (effect : Effect ε α) (result : Except ε α) (world : World),
      s.Unguessed world ∧ s' = { s with world } ∧
        Exec (Call.execDecrypting storageConfigOf) s.world effect.run result world

end UnlockHistory

/-- The histories of a client that begins without a cookie, or with one that holds nothing. -/
def unlockHistories : System UnlockHistory UnlockStep where
  init s := s.world.Deciphered ∧ s.world.held s.cookie = [] ∧ s.unlocked = []
  step s label s' := s.step storageConfigOf derivePassword label s'

end

/-! ## Reading a cookie -/

section

variable {storageConfigOf : String → Option StorageConfig}
    {derivePassword : String → List UInt8 → List UInt8}
  {s s' : World} {request request' : HttpServerRequest} {value plaintext hash id password : String}

theorem World.Deciphered.lookup (h : s.Deciphered) :
    s.tokens.lookup value = some plaintext ↔ (value, plaintext) ∈ s.tokens := by
  have hmem : ∀ other, s.tokens.lookup value = some other → (value, other) ∈ s.tokens := by
    intro other hlookup
    obtain ⟨before, after, htokens, -⟩ := List.lookup_eq_some_iff.mp hlookup
    rw [htokens]
    exact List.mem_append_right _ List.mem_cons_self
  refine ⟨hmem plaintext, fun htoken => ?_⟩
  cases hlookup : s.tokens.lookup value with
  | none => exact absurd (List.lookup_eq_none_iff.mp hlookup _ htoken) (by simp)
  | some other => rw [h value plaintext other htoken (hmem other hlookup)]

theorem World.held_of_ne_empty (h : value ≠ "") :
    s.held (some value) = ((s.tokens.lookup value).map parseHashes).getD [] := by
  unfold World.held
  split
  · rename_i heq
    cases heq
  · rename_i heq
    exact absurd (Option.some.inj heq) h
  · rename_i heq
    rw [Option.some.inj heq]

/-- A cookie holds what the vault made it from. -/
theorem World.Deciphered.held (h : s.Deciphered) (hvalue : value ≠ "")
    (hmem : (value, plaintext) ∈ s.tokens) : s.held (some value) = parseHashes plaintext := by
  rw [World.held_of_ne_empty hvalue, h.lookup.mpr hmem]
  rfl

/-- A broken cookie holds nothing. -/
theorem World.Deciphered.held_broken (h : s.Deciphered) (hbroken : s.Broken value) :
    s.held (some value) = [] := by
  by_cases hvalue : value = ""
  · subst hvalue
    rfl
  rw [World.held_of_ne_empty hvalue]
  cases hlookup : s.tokens.lookup value with
  | none => rfl
  | some plaintext =>
    have hparse := hbroken plaintext (h.lookup.mp hlookup)
    simp [parseHashes, hparse]

/-- The vault's answer to a cookie, `[]` when it has none. -/
theorem exec_decryptString (h : s.Deciphered) {r : Except ε String} :
    Exec (Call.execDecrypting storageConfigOf) s
        ((Vault.decryptString value).catchAll fun _ => pure "[]" : Effect ε String).run r s' ↔
      r = .ok ((s.tokens.lookup value).getD "[]") ∧ s' = s := by
  refine exec_call.trans ?_
  constructor
  · rintro ⟨answer, _, ⟨⟨rfl, hvalue⟩, hdecrypts⟩, hrest⟩
    rcases answer with error | plaintext
    · -- the vault fails only on what it has not made
      obtain ⟨rfl, rfl⟩ := exec_done.mp hrest
      cases hlookup : s'.tokens.lookup value with
      | none => exact ⟨rfl, rfl⟩
      | some plaintext => cases hdecrypts plaintext (h.lookup.mp hlookup)
    · obtain ⟨rfl, rfl⟩ := exec_done.mp hrest
      rw [h.lookup.mpr (hvalue plaintext rfl)]
      exact ⟨rfl, rfl⟩
  · rintro ⟨rfl, rfl⟩
    cases hlookup : s'.tokens.lookup value with
    | none =>
      refine ⟨.error ⟨""⟩, s', ⟨⟨rfl, by simp⟩, fun plaintext hmem => ?_⟩, .done _ _⟩
      rw [h.lookup.mpr hmem] at hlookup
      cases hlookup
    | some plaintext =>
      refine ⟨.ok plaintext, s', ⟨⟨rfl, ?_⟩, fun other hmem => ?_⟩, .done _ _⟩
      · rintro _ ⟨⟩
        exact h.lookup.mp hlookup
      · rw [h value other plaintext hmem (h.lookup.mp hlookup)]

/-- `getVerifiedPasswordHashes` answers what the cookie holds. -/
theorem exec_getVerifiedPasswordHashes (h : s.Deciphered) {r : Except ε (List String)} :
    Exec (Call.execDecrypting storageConfigOf) s
        (getVerifiedPasswordHashes none request : Effect ε (List String)).run r s' ↔
      r = .ok (s.held (request.cookies.lookup passwordCookie)) ∧ s' = s := by
  unfold getVerifiedPasswordHashes
  dsimp only
  generalize request.cookies.lookup passwordCookie = cookie
  split
  · exact exec_done
  · exact exec_done
  · rename_i value hvalue
    have hparse : parseHashes ((s.tokens.lookup value).getD "[]") = s.held (some value) := by
      rw [World.held_of_ne_empty hvalue]
      cases s.tokens.lookup value <;> rfl
    refine Fallible.exec_bind.trans ?_
    simp only [exec_decryptString h, Except.ok.injEq, reduceCtorEq, false_and, and_false, exists_false,
      or_false]
    constructor
    · rintro ⟨_, _, ⟨rfl, rfl⟩, hrest⟩
      obtain ⟨rfl, rfl⟩ := exec_done.mp hrest
      exact ⟨congrArg Except.ok hparse, rfl⟩
    · rintro ⟨rfl, rfl⟩
      refine ⟨_, _, ⟨rfl, rfl⟩, ?_⟩
      rw [← hparse]
      exact .done _ _

/-! ## A cookie that holds nothing -/

/-- The requests differ in their cookie only, and the cookies hold the same. -/
structure World.Alike (s : World) (request request' : HttpServerRequest) : Prop where
  headers : request.headers = request'.headers
  protocol : request.protocol = request'.protocol
  held : s.held (request.cookies.lookup passwordCookie) = s.held (request'.cookies.lookup passwordCookie)

theorem agrees_getVerifiedPasswordHashes (h : s.Deciphered) (halike : s.Alike request request') :
    Fallible.Agrees (Call.execDecrypting storageConfigOf) s
      (getVerifiedPasswordHashes none request : Effect ε (List String))
      (getVerifiedPasswordHashes none request') := by
  intro r s'
  rw [exec_getVerifiedPasswordHashes h, exec_getVerifiedPasswordHashes h, halike.held]

theorem agrees_setVerifiedPasswordCookie (h : s.Deciphered) (halike : s.Alike request request') :
    Fallible.Agrees (Call.execDecrypting storageConfigOf) s (setVerifiedPasswordCookie none request hash)
      (setVerifiedPasswordCookie none request' hash) := by
  unfold setVerifiedPasswordCookie
  rw [halike.protocol]
  exact (agrees_getVerifiedPasswordHashes h halike).bind fun _ _ _ => .refl _ _

/-- Finding a recording changes nothing. -/
theorem exec_findVideo {found : Option VideoRecord}
    (h : Exec (Call.execDecrypting storageConfigOf) s
      (internal (Repository.findVideo id)).run (.ok found) s') :
    s' = s ∧ found = ((s.videos id).filter (·.archivedAt = none)).map VideoRow.toVideoRecord := by
  obtain ⟨answer, _, ⟨⟨rfl, hvalue⟩, -⟩, hrest⟩ := exec_call.mp h
  obtain ⟨hanswer, rfl⟩ := exec_done.mp hrest
  rcases answer with error | found'
  · cases hanswer
  · cases hanswer
    exact ⟨rfl, hvalue _ rfl⟩

theorem exec_requestIsOwner {owner : Bool} (request : HttpServerRequest) (video : VideoRecord)
    (h : Exec (Call.execDecrypting storageConfigOf) s
      (requestIsOwner request video : Effect HttpError Bool).run (.ok owner) s') : s' = s := by
  obtain ⟨answer, _, ⟨⟨rfl, -⟩, -⟩, hrest⟩ := exec_call.mp h
  exact (exec_done.mp hrest).2

/-- The owner is told by the headers, so what follows decides. -/
theorem agrees_requestIsOwner (halike : s.Alike request request') (video : VideoRecord)
    {rest rest' : Bool → Effect HttpError α}
    (hrest : ∀ owner, Fallible.Agrees (Call.execDecrypting storageConfigOf) s (rest owner) (rest' owner)) :
    Fallible.Agrees (Call.execDecrypting storageConfigOf) s (requestIsOwner request video >>= rest)
      (requestIsOwner request' video >>= rest') := by
  rw [requestIsOwner, requestIsOwner, halike.headers]
  refine (Fallible.Agrees.refl _ _).bind fun owner s' howner => ?_
  obtain rfl := exec_requestIsOwner request' video howner
  exact hrest owner

/-- Unlocking goes the same with either cookie. -/
theorem agrees_unlock (h : s.Deciphered) (halike : s.Alike request request') :
    Fallible.Agrees (Call.execDecrypting storageConfigOf) s
      (unlock derivePassword none request id password)
        (unlock derivePassword none request' id password) := by
  refine (Fallible.Agrees.refl _ _).bind fun found s' hfound => ?_
  obtain ⟨rfl, -⟩ := exec_findVideo hfound
  cases found with
  | none => exact .refl _ _
  | some video =>
    refine .ite (fun _ => .refl _ _) fun _ => ?_
    split
    · exact .refl _ _
    · refine .ite (fun _ => .refl _ _) fun _ => .ite (fun _ => .refl _ _) fun _ => ?_
      exact agrees_setVerifiedPasswordCookie h halike

theorem agrees_view (h : s.Deciphered) (halike : s.Alike request request') (publicOrigin : String) :
    Fallible.Agrees (Call.execDecrypting storageConfigOf) s (view publicOrigin none request id)
      (view publicOrigin none request' id) := by
  refine (Fallible.Agrees.refl _ _).bind fun found s' hfound => ?_
  obtain ⟨rfl, -⟩ := exec_findVideo hfound
  cases found with
  | none => exact .refl _ _
  | some video =>
    refine .ite (fun _ => .refl _ _) fun _ => ?_
    refine agrees_requestIsOwner halike video fun owner => ?_
    refine .ite (fun _ => .refl _ _) fun _ => .ite (fun _ => ?_) fun _ => .refl _ _
    split
    · exact .refl _ _
    · refine .ite (fun _ => .refl _ _) fun _ => ?_
      exact (agrees_getVerifiedPasswordHashes h halike).bind fun _ _ _ => .refl _ _

theorem agrees_playlist (h : s.Deciphered) (halike : s.Alike request request') :
    Fallible.Agrees (Call.execDecrypting storageConfigOf) s (playlist none request id)
      (playlist none request' id) := by
  refine (Fallible.Agrees.refl _ _).bind fun found s' hfound => ?_
  obtain ⟨rfl, -⟩ := exec_findVideo hfound
  cases found with
  | none => exact .refl _ _
  | some video =>
    refine .ite (fun _ => .refl _ _) fun _ => ?_
    refine agrees_requestIsOwner halike video fun owner => ?_
    refine Fallible.Agrees.bind ?_ fun _ _ _ => .refl _ _
    refine .ite (fun _ => .refl _ _) fun _ => .ite (fun _ => ?_) fun _ => .refl _ _
    split
    · exact .refl _ _
    · refine .ite (fun _ => .refl _ _) fun _ => ?_
      exact (agrees_getVerifiedPasswordHashes h halike).bind fun _ _ _ => .refl _ _

/-! ## An unlock -/

/-- The cookie that an unlock sends: made by the vault from what the client's holds and the new hash. -/
theorem exec_setVerifiedPasswordCookie (h : s.Deciphered) {cookie : SetCookie}
    (hexec : Exec (Call.execDecrypting storageConfigOf) s
      (setVerifiedPasswordCookie none request hash).run (.ok cookie) s') :
    cookie.value ≠ "" ∧ s.Mints s' cookie.value (stringifyHashes (Recency.remember maxVerifiedHashes
      (s.held (request.cookies.lookup passwordCookie)) hash)) := by
  rcases Fallible.exec_bind.mp hexec with ⟨verified, _, hverified, hexec⟩ | ⟨_, heq, -⟩
  swap
  · cases heq
  obtain ⟨hheld, rfl⟩ := (exec_getVerifiedPasswordHashes h).mp hverified
  cases hheld
  obtain ⟨answer, world, ⟨hmints, hanswer⟩, hrest⟩ := exec_call.mp hexec
  rcases answer with error | token
  · cases (exec_done.mp hrest).1
  · have hmade : cookie.value = token ∧ s' = world := by
      cases hprotocol : request.protocol with
      | none =>
        rw [hprotocol] at hrest
        cases (exec_done.mp hrest).1
      | some protocol =>
        rw [hprotocol] at hrest
        obtain ⟨hcookie, rfl⟩ := exec_done.mp hrest
        cases hcookie
        exact ⟨rfl, rfl⟩
    obtain ⟨rfl, rfl⟩ := hmade
    exact ⟨fun hempty => hanswer (congrArg Except.ok hempty), hmints⟩

/-- An unlock that succeeds has verified the stored hash. -/
theorem exec_unlock {cookie : SetCookie} (hexec : Exec (Call.execDecrypting storageConfigOf) s
      (unlock derivePassword none request id password).run (.ok cookie) s') :
    ∃ hash, storedHash s id = some hash ∧ verifyPassword derivePassword password hash = true ∧
      Exec (Call.execDecrypting storageConfigOf) s
        (setVerifiedPasswordCookie none request hash).run (.ok cookie) s' := by
  rcases Fallible.exec_bind.mp hexec with ⟨found, _, hfound, hexec⟩ | ⟨_, heq, -⟩
  swap
  · cases heq
  obtain ⟨rfl, hrow⟩ := exec_findVideo hfound
  have hthrow : ∀ {error : HttpError} {w : World},
      ¬ Exec (Call.execDecrypting storageConfigOf) w (throw error : Effect HttpError SetCookie).run
        (.ok cookie) s' := by
    intro error w h
    cases (exec_done.mp h).1
  cases found with
  | none => exact absurd hexec hthrow
  | some video =>
    dsimp only at hexec
    split at hexec
    · exact absurd hexec hthrow
    split at hexec
    · exact absurd hexec hthrow
    rename_i hash hhash
    split_ifs at hexec with hempty hverified
    · exact absurd hexec hthrow
    · exact ⟨hash, (storedHash_of_finds hrow.symm).trans hhash, hverified, hexec⟩
    · exact absurd hexec hthrow

/-! ## Every history -/

/-- A call keeps the vault's ciphertexts, and each has one plaintext. -/
theorem exec_keeps {c : Call} {answer : c.Answer} (hexec : c.exec storageConfigOf s answer s')
    (h : s.Deciphered) : s'.Deciphered ∧ ∀ token ∈ s.tokens, token ∈ s'.tokens := by
  by_cases hc : ∃ value, c = .encryptString value
  swap
  · have htokens := exec_tokens hexec fun value heq => hc ⟨value, heq⟩
    unfold World.Deciphered
    rw [htokens]
    exact ⟨h, fun _ hmem => hmem⟩
  obtain ⟨value, rfl⟩ := hc
  rcases answer with error | token
  · obtain rfl : s' = s := hexec
    exact ⟨h, fun _ hmem => hmem⟩
  · have hmints : s.Mints s' token value := hexec
    exact ⟨fun _ _ _ => hmints.content h, fun _ hmem => hmints.kept hmem⟩

/-- So does every program. -/
theorem exec_program_keeps {effect : Effect ε α} {r : Except ε α}
    (hexec : Exec (Call.execDecrypting storageConfigOf) s effect.run r s') (h : s.Deciphered) :
    s'.Deciphered ∧ ∀ token ∈ s.tokens, token ∈ s'.tokens := by
  refine hexec.invariant (P := fun w => w.Deciphered ∧ ∀ token ∈ s.tokens, token ∈ w.tokens) ?_
    ⟨h, fun _ hmem => hmem⟩
  rintro w c r w' ⟨hw, hkept⟩ ⟨hcall, -⟩
  obtain ⟨hw', hgrown⟩ := exec_keeps hcall hw
  exact ⟨hw', fun token hmem => hgrown token (hkept token hmem)⟩

/-- Ciphertexts that are not the cookie do not change what it holds. -/
theorem World.Deciphered.held_eq (h : s.Deciphered) (h' : s'.Deciphered) {cookie : Option String}
    (hkept : ∀ token ∈ s.tokens, token ∈ s'.tokens)
    (hsame : ∀ value plaintext, cookie = some value → (value, plaintext) ∈ s'.tokens →
      (value, plaintext) ∈ s.tokens) : s'.held cookie = s.held cookie := by
  cases cookie with
  | none => rfl
  | some value =>
    by_cases hvalue : value = ""
    · subst hvalue
      rfl
    have hlookup : s'.tokens.lookup value = s.tokens.lookup value := by
      refine Option.ext fun plaintext => ?_
      rw [h.lookup, h'.lookup]
      exact ⟨hsame value plaintext rfl, hkept _⟩
    rw [held_of_ne_empty hvalue, held_of_ne_empty hvalue, hlookup]

namespace UnlockHistory

variable {t t' : UnlockHistory}

/-- The cookie holds the hashes of the last unlocks. -/
structure Inv (t : UnlockHistory) : Prop where
  deciphered : t.world.Deciphered
  held : t.world.held t.cookie = Recency.recent maxVerifiedHashes t.unlocked

/-- What an unlock that succeeds does to the cookie. -/
theorem step_unlock {cookie : SetCookie} (h : t.world.Deciphered)
    (hstep : t.step storageConfigOf derivePassword (.unlock request id password (.ok cookie)) t') :
    ∃ hash, storedHash t.world id = some hash ∧ verifyPassword derivePassword password hash = true ∧
      t'.unlocked = t.unlocked ++ [hash] ∧ t'.cookie = some cookie.value ∧ t'.world.Deciphered ∧
      t'.world.held t'.cookie =
        Recency.remember maxVerifiedHashes (t.world.held t.cookie) hash := by
  obtain ⟨hcookie, world, -, rfl, hexec⟩ := hstep
  obtain ⟨hash, hstored, hverified, hset⟩ := exec_unlock hexec
  obtain ⟨hvalue, hmints⟩ := exec_setVerifiedPasswordCookie h hset
  have hdeciphered := (exec_program_keeps hexec h).1
  refine ⟨hash, hstored, hverified, ?_, rfl, hdeciphered, ?_⟩
  · simp only [answered, hstored, Option.toList_some]
  · simp only [answered]
    refine (hdeciphered.held hvalue hmints.mem).trans ?_
    rw [parseHashes_stringifyHashes, hcookie]

theorem Inv.step {label : UnlockStep} (h : t.Inv)
    (hstep : t.step storageConfigOf derivePassword label t') : t'.Inv := by
  have hquiet : ∀ {ε α : Type} {effect : Effect ε α} {r : Except ε α} {world : World},
      t.Unguessed world → Exec (Call.execDecrypting storageConfigOf) t.world effect.run r world →
      Inv { t with world } := by
    intro ε α effect r world hunguessed hexec
    obtain ⟨hdeciphered, hkept⟩ := exec_program_keeps hexec h.deciphered
    exact ⟨hdeciphered, (h.deciphered.held_eq hdeciphered hkept hunguessed).trans h.held⟩
  cases label with
  | other =>
    obtain ⟨ε, α, effect, result, world, hunguessed, rfl, hexec⟩ := hstep
    exact hquiet hunguessed hexec
  | unlock request id password result =>
    rcases result with error | cookie
    · obtain ⟨-, world, hunguessed, rfl, hexec⟩ := hstep
      exact hquiet hunguessed hexec
    · obtain ⟨hash, -, -, hunlocked, -, hdeciphered, hheld⟩ := step_unlock h.deciphered hstep
      refine ⟨hdeciphered, ?_⟩
      rw [hheld, h.held, hunlocked]
      exact (Recency.recent_concat 9 t.unlocked hash).symm

theorem inv_of_reachable (h : (unlockHistories storageConfigOf derivePassword).Reachable t) : t.Inv := by
  refine h.invariant ?_ fun _ _ _ hinv hstep => hinv.step hstep
  rintro t ⟨hdeciphered, hheld, hunlocked⟩
  refine ⟨hdeciphered, ?_⟩
  rw [hheld, hunlocked]
  rfl

end UnlockHistory

end

/-! ### One unlock -/

private def lockedHash : String := passwordHashOf (fun _ _ => [0]) "password" [0]

private def lockedVideo : VideoRecord where
  id := "r"
  userId := "u"
  name := "demo"
  createdAt := "2026-01-01T00:00:00.000Z"
  objectKey := "users/u/recordings/r.mp4"
  uploadId := "up"
  storageConfig := "sealed"
  status := .complete
  privacy := .password
  passwordHash := some lockedHash

private def lockedWorld : World where
  videos := fun id =>
    if id = "r" then
      some
        { toVideoRecord := lockedVideo
          archivedAt := none }
    else none
  uploads := fun _ _ _ => none
  tokens := []
  drawn := []
  sessions := fun _ => none

private def lockedHistory : UnlockHistory where
  world := lockedWorld
  cookie := none
  unlocked := []

private def openedHistory : UnlockHistory where
  world := { lockedWorld with tokens := [("v1.nonce.payload", stringifyHashes [lockedHash])] }
  cookie := some "v1.nonce.payload"
  unlocked := [lockedHash]

private def unlockRequest : HttpServerRequest where
  headers := []
  cookies := []
  protocol := some "https:"

private def unlockCookie : SetCookie where
  name := passwordCookie
  value := "v1.nonce.payload"
  httpOnly := true
  secure := true
  sameSite := "lax"
  path := "/"

private theorem unlock_locked : Exec (Call.execDecrypting fun _ => none) lockedWorld
    (unlock (fun _ _ => [0]) none unlockRequest "r" "password").run (.ok unlockCookie)
    openedHistory.world := by
  have hfind : Exec (Call.execDecrypting fun _ => none) lockedWorld
      (internal (Repository.findVideo "r")).run (.ok (some lockedVideo)) lockedWorld := by
    refine exec_call.mpr ⟨.ok (some lockedVideo), lockedWorld, ⟨⟨rfl, ?_⟩, trivial⟩, .done _ _⟩
    rintro _ ⟨⟩
    rfl
  have hverified : verifyPassword (fun _ _ => [0]) "password" lockedHash = true :=
    (verifyPassword_passwordHashOf (by decide) (by decide)).mpr rfl
  have hnonempty : lockedHash ≠ "" := by
    intro hempty
    rw [hempty] at hverified
    revert hverified
    decide
  have hencrypt : Call.execDecrypting (fun _ => none) lockedWorld
      (.encryptString (stringifyHashes [lockedHash])) (.ok "v1.nonce.payload") openedHistory.world := by
    refine ⟨⟨?_, rfl⟩, ?_⟩
    · rintro _ ⟨⟩
    · intro h
      exact absurd (Except.ok.inj h) (by decide)
  refine Fallible.exec_bind.mpr (.inl ⟨some lockedVideo, lockedWorld, hfind, ?_⟩)
  change Exec _ _ (ite (_ ∨ _) _ (ite _ _ (ite _ _ _)) : Effect HttpError SetCookie).run _ _
  rw [if_neg (by decide), if_neg hnonempty, if_neg (by simpa using hverified)]
  exact .call hencrypt (.done _ _)

end Blip.Server
