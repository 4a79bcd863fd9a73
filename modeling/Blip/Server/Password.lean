import Blip.Common.Base64
import Blip.Common.JsonStrings
import Blip.Server.Domain
import Blip.Server.Text
import Mathlib.Data.Nat.Bitwise

/-!
# Password hashes and the cookie of verified hashes

A stored hash is `v1.<salt>.<derived key>`, both in unpadded URL-safe Base64. `derivePassword`
(PBKDF2) is a parameter. A viewer who has given a password carries the hash it verified against in
an encrypted cookie, together with those of up to nine other recordings.
-/

namespace Blip.Server

/-- `secureEqual`: the texts compared code unit by code unit, without stopping early. -/
def secureEqual (left right : String) : Bool :=
  let left := Utf16.units left.toList
  let right := Utf16.units right.toList
  left.length == right.length &&
    ((left.zip right).foldl (fun difference units => difference ||| (units.1 ^^^ units.2)) 0) == 0

/-- Standard Base64 to the URL-safe alphabet. -/
def toUrlSafe (c : Char) : Char := if c = '+' then '-' else if c = '/' then '_' else c

/-- The URL-safe alphabet to standard Base64. -/
def ofUrlSafe (c : Char) : Char := if c = '-' then '+' else if c = '_' then '/' else c

def encodeBytes (bytes : List UInt8) : String :=
  String.ofList (((Base64.btoa bytes).map toUrlSafe).rdropWhile (· == '='))

/-- `decodeBytes`, which throws on a text that is not Base64. -/
def decodeBytes (value : String) : Option (List UInt8) :=
  Base64.atob (Base64.padEnd (value.toList.map ofUrlSafe))

/-- A text split at every `c`, as `String.prototype.split` does it. -/
def splitAt (c : Char) : List Char → List (List Char)
  | [] => [[]]
  | d :: rest =>
    match splitAt c rest with
    | [] => [[]]
    | piece :: pieces => if d = c then [] :: piece :: pieces else (d :: piece) :: pieces

section

variable (derivePassword : String → List UInt8 → List UInt8)

/-- The hash of a password under a salt. -/
def passwordHashOf (password : String) (salt : List UInt8) : String :=
  "v1." ++ encodeBytes salt ++ "." ++ encodeBytes (derivePassword password salt)

def hashPassword {ε : Type} (password : String) : Effect ε String := do
  let salt ← Effect.succeed (.getRandomValues 16)
  pure (passwordHashOf derivePassword password salt)

def verifyPassword (password encoded : String) : Bool :=
  match splitAt '.' encoded.toList with
  | version :: salt :: expected :: _ =>
    if version ≠ "v1".toList ∨ salt = [] ∨ expected = [] then false
    else
      match decodeBytes (String.ofList salt) with
      | none => false
      | some salt =>
        secureEqual (encodeBytes (derivePassword password salt)) (String.ofList expected)
  | _ => false

end

/-! ## The cookie -/

/-- `PASSWORD_COOKIE`. -/
def passwordCookie : String := "x-blip-password"

/-- `MAX_VERIFIED_HASHES`. -/
def maxVerifiedHashes : ℕ := 10

/-- A cookie set on a response. -/
structure SetCookie where
  name : String
  value : String
  httpOnly : Bool
  secure : Bool
  sameSite : String
  path : String
deriving DecidableEq, Repr

/-- The hashes a decrypted cookie holds. -/
def parseHashes (decrypted : String) : List String :=
  ((JsonStrings.parse decrypted.toList).getD []).map String.ofList

/-- `JSON.stringify` of the hashes. -/
def stringifyHashes (hashes : List String) : String :=
  String.ofList (JsonStrings.stringify (hashes.map String.toList))

/-- `getVerifiedPasswordHashes`; `service` is the optional `VerifiedPasswordHashes`. -/
def getVerifiedPasswordHashes {ε : Type} (service : Option (List String))
    (request : HttpServerRequest) : Effect ε (List String) :=
  match service with
  | some hashes => pure hashes
  | none =>
    match request.cookies.lookup passwordCookie with
    | none => pure []
    | some "" => pure []
    | some cookieValue => do
      let decrypted ← (Vault.decryptString cookieValue).catchAll fun _ => pure "[]"
      pure (parseHashes decrypted)

/-- `setVerifiedPasswordCookie`: the cookie added to the response. -/
def setVerifiedPasswordCookie (service : Option (List String)) (request : HttpServerRequest)
    (passwordHash : String) : Effect HttpError SetCookie := do
  let verified ← getVerifiedPasswordHashes service request
  let hashes := verified.filter (· ≠ passwordHash) ++ [passwordHash]
  let kept := hashes.drop (hashes.length - maxVerifiedHashes)
  let cookieValue ← (Vault.encryptString (stringifyHashes kept)).mapError fun _ => .defect
  match request.protocol with
  | none => throw .defect
  | some protocol =>
    pure
      { name := passwordCookie
        value := cookieValue
        httpOnly := true
        secure := protocol == "https:"
        sameSite := "lax"
        path := "/" }

/-! ## Encodings read back -/

private theorem ofUrlSafe_toUrlSafe (digit : Fin 64) :
    ofUrlSafe (toUrlSafe (Base64.char digit)) = Base64.char digit := by
  revert digit
  decide +kernel

private theorem toUrlSafe_eq_pad (digit : Fin 64) : toUrlSafe (Base64.char digit) ≠ '=' := by
  revert digit
  decide +kernel

private theorem toUrlSafe_ne_dot (digit : Fin 64) : toUrlSafe (Base64.char digit) ≠ '.' := by
  revert digit
  decide +kernel

/-- Encoded bytes are their Base64 digits in the URL-safe alphabet. -/
theorem toList_encodeBytes (bytes : List UInt8) :
    (encodeBytes bytes).toList = ((Base64.sextets bytes).map Base64.char).map toUrlSafe := by
  have hpad : ∀ k, (((Base64.sextets bytes).map Base64.char).map toUrlSafe ++
      List.replicate k '=').rdropWhile (· == '=') =
        ((Base64.sextets bytes).map Base64.char).map toUrlSafe := by
    intro k
    induction k with
    | zero =>
      rw [List.replicate_zero, List.append_nil, List.rdropWhile_eq_self_iff]
      intro hne hlast
      obtain ⟨c, hc, heq⟩ := List.mem_map.mp (List.getLast_mem hne)
      obtain ⟨digit, -, rfl⟩ := List.mem_map.mp hc
      exact toUrlSafe_eq_pad digit (by simpa [heq] using hlast)
    | succ k ih =>
      rw [List.replicate_succ', ← List.append_assoc, List.rdropWhile_concat_pos _ _ _ (by decide)]
      exact ih
  simp only [encodeBytes, String.toList_ofList, Base64.btoa, List.map_append, List.map_replicate]
  exact hpad _

@[simp] theorem decodeBytes_encodeBytes (bytes : List UInt8) :
    decodeBytes (encodeBytes bytes) = some bytes := by
  have hdigits : (((Base64.sextets bytes).map Base64.char).map toUrlSafe).map ofUrlSafe =
      (Base64.sextets bytes).map Base64.char := by
    simp [ofUrlSafe_toUrlSafe]
  rw [decodeBytes, toList_encodeBytes, hdigits, Base64.atob_padEnd]

theorem encodeBytes_injective : Function.Injective encodeBytes := by
  intro a b h
  have := congrArg decodeBytes h
  simpa using this

private theorem dot_notMem_encodeBytes (bytes : List UInt8) : '.' ∉ (encodeBytes bytes).toList := by
  rw [toList_encodeBytes]
  intro h
  obtain ⟨c, hc, heq⟩ := List.mem_map.mp h
  obtain ⟨digit, -, rfl⟩ := List.mem_map.mp hc
  exact toUrlSafe_ne_dot digit heq

private theorem splitAt_ne_nil (c : Char) (text : List Char) : splitAt c text ≠ [] := by
  cases text with
  | nil => simp [splitAt]
  | cons d rest =>
    rw [splitAt]
    split
    · simp
    · split <;> simp

private theorem splitAt_append {c : Char} {piece : List Char} (h : c ∉ piece) (rest : List Char) :
    splitAt c (piece ++ c :: rest) = piece :: splitAt c rest := by
  induction piece with
  | nil =>
    obtain ⟨first, pieces, heq⟩ := List.exists_cons_of_ne_nil (splitAt_ne_nil c rest)
    simp [splitAt, heq]
  | cons d piece ih =>
    obtain ⟨hd, hpiece⟩ := not_or.mp (mt List.mem_cons.mpr h)
    rw [List.cons_append, splitAt, ih hpiece]
    simp [Ne.symm hd]

private theorem splitAt_of_notMem {c : Char} {piece : List Char} (h : c ∉ piece) :
    splitAt c piece = [piece] := by
  induction piece with
  | nil => rfl
  | cons d piece ih =>
    obtain ⟨hd, hpiece⟩ := not_or.mp (mt List.mem_cons.mpr h)
    rw [splitAt, ih hpiece]
    simp [Ne.symm hd]

private theorem foldl_difference (pairs : List (ℕ × ℕ)) (difference : ℕ) :
    pairs.foldl (fun difference units => difference ||| (units.1 ^^^ units.2)) difference = 0 ↔
      difference = 0 ∧ ∀ pair ∈ pairs, pair.1 = pair.2 := by
  induction pairs generalizing difference with
  | nil => simp
  | cons pair pairs ih =>
    rw [List.foldl_cons, ih, Nat.or_eq_zero_iff, Nat.xor_eq_zero_iff, List.forall_mem_cons, and_assoc]

/-- The comparison without an early end is equality. -/
theorem foldl_difference_iff (left right : List ℕ) :
    (left.length == right.length && ((left.zip right).foldl
      (fun difference units => difference ||| (units.1 ^^^ units.2)) 0) == 0) = true ↔ left = right := by
  simp only [Bool.and_eq_true, beq_iff_eq, foldl_difference, true_and]
  constructor
  · rintro ⟨hlength, hpairs⟩
    refine List.ext_getElem hlength fun i hi hi' => ?_
    exact hpairs (_, _) (List.mem_iff_getElem.mpr
      ⟨i, by simpa using ⟨hi, hi'⟩, List.getElem_zip⟩)
  · rintro rfl
    refine ⟨rfl, fun pair hpair => ?_⟩
    obtain ⟨i, hi, heq⟩ := List.mem_iff_getElem.mp hpair
    rw [← heq, List.getElem_zip]

/-- `secureEqual` is equality. -/
theorem secureEqual_iff (left right : String) : secureEqual left right = true ↔ left = right := by
  rw [secureEqual, foldl_difference_iff]
  constructor
  · intro h
    exact String.toList_injective (Utf16.units_injective h)
  · rintro rfl
    rfl

/-- Reading a cookie gives the hashes it was written from. -/
@[simp] theorem parseHashes_stringifyHashes (hashes : List String) :
    parseHashes (stringifyHashes hashes) = hashes := by
  simp [parseHashes, stringifyHashes, JsonStrings.parse_stringify]

section

variable {derivePassword : String → List UInt8 → List UInt8}

private theorem splitAt_passwordHashOf (password : String) (salt : List UInt8) :
    splitAt '.' (passwordHashOf derivePassword password salt).toList =
      ["v1".toList, (encodeBytes salt).toList,
        (encodeBytes (derivePassword password salt)).toList] := by
  have htext : (passwordHashOf derivePassword password salt).toList = "v1".toList ++ '.' ::
      ((encodeBytes salt).toList ++ '.' :: (encodeBytes (derivePassword password salt)).toList) := by
    simp [passwordHashOf, String.toList_append]
  rw [htext, splitAt_append (by decide), splitAt_append (dot_notMem_encodeBytes _),
    splitAt_of_notMem (dot_notMem_encodeBytes _)]

/-- A hash determines its salt. -/
theorem passwordHashOf_salt {password password' : String} {salt salt' : List UInt8}
    (h : passwordHashOf derivePassword password salt =
      passwordHashOf derivePassword password' salt') : salt = salt' := by
  have hsplit := congrArg (fun hash => splitAt '.' hash.toList) h
  simp only [splitAt_passwordHashOf, List.cons.injEq, String.toList_inj] at hsplit
  exact encodeBytes_injective hsplit.2.1

/-- A password verifies against a hash exactly when it derives the same key under its salt. -/
theorem verifyPassword_passwordHashOf {password password' : String} {salt : List UInt8}
    (hsalt : salt ≠ []) (hkey : derivePassword password' salt ≠ []) :
    verifyPassword derivePassword password (passwordHashOf derivePassword password' salt) = true ↔
      derivePassword password salt = derivePassword password' salt := by
  have hne : ∀ bytes, bytes ≠ [] → (encodeBytes bytes).toList ≠ [] := by
    intro bytes hbytes h
    refine hbytes (encodeBytes_injective (String.toList_injective ?_))
    rw [h]
    rfl
  rw [verifyPassword, splitAt_passwordHashOf]
  simp only [ne_eq, not_true_eq_false, hne _ hsalt, hne _ hkey, or_self, if_false,
    String.ofList_toList, decodeBytes_encodeBytes, secureEqual_iff]
  exact encodeBytes_injective.eq_iff

end

end Blip.Server
