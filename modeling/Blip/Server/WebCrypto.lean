import Blip.Common.TextCoding
import Blip.Server.Password

/-!
# The vault and the passwords, down to the platform's cryptography

AES-GCM and PBKDF2 are parameters, and each of their calls can throw. A text is here what the
platform holds, a list of UTF-16 code units, with or without a partner for each surrogate;
`verifyPassword_units` relates this level to the texts of the handlers.
-/

namespace Blip.Server.WebCrypto

/-- The code units of a text. -/
def units (text : String) : List ℕ := Utf16.units text.toList

/-- The code unit of a full stop. -/
def dot : ℕ := 0x2E

/-! ## Bytes in a text -/

/-- `encodeBytes`. -/
def encodeBytes (bytes : List UInt8) : List ℕ := units (Server.encodeBytes bytes)

/-- `decodeBytes`, which throws on a text that is not Base64, and so on any unit beyond ASCII. -/
def decodeBytes (value : List ℕ) : Option (List UInt8) :=
  if value.all (· < 0x80) then Server.decodeBytes (String.ofList (value.map Char.ofNat)) else none

/-- `base64UrlEncode` of the vault. -/
def base64UrlEncode (bytes : List UInt8) : List ℕ := encodeBytes bytes

/-- `base64UrlDecode` of the vault. -/
def base64UrlDecode (value : List ℕ) : Option (List UInt8) := decodeBytes value

/-! ## Passwords -/

def secureEqual (left right : List ℕ) : Bool :=
  left.length == right.length &&
    ((left.zip right).foldl (fun difference units => difference ||| (units.1 ^^^ units.2)) 0) == 0

section

variable (pbkdf2 : List UInt8 → List UInt8 → Option (List UInt8))

/-- `derivePassword`: the bits derived from the bytes of a password. -/
def derivePassword (password : List ℕ) (salt : List UInt8) : Option (List UInt8) :=
  pbkdf2 (TextCoding.encode password) salt

/-- `hashPassword`, with the salt drawn. -/
def hashPassword (salt : List UInt8) (password : List ℕ) : Option (List ℕ) := do
  let bits ← derivePassword pbkdf2 password salt
  pure (units "v1." ++ encodeBytes salt ++ units "." ++ encodeBytes bits)

/-- `verifyPassword`: its body, in which decoding and deriving can throw, and the `catch`. -/
def verifyPassword (password encoded : List ℕ) : Option Bool :=
  (match encoded.splitOn dot with
  -- fields after the third are ignored
  | version :: salt :: expected :: _ =>
    if version ≠ units "v1" ∨ salt = [] ∨ expected = [] then some false
    else do
      let salt ← decodeBytes salt
      let bits ← derivePassword pbkdf2 password salt
      some (secureEqual (encodeBytes bits) expected)
  | _ => some false) <|> some false

end

/-! ## The vault -/

/-- AES-GCM: by key and nonce. -/
structure AesGcm where
  encrypt : List UInt8 → List UInt8 → List UInt8 → Option (List UInt8)
  decrypt : List UInt8 → List UInt8 → List UInt8 → Option (List UInt8)

/-- A vault holds a key of 32 bytes. -/
structure Vault where
  aes : AesGcm
  key : List UInt8
  length_key : key.length = 32

/-- `layer`: the vault for an encoded key. -/
def Vault.layer (aes : AesGcm) (encodedKey : List ℕ) : Option Vault :=
  match base64UrlDecode encodedKey with
  | none => none
  | some keyBytes => if h : keyBytes.length = 32 then some ⟨aes, keyBytes, h⟩ else none

/-- `encryptString`, with the nonce drawn. -/
def Vault.encryptString (vault : Vault) (iv : List UInt8) (value : List ℕ) : Option (List ℕ) := do
  let encrypted ← vault.aes.encrypt vault.key iv (TextCoding.encode value)
  pure (units "v1." ++ base64UrlEncode iv ++ units "." ++ base64UrlEncode encrypted)

/-- `decryptString`. -/
def Vault.decryptString (vault : Vault) (value : List ℕ) : Option (List ℕ) :=
  match value.splitOn dot with
  | version :: encodedIv :: encodedPayload :: _ =>
    if version ≠ units "v1" ∨ encodedIv = [] ∨ encodedPayload = [] then none
    else do
      let iv ← base64UrlDecode encodedIv
      let payload ← base64UrlDecode encodedPayload
      let decrypted ← vault.aes.decrypt vault.key iv payload
      pure (TextCoding.decode decrypted)
  | _ => none

/-- `JSON.stringify` of a storage configuration. -/
def stringifyConfig (config : StorageConfig) : String :=
  let field := fun (key value : String) =>
    JsonStrings.stringifyString key.toList ++ ':' :: JsonStrings.stringifyString value.toList
  String.ofList ('{' :: [','].intercalate
    [field "endpoint" config.endpoint,
      field "region" config.region,
      field "bucket" config.bucket,
      field "accessKeyId" config.accessKeyId,
      field "secretAccessKey" config.secretAccessKey,
      JsonStrings.stringifyString "forcePathStyle".toList ++
        ':' :: (toString config.forcePathStyle).toList] ++ ['}'])

/-- The texts the server encrypts: the hashes of a cookie, and storage configurations. -/
inductive EncryptedText : String → Prop
  | hashes (hashes : List String) : EncryptedText (stringifyHashes hashes)
  | config (config : StorageConfig) : EncryptedText (stringifyConfig config)

/-- The nonce and the payload an encrypted text names. -/
def decodedFields (value : List ℕ) : Option (List UInt8 × List UInt8) :=
  match value.splitOn dot with
  | _ :: encodedIv :: encodedPayload :: _ => do
    let iv ← base64UrlDecode encodedIv
    let payload ← base64UrlDecode encodedPayload
    pure (iv, payload)
  | _ => none

/-- What authenticated encryption promises once some texts are encrypted, each with a nonce: a
payload carries a tag, decrypts to what it was encrypted from, and no other one decrypts. -/
structure Vault.Authenticated (vault : Vault) (encrypted : Set (List UInt8 × List ℕ)) : Prop where
  tag : ∀ {iv bytes payload}, vault.aes.encrypt vault.key iv bytes = some payload →
    payload.length = bytes.length + 16
  decrypt : ∀ {iv text payload}, (iv, text) ∈ encrypted →
    vault.aes.encrypt vault.key iv (TextCoding.encode text) = some payload →
    vault.aes.decrypt vault.key iv payload = some (TextCoding.encode text)
  authentic : ∀ {iv payload bytes}, vault.aes.decrypt vault.key iv payload = some bytes →
    ∃ text, (iv, text) ∈ encrypted ∧
      vault.aes.encrypt vault.key iv (TextCoding.encode text) = some payload

/-! ## Encodings read back -/

/-- The code unit of a digit in the URL-safe alphabet. -/
def digitUnit (digit : Fin 64) : ℕ := (toUrlSafe (Base64.char digit)).toNat

private theorem digitUnit_spec (digit : Fin 64) :
    digitUnit digit < 0x80 ∧ digitUnit digit ≠ dot ∧ digitUnit digit ∉ units "+/=" := by
  revert digit
  decide +kernel

private theorem units_of_ascii {text : List Char} (h : ∀ c ∈ text, c.toNat < 0x80) :
    Utf16.units text = text.map Char.toNat := by
  induction text with
  | nil => rfl
  | cons c text ih =>
    obtain ⟨hc, htext⟩ := List.forall_mem_cons.mp h
    rw [Utf16.units_cons, ih htext, Utf16.charUnits, if_pos (by omega)]
    rfl

theorem encodeBytes_eq (bytes : List UInt8) :
    encodeBytes bytes = (Base64.sextets bytes).map digitUnit := by
  rw [encodeBytes, units, Server.toList_encodeBytes, units_of_ascii]
  · simp only [List.map_map]
    rfl
  · intro c hc
    simp only [List.map_map, List.mem_map] at hc
    obtain ⟨digit, -, rfl⟩ := hc
    exact (digitUnit_spec digit).1

/-- Encoded bytes have no padding and no digit of the standard alphabet alone. -/
theorem notMem_encodeBytes (bytes : List UInt8) : ∀ unit ∈ encodeBytes bytes, unit ∉ units "+/=" := by
  intro unit hunit
  rw [encodeBytes_eq] at hunit
  obtain ⟨digit, -, rfl⟩ := List.mem_map.mp hunit
  exact (digitUnit_spec digit).2.2

theorem length_encodeBytes (bytes : List UInt8) :
    (encodeBytes bytes).length = (bytes.length * 4 + 2) / 3 := by
  rw [encodeBytes_eq, List.length_map, Base64.length_sextets]

private theorem dot_notMem_units (bytes : List UInt8) : dot ∉ encodeBytes bytes := by
  rw [encodeBytes_eq]
  intro h
  obtain ⟨digit, -, heq⟩ := List.mem_map.mp h
  exact (digitUnit_spec digit).2.1 heq

private theorem exists_charUnits {c : Char} (h : 0x80 ≤ c.toNat) :
    ∃ unit ∈ Utf16.charUnits c, 0x80 ≤ unit := by
  unfold Utf16.charUnits
  split
  · exact ⟨_, List.mem_singleton_self _, h⟩
  · exact ⟨_, List.mem_cons_self, by omega⟩

/-- Decoding the code units of a text is decoding the text. -/
theorem decodeBytes_units (text : String) : decodeBytes (units text) = Server.decodeBytes text := by
  rw [decodeBytes, units]
  by_cases hascii : ∀ c ∈ text.toList, c.toNat < 0x80
  · have hback : (text.toList.map Char.toNat).map Char.ofNat = text.toList := by
      rw [List.map_map]
      exact List.map_id'' (fun c => Char.ofNat_toNat c) text.toList
    rw [units_of_ascii hascii, hback, String.ofList_toList, if_pos]
    simpa using hascii
  · push Not at hascii
    obtain ⟨c, hc, hbig⟩ := hascii
    obtain ⟨unit, hunit, hlarge⟩ := exists_charUnits hbig
    -- a character beyond ASCII has such a unit, and is in no alphabet of Base64
    have hall : ¬ (Utf16.units text.toList).all (· < 0x80) := by
      rw [List.all_eq_true]
      intro hall
      have := hall unit (List.mem_flatMap.mpr ⟨c, hc, hunit⟩)
      simp only [decide_eq_true_eq] at this
      omega
    rw [if_neg hall, Server.decodeBytes]
    have hsame : ofUrlSafe c = c := by
      have hne : ∀ d : Char, d.toNat < 0x80 → c ≠ d := by
        rintro d hd rfl
        omega
      rw [ofUrlSafe, if_neg (hne '-' (by decide)), if_neg (hne '_' (by decide))]
    refine (Base64.atob_eq_none (List.mem_append_left _ (List.mem_map.mpr ⟨c, hc, hsame⟩)) hbig).symm

@[simp] theorem decodeBytes_encodeBytes (bytes : List UInt8) :
    decodeBytes (encodeBytes bytes) = some bytes := by
  rw [encodeBytes, decodeBytes_units, Server.decodeBytes_encodeBytes]

theorem encodeBytes_injective : Function.Injective encodeBytes := by
  intro a b h
  have := congrArg decodeBytes h
  simpa using this

theorem encodeBytes_ne_nil {bytes : List UInt8} (h : bytes ≠ []) : encodeBytes bytes ≠ [] := by
  intro hnil
  exact h (encodeBytes_injective hnil)

/-- `secureEqual` is equality, of any code units. -/
theorem secureEqual_iff (left right : List ℕ) : secureEqual left right = true ↔ left = right :=
  foldl_difference_iff left right

/-- The three fields of a dotted text. -/
theorem splitOn_fields (first second : List UInt8) :
    (units "v1." ++ encodeBytes first ++ units "." ++ encodeBytes second).splitOn dot =
      [units "v1", encodeBytes first, encodeBytes second] := by
  have htext : units "v1." ++ encodeBytes first ++ units "." ++ encodeBytes second =
      units "v1" ++ dot :: (encodeBytes first ++ dot :: encodeBytes second) := by
    have hversion : units "v1." = units "v1" ++ [dot] := by decide
    have hdot : units "." = [dot] := by decide
    simp [hversion, hdot]
  rw [htext, List.splitOn_append_cons_self_of_not_mem (by decide),
    List.splitOn_append_cons_self_of_not_mem (dot_notMem_units _),
    List.splitOn_eq_singleton (dot_notMem_units _)]

/-- The server starts with an encoded key exactly when that has 32 bytes. -/
theorem Vault.layer_encodeBytes (aes : AesGcm) (key : List UInt8) :
    (Vault.layer aes (encodeBytes key)).isSome ↔ key.length = 32 := by
  rw [Vault.layer, base64UrlDecode, decodeBytes_encodeBytes]
  by_cases hkey : key.length = 32
  · simp [hkey]
  · simp [hkey]

/-! ## Passwords verified -/

section

variable {pbkdf2 : List UInt8 → List UInt8 → Option (List UInt8)} {password password' encoded : List ℕ}
  {salt : List UInt8}

/-- Nothing that a hash can hold is thrown out of `verifyPassword`. -/
theorem verifyPassword_ne_none (password encoded : List ℕ) :
    verifyPassword pbkdf2 password encoded ≠ none := by
  have hcatch : ∀ body : Option Bool, (body <|> some false) ≠ none := by
    intro body
    cases body <;> exact Option.some_ne_none _
  exact hcatch _

theorem hashPassword_eq_some (h : hashPassword pbkdf2 salt password = some encoded) :
    ∃ bits, derivePassword pbkdf2 password salt = some bits ∧
      encoded = units "v1." ++ encodeBytes salt ++ units "." ++ encodeBytes bits := by
  obtain ⟨bits, hbits, hencoded⟩ := Option.bind_eq_some_iff.mp h
  exact ⟨bits, hbits, (Option.some.inj hencoded).symm⟩

/-- A password verifies against a hash exactly when it derives the bits the hash was made from. -/
theorem verifyPassword_hashPassword (hsalt : salt ≠ [])
    (hbits : ∀ bits, derivePassword pbkdf2 password' salt = some bits → bits ≠ [])
    (h : hashPassword pbkdf2 salt password' = some encoded) :
    verifyPassword pbkdf2 password encoded =
      some (decide (derivePassword pbkdf2 password salt = derivePassword pbkdf2 password' salt)) := by
  obtain ⟨bits', hbits', rfl⟩ := hashPassword_eq_some h
  have hne := encodeBytes_ne_nil (hbits bits' hbits')
  rw [verifyPassword, splitOn_fields, hbits']
  simp only [ne_eq, not_true_eq_false, encodeBytes_ne_nil hsalt, hne, or_self, if_false,
    decodeBytes_encodeBytes]
  cases hderive : derivePassword pbkdf2 password salt with
  | none => simp [hderive]
  | some bits =>
    have hequal : secureEqual (encodeBytes bits) (encodeBytes bits') = decide (bits = bits') := by
      rw [Bool.eq_iff_iff, secureEqual_iff, decide_eq_true_iff, encodeBytes_injective.eq_iff]
    simp [hderive, hequal]

end

/-! ## The handlers' texts -/

private theorem splitOn_append_of_notMem {a : ℕ} {piece : List ℕ} (h : a ∉ piece) (rest : List ℕ) :
    (piece ++ rest).splitOn a = (rest.splitOn a).modifyHead (piece ++ ·) := by
  induction piece with
  | nil =>
    obtain ⟨first, pieces, heq⟩ := List.exists_cons_of_ne_nil (List.splitOn_ne_nil a rest)
    simp [heq]
  | cons b piece ih =>
    obtain ⟨hb, hpiece⟩ := not_or.mp (mt List.mem_cons.mpr h)
    have hbeq : (b == a) = false := beq_eq_false_iff_ne.mpr (Ne.symm hb)
    rw [List.cons_append, List.splitOn_cons_eq_if_modifyHead, hbeq, ih hpiece, if_neg Bool.false_ne_true,
      List.modifyHead_modifyHead]
    rfl

private theorem dot_notMem_charUnits {c : Char} (h : c ≠ '.') : dot ∉ Utf16.charUnits c := by
  have hvalue : c.toNat ≠ dot := fun hc => h (Char.toNat_inj.mp hc)
  unfold Utf16.charUnits dot at *
  split
  · simpa using hvalue.symm
  · simp only [List.mem_cons, List.not_mem_nil, or_false]
    omega

/-- Splitting the code units of a text is splitting the text. -/
theorem splitOn_units (text : List Char) :
    (Utf16.units text).splitOn dot = (splitAt '.' text).map Utf16.units := by
  induction text with
  | nil => rfl
  | cons c text ih =>
    rw [Utf16.units_cons, splitAt]
    cases hpieces : splitAt '.' text with
    | nil => exact absurd (hpieces ▸ ih) (List.splitOn_ne_nil dot _)
    | cons piece pieces =>
      rw [hpieces] at ih
      by_cases hc : c = '.'
      · subst hc
        have hunits : Utf16.charUnits '.' = [dot] := by decide
        rw [hunits, List.singleton_append, List.splitOn_cons_eq_if_modifyHead, ih]
        simp
      · rw [splitOn_append_of_notMem (dot_notMem_charUnits hc), ih]
        simp [hc]

/-- Without throws this is the `verifyPassword` of the handlers. -/
theorem verifyPassword_units {pbkdf2 : List UInt8 → List UInt8 → Option (List UInt8)}
    {derive : String → List UInt8 → List UInt8}
    (hderive : ∀ password salt, derivePassword pbkdf2 (units password) salt =
      some (derive password salt))
    (password encoded : String) :
    verifyPassword pbkdf2 (units password) (units encoded) =
      some (Server.verifyPassword derive password encoded) := by
  have hunits : ∀ text, Utf16.units text = units (String.ofList text) := by
    intro text
    rw [units, String.toList_ofList]
  have hnil : ∀ text, Utf16.units text = [] ↔ text = [] := by
    intro text
    exact Utf16.units_injective.eq_iff' rfl
  have hversion : ∀ text, Utf16.units text = units "v1" ↔ text = "v1".toList := by
    intro text
    exact Utf16.units_injective.eq_iff
  rw [verifyPassword, Server.verifyPassword]
  conv_lhs => rw [units.eq_1 encoded, splitOn_units]
  -- fewer than three fields are no password on either level
  rcases splitAt '.' encoded.toList with _ | ⟨version, _ | ⟨salt, _ | ⟨expected, rest⟩⟩⟩
  · rfl
  · rfl
  · rfl
  simp only [List.map_cons, ne_eq, hnil, hversion]
  split_ifs
  · rfl
  rw [hunits salt, decodeBytes_units]
  cases Server.decodeBytes (String.ofList salt) with
  | none => rfl
  | some salt =>
    simp only [Option.bind_eq_bind, Option.bind_some, hderive, hunits expected]
    rfl

/-! ## The vault's texts -/

theorem EncryptedText.head?_ne {text : String} (h : EncryptedText text) :
    text.toList.head? ≠ some TextCoding.byteOrderMark := by
  cases h with
  | hashes hashes =>
    rw [stringifyHashes, String.toList_ofList]
    exact fun h => absurd (Option.some.inj h) (by decide)
  | config config =>
    rw [stringifyConfig, String.toList_ofList]
    exact fun h => absurd (Option.some.inj h) (by decide)

section

variable {vault : Vault} {encrypted : Set (List UInt8 × List ℕ)} {iv : List UInt8} {value text : List ℕ}

theorem Vault.encryptString_eq_some (h : vault.encryptString iv text = some value) :
    ∃ payload, vault.aes.encrypt vault.key iv (TextCoding.encode text) = some payload ∧
      value = units "v1." ++ encodeBytes iv ++ units "." ++ encodeBytes payload := by
  obtain ⟨payload, hpayload, hvalue⟩ := Option.bind_eq_some_iff.mp h
  exact ⟨payload, hpayload, (Option.some.inj hvalue).symm⟩

/-- An encrypted text names its nonce and its payload. -/
theorem Vault.decodedFields_encryptString (h : vault.encryptString iv text = some value) :
    ∃ payload, vault.aes.encrypt vault.key iv (TextCoding.encode text) = some payload ∧
      decodedFields value = some (iv, payload) := by
  obtain ⟨payload, hpayload, rfl⟩ := vault.encryptString_eq_some h
  refine ⟨payload, hpayload, ?_⟩
  rw [decodedFields, splitOn_fields]
  simp only [base64UrlDecode, decodeBytes_encodeBytes]
  rfl

/-- What decrypts names a nonce and a payload that do. -/
theorem Vault.decryptString_eq_some (h : vault.decryptString value = some text) :
    ∃ iv payload bytes, decodedFields value = some (iv, payload) ∧
      vault.aes.decrypt vault.key iv payload = some bytes ∧ text = TextCoding.decode bytes := by
  unfold Vault.decryptString at h
  unfold decodedFields
  split at h
  case h_1 version encodedIv encodedPayload rest heq =>
    split at h
    · cases h
    · obtain ⟨iv, hiv, h⟩ := Option.bind_eq_some_iff.mp h
      obtain ⟨payload, hpayload, h⟩ := Option.bind_eq_some_iff.mp h
      obtain ⟨bytes, hbytes, h⟩ := Option.bind_eq_some_iff.mp h
      refine ⟨iv, payload, bytes, ?_, hbytes, (Option.some.inj h).symm⟩
      simp only [hiv, hpayload]
      rfl
  case h_2 => cases h

/-- `decryptString` inverts `encryptString`, on texts that do not begin with a byte order mark. -/
theorem Vault.decryptString_encryptString (hauth : vault.Authenticated encrypted) {text : String}
    (hmem : (iv, units text) ∈ encrypted) (hiv : iv ≠ [])
    (htext : text.toList.head? ≠ some TextCoding.byteOrderMark)
    (h : vault.encryptString iv (units text) = some value) :
    vault.decryptString value = some (units text) := by
  obtain ⟨payload, hpayload, rfl⟩ := vault.encryptString_eq_some h
  have hne : payload ≠ [] := by
    rintro rfl
    have := hauth.tag hpayload
    simp only [List.length_nil] at this
    omega
  rw [Vault.decryptString, splitOn_fields]
  simp only [ne_eq, not_true_eq_false, encodeBytes_ne_nil hiv, encodeBytes_ne_nil hne, or_self, if_false,
    base64UrlDecode, decodeBytes_encodeBytes, Option.bind_eq_bind, Option.bind_some,
    hauth.decrypt hmem hpayload]
  exact congrArg some (TextCoding.decode_encode htext)

/-- What decrypts has the nonce and the payload of an encrypted text. -/
theorem Vault.Authenticated.exists_encrypted (hauth : vault.Authenticated encrypted)
    (h : vault.decryptString value = some text) :
    ∃ iv sent value', (iv, sent) ∈ encrypted ∧ vault.encryptString iv sent = some value' ∧
      decodedFields value = decodedFields value' := by
  obtain ⟨iv, payload, bytes, hfields, hdecrypt, -⟩ := vault.decryptString_eq_some h
  obtain ⟨sent, hmem, hencrypt⟩ := hauth.authentic hdecrypt
  have hsent : vault.encryptString iv sent =
      some (units "v1." ++ base64UrlEncode iv ++ units "." ++ base64UrlEncode payload) := by
    rw [Vault.encryptString, hencrypt]
    rfl
  obtain ⟨payload', hencrypt', hfields'⟩ := vault.decodedFields_encryptString hsent
  obtain rfl : payload = payload' := Option.some.inj (hencrypt.symm.trans hencrypt')
  exact ⟨iv, sent, _, hmem, hsent, hfields.trans hfields'.symm⟩

end

/-- Encodings are read back, texts of the vault too and no others, and a hash tells passwords apart
that derive different bits, without throwing on any text. -/
theorem encodings_invert {pbkdf2 : List UInt8 → List UInt8 → Option (List UInt8)} {vault : Vault}
    {encrypted : Set (List UInt8 × List ℕ)}
    (hbits : ∀ password salt bits, pbkdf2 password salt = some bits → bits.length = 32)
    (hiv : ∀ iv text, (iv, text) ∈ encrypted → iv.length = 12)
    (hauth : vault.Authenticated encrypted) :
    (∀ bytes, decodeBytes (encodeBytes bytes) = some bytes ∧
      base64UrlDecode (base64UrlEncode bytes) = some bytes ∧
      (encodeBytes bytes).length = (bytes.length * 4 + 2) / 3 ∧
      ∀ unit ∈ encodeBytes bytes, unit ∉ units "+/=") ∧
    (∀ iv text value, (iv, units text) ∈ encrypted →
      text.toList.head? ≠ some TextCoding.byteOrderMark →
      vault.encryptString iv (units text) = some value → vault.decryptString value = some (units text)) ∧
    (∀ text, EncryptedText text → text.toList.head? ≠ some TextCoding.byteOrderMark) ∧
    (∀ value, (∀ iv text value', (iv, text) ∈ encrypted → vault.encryptString iv text = some value' →
      decodedFields value ≠ decodedFields value') → vault.decryptString value = none) ∧
    (∀ left right, secureEqual left right = true ↔ left = right) ∧
    (∀ password salt encoded, salt.length = 16 → hashPassword pbkdf2 salt password = some encoded →
      verifyPassword pbkdf2 password encoded = some true) ∧
    (∀ password password' salt encoded, salt.length = 16 →
      hashPassword pbkdf2 salt password' = some encoded →
      derivePassword pbkdf2 password salt ≠ derivePassword pbkdf2 password' salt →
      verifyPassword pbkdf2 password encoded = some false) ∧
    ∀ password encoded, verifyPassword pbkdf2 password encoded ≠ none := by
  have hderived : ∀ password salt bits, derivePassword pbkdf2 password salt = some bits → bits ≠ [] := by
    rintro password salt bits h rfl
    exact absurd (hbits _ _ _ h) (by decide)
  have hnonempty : ∀ {n} {bytes : List UInt8}, bytes.length = n + 1 → bytes ≠ [] := by
    rintro n bytes h rfl
    cases h
  refine ⟨fun bytes => ⟨decodeBytes_encodeBytes bytes, decodeBytes_encodeBytes bytes,
    length_encodeBytes bytes, notMem_encodeBytes bytes⟩, ?_, fun text h => h.head?_ne, ?_,
    secureEqual_iff, ?_, ?_, verifyPassword_ne_none⟩
  · intro iv text value hmem htext h
    exact vault.decryptString_encryptString hauth hmem (hnonempty (hiv iv _ hmem)) htext h
  · intro value hother
    by_contra hsome
    obtain ⟨text, h⟩ := Option.ne_none_iff_exists'.mp hsome
    obtain ⟨iv, sent, value', hmem, hsent, hfields⟩ := hauth.exists_encrypted h
    exact hother iv sent value' hmem hsent hfields
  · intro password salt encoded hsalt h
    rw [verifyPassword_hashPassword (hnonempty hsalt) (hderived password salt) h]
    simp
  · intro password password' salt encoded hsalt h hne
    rw [verifyPassword_hashPassword (hnonempty hsalt) (hderived password' salt) h, decide_eq_false hne]

/-- A vault with a key of zeros, and its cipher on the empty array under a nonce of zeros. -/
def emptyCookieVault : Vault where
  aes :=
    { encrypt := fun key iv bytes =>
        if key = List.replicate 32 0 ∧ iv = List.replicate 12 0 ∧ bytes = [91, 93] then
          some [149, 250, 16, 216, 7, 91, 11, 184, 186, 110, 94, 187, 70, 78, 246, 200, 131, 188]
        else none
      decrypt := fun key iv payload =>
        if key = List.replicate 32 0 ∧ iv = List.replicate 12 0 ∧
            payload =
              [149, 250, 16, 216, 7, 91, 11, 184, 186, 110, 94, 187, 70, 78, 246, 200, 131, 188] then
          some [91, 93]
        else none }
  key := List.replicate 32 0
  length_key := rfl

/-- The bits the password `a` derives under a salt of zeros. -/
def bitsOfA (password salt : List UInt8) : Option (List UInt8) :=
  if password = [97] ∧ salt = List.replicate 16 0 then
    some [20, 25, 219, 84, 144, 113, 132, 250, 195, 127, 158, 28, 251, 120, 176, 225, 37, 9, 251, 73,
      201, 10, 176, 231, 238, 107, 237, 19, 1, 45, 117, 107]
  else none

private theorem encrypt_emptyCookieVault {iv bytes payload : List UInt8} :
    emptyCookieVault.aes.encrypt emptyCookieVault.key iv bytes = some payload ↔
      (iv = List.replicate 12 0 ∧ bytes = [91, 93]) ∧
        [149, 250, 16, 216, 7, 91, 11, 184, 186, 110, 94, 187, 70, 78, 246, 200, 131, 188] =
          payload := by
  simp [emptyCookieVault]

private theorem decrypt_emptyCookieVault {iv payload bytes : List UInt8} :
    emptyCookieVault.aes.decrypt emptyCookieVault.key iv payload = some bytes ↔
      (iv = List.replicate 12 0 ∧
        payload = [149, 250, 16, 216, 7, 91, 11, 184, 186, 110, 94, 187, 70, 78, 246, 200, 131, 188]) ∧
          [91, 93] = bytes := by
  simp [emptyCookieVault]

theorem encodings_invert_empty_cookie :
    emptyCookieVault.decryptString (units "v1.AAAAAAAAAAAAAAAA.lfoQ2AdbC7i6bl67Rk72yIO8") =
        some (units "[]") ∧
      emptyCookieVault.decryptString (units "v1.AAAAAAAAAAAAAAAA.lfoQ2AdbC7i6bl67Rk72yIO9") = none ∧
      ∃ encoded, hashPassword bitsOfA (List.replicate 16 0) (units "a") = some encoded ∧
        verifyPassword bitsOfA (units "a") encoded = some true ∧
        verifyPassword bitsOfA (units "b") encoded = some false := by
  have hbits : ∀ password salt bits, bitsOfA password salt = some bits → bits.length = 32 := by
    intro password salt bits h
    obtain ⟨-, h⟩ := Option.ite_none_right_eq_some.mp h
    rw [← Option.some.inj h]
    rfl
  have hauth : emptyCookieVault.Authenticated {(List.replicate 12 0, units "[]")} := by
    refine ⟨?_, ?_, ?_⟩
    · intro iv bytes payload h
      obtain ⟨⟨-, rfl⟩, rfl⟩ := encrypt_emptyCookieVault.mp h
      rfl
    · rintro iv text payload ⟨rfl, rfl⟩ h
      obtain ⟨-, rfl⟩ := encrypt_emptyCookieVault.mp h
      exact decrypt_emptyCookieVault.mpr ⟨⟨rfl, rfl⟩, rfl⟩
    · intro iv payload bytes h
      obtain ⟨⟨rfl, rfl⟩, -⟩ := decrypt_emptyCookieVault.mp h
      exact ⟨units "[]", rfl, encrypt_emptyCookieVault.mpr ⟨⟨rfl, rfl⟩, rfl⟩⟩
  obtain ⟨-, hinvert, htexts, hreject, -, hverify, hother, -⟩ := encodings_invert hbits
    (by rintro iv text ⟨rfl, rfl⟩; rfl) hauth
  refine ⟨?_, ?_, ?_⟩
  · refine hinvert (List.replicate 12 0) "[]" _ rfl (htexts _ (.hashes [])) ?_
    decide +kernel
  · refine hreject _ ?_
    rintro iv text value' ⟨rfl, rfl⟩ h
    obtain ⟨payload, hpayload, hfields⟩ := emptyCookieVault.decodedFields_encryptString h
    obtain ⟨-, rfl⟩ := encrypt_emptyCookieVault.mp hpayload
    rw [hfields]
    decide +kernel
  · obtain ⟨encoded, h⟩ : ∃ encoded,
        hashPassword bitsOfA (List.replicate 16 0) (units "a") = some encoded :=
      Option.isSome_iff_exists.mp (by decide +kernel)
    refine ⟨encoded, h, hverify _ _ _ rfl h, hother _ _ _ _ rfl h ?_⟩
    decide +kernel

end Blip.Server.WebCrypto
