import Blip.Common.Utf16

/-!
# Texts as bytes

The UTF-8 encoder and decoder of the platform. A text is a list of UTF-16 code units: encoding
replaces a surrogate that has no partner, decoding replaces bytes that are not UTF-8 and drops a
byte order mark at the front. `decode_encode` is the round trip for the other texts.
-/

namespace Blip.TextCoding

/-- `TextEncoder.encode`. -/
def encode (units : List ℕ) : List UInt8 := (Utf16.decode units).flatMap String.utf8EncodeChar

/-- A character of which some bytes are read: its bits so far, how many bytes are missing, and the
range of the next one. -/
structure Pending where
  codePoint : ℕ
  needed : ℕ
  lower : ℕ
  upper : ℕ
deriving DecidableEq, Repr

/-- What stands for bytes that are not UTF-8. -/
def replacement : Char := Char.ofNat 0xFFFD

/-- The byte order mark. -/
def byteOrderMark : Char := Char.ofNat 0xFEFF

/-- The characters complete after the first byte of one, and the character it begins. -/
def firstByte (byte : ℕ) : List Char × Option Pending :=
  if byte ≤ 0x7F then ([Char.ofNat byte], none)
  else if 0xC2 ≤ byte ∧ byte ≤ 0xDF then ([], some ⟨byte % 0x20, 1, 0x80, 0xBF⟩)
  else if 0xE0 ≤ byte ∧ byte ≤ 0xEF then
    ([], some ⟨byte % 0x10, 2, if byte = 0xE0 then 0xA0 else 0x80,
      if byte = 0xED then 0x9F else 0xBF⟩)
  else if 0xF0 ≤ byte ∧ byte ≤ 0xF4 then
    ([], some ⟨byte % 0x08, 3, if byte = 0xF0 then 0x90 else 0x80,
      if byte = 0xF4 then 0x8F else 0xBF⟩)
  else ([replacement], none)

/-- The characters complete after a byte, and the character it is part of. -/
def nextByte (pending : Option Pending) (byte : ℕ) : List Char × Option Pending :=
  match pending with
  | none => firstByte byte
  | some pending =>
    if byte < pending.lower ∨ pending.upper < byte then
      -- The byte ends the character unfinished and is read again as the first of another.
      (replacement :: (firstByte byte).1, (firstByte byte).2)
    else
      let codePoint := pending.codePoint * 0x40 + byte % 0x40
      if pending.needed = 1 then ([Char.ofNat codePoint], none)
      else ([], some ⟨codePoint, pending.needed - 1, 0x80, 0xBF⟩)

/-- The characters of some bytes that follow a part of a character. -/
def decodeBytes : Option Pending → List UInt8 → List Char
  | none, [] => []
  | some _, [] => [replacement]
  | pending, byte :: bytes =>
    (nextByte pending byte.toNat).1 ++ decodeBytes (nextByte pending byte.toNat).2 bytes

/-- `TextDecoder.decode`. -/
def decode (bytes : List UInt8) : List ℕ :=
  match decodeBytes none bytes with
  | [] => []
  | c :: text => if c = byteOrderMark then Utf16.units text else Utf16.units (c :: text)

theorem decodeBytes_cons (pending : Option Pending) (byte : UInt8) (bytes : List UInt8) :
    decodeBytes pending (byte :: bytes) =
      (nextByte pending byte.toNat).1 ++ decodeBytes (nextByte pending byte.toNat).2 bytes := by
  cases pending <;> rfl

/-! ## Decoding what was encoded -/

private theorem toNat_ofNat {n : ℕ} (h : n < 256) : (UInt8.ofNat n).toNat = n := by
  rw [UInt8.toNat_ofNat', Nat.mod_eq_of_lt h]

/-- A byte that completes a character. -/
private theorem nextByte_last {codePoint lower upper byte : ℕ} (hlower : lower ≤ byte)
    (hupper : byte ≤ upper) :
    nextByte (some ⟨codePoint, 1, lower, upper⟩) byte =
      ([Char.ofNat (codePoint * 0x40 + byte % 0x40)], none) := by
  simp only [nextByte]
  rw [if_neg (by omega)]
  simp

/-- A byte after which others are missing. -/
private theorem nextByte_inner {codePoint needed lower upper byte : ℕ} (hlower : lower ≤ byte)
    (hupper : byte ≤ upper) :
    nextByte (some ⟨codePoint, needed + 2, lower, upper⟩) byte =
      ([], some ⟨codePoint * 0x40 + byte % 0x40, needed + 1, 0x80, 0xBF⟩) := by
  simp only [nextByte]
  rw [if_neg (by omega), if_neg (by omega)]
  rfl

private theorem firstByte_two {byte : ℕ} (hlower : 0xC2 ≤ byte) (hupper : byte ≤ 0xDF) :
    firstByte byte = ([], some ⟨byte % 0x20, 1, 0x80, 0xBF⟩) := by
  rw [firstByte, if_neg (by omega), if_pos ⟨hlower, hupper⟩]

private theorem firstByte_three {byte : ℕ} (hlower : 0xE0 ≤ byte) (hupper : byte ≤ 0xEF) :
    firstByte byte = ([], some ⟨byte % 0x10, 2, if byte = 0xE0 then 0xA0 else 0x80,
      if byte = 0xED then 0x9F else 0xBF⟩) := by
  rw [firstByte, if_neg (by omega), if_neg (by omega), if_pos ⟨hlower, hupper⟩]

private theorem firstByte_four {byte : ℕ} (hlower : 0xF0 ≤ byte) (hupper : byte ≤ 0xF4) :
    firstByte byte = ([], some ⟨byte % 0x08, 3, if byte = 0xF0 then 0x90 else 0x80,
      if byte = 0xF4 then 0x8F else 0xBF⟩) := by
  rw [firstByte, if_neg (by omega), if_neg (by omega), if_neg (by omega), if_pos ⟨hlower, hupper⟩]

/-- Each of the four lengths an encoded character can have is read back. -/
theorem decodeBytes_utf8EncodeChar (c : Char) (rest : List UInt8) :
    decodeBytes none (String.utf8EncodeChar c ++ rest) = c :: decodeBytes none rest := by
  have hvalid : c.toNat < 0xD800 ∨ 0xDFFF < c.toNat ∧ c.toNat < 0x110000 := c.valid
  have hchar : ∀ n, n = c.toNat → Char.ofNat n = c := by
    rintro n rfl
    exact Char.ofNat_toNat c
  have hval : c.val.toNat = c.toNat := rfl
  simp only [String.utf8EncodeChar, hval]
  generalize c.toNat = n at hvalid hchar
  -- by the number of bytes: each but the first adds six bits to those read so far
  split_ifs with hone htwo hthree
  · have hbyte := @toNat_ofNat n (by omega)
    have hfirst : firstByte n = ([c], none) := by rw [firstByte, if_pos hone, hchar n rfl]
    simp only [List.cons_append, List.nil_append, decodeBytes_cons, hbyte, nextByte, hfirst]
  · have hlead := @toNat_ofNat (n / 64 % 0x20 + 0xC0) (by omega)
    have hlast := @toNat_ofNat (n % 0x40 + 0x80) (by omega)
    simp only [List.cons_append, List.nil_append, decodeBytes_cons, hlead, hlast]
    have hfirst := @firstByte_two (n / 64 % 0x20 + 0xC0) (by omega) (by omega)
    simp only [nextByte.eq_1, hfirst, List.nil_append]
    rw [nextByte_last (by omega) (by omega), hchar _ (by omega)]
    rfl
  · have hlead := @toNat_ofNat (n / 4096 % 0x10 + 0xE0) (by omega)
    have hmiddle := @toNat_ofNat (n / 64 % 0x40 + 0x80) (by omega)
    have hlast := @toNat_ofNat (n % 0x40 + 0x80) (by omega)
    have hfirst := @firstByte_three (n / 4096 % 0x10 + 0xE0) (by omega) (by omega)
    simp only [List.cons_append, List.nil_append, decodeBytes_cons, hlead, hmiddle, hlast, nextByte.eq_1,
      hfirst]
    rw [nextByte_inner (by split_ifs <;> omega) (by split_ifs <;> omega)]
    simp only [List.nil_append]
    rw [nextByte_last (by omega) (by omega), hchar _ (by omega)]
    rfl
  · have hlead := @toNat_ofNat (n / 262144 % 0x08 + 0xF0) (by omega)
    have hsecond := @toNat_ofNat (n / 4096 % 0x40 + 0x80) (by omega)
    have hthird := @toNat_ofNat (n / 64 % 0x40 + 0x80) (by omega)
    have hlast := @toNat_ofNat (n % 0x40 + 0x80) (by omega)
    have hfirst := @firstByte_four (n / 262144 % 0x08 + 0xF0) (by omega) (by omega)
    simp only [List.cons_append, List.nil_append, decodeBytes_cons, hlead, hsecond, hthird, hlast,
      nextByte.eq_1, hfirst]
    rw [nextByte_inner (by split_ifs <;> omega) (by split_ifs <;> omega)]
    simp only [List.nil_append]
    rw [nextByte_inner (by omega) (by omega)]
    simp only [List.nil_append]
    rw [nextByte_last (by omega) (by omega), hchar _ (by omega)]
    rfl

/-- The characters of an encoded text. -/
theorem decodeBytes_flatMap (text : List Char) :
    decodeBytes none (text.flatMap String.utf8EncodeChar) = text := by
  induction text with
  | nil => rfl
  | cons c text ih => rw [List.flatMap_cons, decodeBytes_utf8EncodeChar, ih]

/-- Decoding an encoded text gives the text back, unless it begins with a byte order mark. -/
theorem decode_encode {text : List Char} (h : text.head? ≠ some byteOrderMark) :
    decode (encode (Utf16.units text)) = Utf16.units text := by
  rw [decode, encode, Utf16.decode_units, decodeBytes_flatMap]
  cases text with
  | nil => rfl
  | cons c text => exact if_neg fun hc => h (congrArg some hc)

end Blip.TextCoding
