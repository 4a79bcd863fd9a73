import Mathlib.Data.List.Basic
import Mathlib.Tactic.NormNum

/-!
# UTF-16 code units

Strings as a language with 16-bit characters sees them. A character above `0xFFFF` is a surrogate
pair; a surrogate without its partner decodes to the replacement character.
-/

namespace Blip.Utf16

/-- The code units of one character. -/
def charUnits (c : Char) : List ℕ :=
  if c.toNat < 0x10000 then [c.toNat]
  else [0xD800 + (c.toNat - 0x10000) / 0x400, 0xDC00 + (c.toNat - 0x10000) % 0x400]

/-- The code units of a text. -/
def units (text : List Char) : List ℕ := text.flatMap charUnits

/-- A code unit that opens a surrogate pair. -/
def isHigh (unit : ℕ) : Bool := 0xD800 ≤ unit && unit < 0xDC00

/-- A code unit that closes a surrogate pair. -/
def isLow (unit : ℕ) : Bool := 0xDC00 ≤ unit && unit < 0xE000

/-- The character of a code unit on its own. -/
def unitChar (unit : ℕ) : Char :=
  if isHigh unit || isLow unit then Char.ofNat 0xFFFD else Char.ofNat unit

/-- The text of some code units. -/
def decode : List ℕ → List Char
  | [] => []
  | [unit] => [unitChar unit]
  | unit :: unit' :: rest =>
    if isHigh unit && isLow unit' then
      Char.ofNat (0x10000 + (unit - 0xD800) * 0x400 + (unit' - 0xDC00)) :: decode rest
    else unitChar unit :: decode (unit' :: rest)

/-- The length of a text in code units. -/
def length (text : List Char) : ℕ := (units text).length

@[simp] theorem units_nil : units [] = [] := rfl

@[simp] theorem units_cons (c : Char) (text : List Char) :
    units (c :: text) = charUnits c ++ units text := rfl

private theorem toNat_valid (c : Char) :
    c.toNat < 0xD800 ∨ 0xDFFF < c.toNat ∧ c.toNat < 0x110000 := c.valid

private theorem decode_cons_of_not_high {unit : ℕ} (h : isHigh unit = false) (rest : List ℕ) :
    decode (unit :: rest) = unitChar unit :: decode rest := by
  cases rest with
  | nil => rfl
  | cons unit' rest => simp [decode, h]

private theorem decode_charUnits (c : Char) (rest : List ℕ) :
    decode (charUnits c ++ rest) = c :: decode rest := by
  have hc := toNat_valid c
  unfold charUnits
  split
  · have hhigh : isHigh c.toNat = false := by
      simp only [isHigh, Bool.and_eq_false_iff, decide_eq_false_iff_not]
      omega
    have hlow : isLow c.toNat = false := by
      simp only [isLow, Bool.and_eq_false_iff, decide_eq_false_iff_not]
      omega
    rw [List.singleton_append, decode_cons_of_not_high hhigh]
    simp [unitChar, hhigh, hlow, Char.ofNat_toNat]
  · have hhigh : isHigh (0xD800 + (c.toNat - 0x10000) / 0x400) = true := by
      simp only [isHigh, Bool.and_eq_true, decide_eq_true_eq]
      omega
    have hlow : isLow (0xDC00 + (c.toNat - 0x10000) % 0x400) = true := by
      simp only [isLow, Bool.and_eq_true, decide_eq_true_eq]
      omega
    have hvalue : 0x10000 + (0xD800 + (c.toNat - 0x10000) / 0x400 - 0xD800) * 0x400 +
        (0xDC00 + (c.toNat - 0x10000) % 0x400 - 0xDC00) = c.toNat := by omega
    simp only [List.cons_append, List.nil_append, decode, hhigh, hlow, Bool.and_self, if_true,
      hvalue, Char.ofNat_toNat]

/-- Decoding the code units of a text gives the text back. -/
@[simp] theorem decode_units (text : List Char) : decode (units text) = text := by
  induction text with
  | nil => rfl
  | cons c text ih => rw [units_cons, decode_charUnits, ih]

/-- Texts with the same code units are the same. -/
theorem units_injective : Function.Injective units := by
  intro a b h
  rw [← decode_units a, h, decode_units]

end Blip.Utf16
