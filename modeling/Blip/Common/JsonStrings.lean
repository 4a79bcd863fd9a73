import Blip.Common.Utf16

/-!
# JSON arrays of strings

What `JSON.stringify` writes for an array of strings, and the reader for exactly that shape: a text
it refuses is either not JSON or not an array of strings. A string is read into code units, so that
an escaped surrogate pair is one character.
-/

namespace Blip.JsonStrings

/-- The digit `JSON.stringify` writes for a value below 16. -/
def hexDigit (n : ℕ) : Char := "0123456789abcdef".toList.getD n '0'

/-- The value of a hexadecimal digit, in either case. -/
def hexValue (c : Char) : Option ℕ :=
  if c.isDigit then some (c.toNat - '0'.toNat)
  else if 'a' ≤ c ∧ c ≤ 'f' then some (c.toNat - 'a'.toNat + 10)
  else if 'A' ≤ c ∧ c ≤ 'F' then some (c.toNat - 'A'.toNat + 10)
  else none

/-- The value of four hexadecimal digits. -/
def hexUnit (a b c d : Char) : Option ℕ :=
  match hexValue a, hexValue b, hexValue c, hexValue d with
  | some a, some b, some c, some d => some (((a * 16 + b) * 16 + c) * 16 + d)
  | _, _, _, _ => none

/-- One character inside a written string. -/
def escape (c : Char) : List Char :=
  if c = '"' then ['\\', '"']
  else if c = '\\' then ['\\', '\\']
  else if c.toNat = 8 then ['\\', 'b']
  else if c.toNat = 12 then ['\\', 'f']
  else if c = '\n' then ['\\', 'n']
  else if c = '\r' then ['\\', 'r']
  else if c = '\t' then ['\\', 't']
  else if c.toNat < 0x20 then
    ['\\', 'u', '0', '0', hexDigit (c.toNat / 16), hexDigit (c.toNat % 16)]
  else [c]

/-- The code unit a one-letter escape stands for. -/
def unescape (c : Char) : Option ℕ :=
  if c = '"' ∨ c = '\\' ∨ c = '/' then some c.toNat
  else if c = 'b' then some 8
  else if c = 'f' then some 12
  else if c = 'n' then some 10
  else if c = 'r' then some 13
  else if c = 't' then some 9
  else none

/-- A string, quotes included. -/
def stringifyString (text : List Char) : List Char := '"' :: text.flatMap escape ++ ['"']

/-- `JSON.stringify` of an array of strings. -/
def stringify (texts : List (List Char)) : List Char :=
  '[' :: ((texts.map stringifyString).intersperse [',']).flatten ++ [']']

/-- The code units of a string after its opening quote, and what follows its closing one. -/
def parseUnits : List Char → Option (List ℕ × List Char)
  | [] => none
  | '"' :: rest => some ([], rest)
  | '\\' :: 'u' :: a :: b :: c :: d :: rest =>
    match hexUnit a b c d, parseUnits rest with
    | some unit, some (units, rest) => some (unit :: units, rest)
    | _, _ => none
  | '\\' :: c :: rest =>
    match unescape c, parseUnits rest with
    | some unit, some (units, rest) => some (unit :: units, rest)
    | _, _ => none
  | c :: rest =>
    if c.toNat < 0x20 ∨ c = '\\' then none
    else (parseUnits rest).map fun (units, rest) => (Utf16.charUnits c ++ units, rest)

def isWhitespace (c : Char) : Bool := c ∈ [' ', '\t', '\n', '\r']

/-- The text after leading white space. -/
def skip (text : List Char) : List Char := text.dropWhile isWhitespace

/-- The strings from a string's opening quote to the end of the array. -/
def parseElements : ℕ → List Char → Option (List (List Char))
  | fuel + 1, '"' :: rest =>
    match parseUnits rest with
    | none => none
    | some (units, rest) =>
      match skip rest with
      | ',' :: rest => (parseElements fuel (skip rest)).map (Utf16.decode units :: ·)
      | ']' :: rest => if skip rest = [] then some [Utf16.decode units] else none
      | _ => none
  | _, _ => none

/-- The strings of a JSON array of strings. -/
def parse (text : List Char) : Option (List (List Char)) :=
  match skip text with
  | '[' :: rest =>
    match skip rest with
    | ']' :: rest => if skip rest = [] then some [] else none
    | rest => parseElements rest.length rest
  | _ => none

/-! ## Reading back what was written -/

private theorem hexValue_hexDigit : ∀ n < 16, hexValue (hexDigit n) = some n := by
  decide +kernel

private theorem hexUnit_hexDigit {n : ℕ} (h : n < 0x20) :
    hexUnit '0' '0' (hexDigit (n / 16)) (hexDigit (n % 16)) = some n := by
  have hzero : hexValue '0' = some 0 := by decide +kernel
  simp only [hexUnit, hzero, hexValue_hexDigit (n / 16) (by omega),
    hexValue_hexDigit (n % 16) (by omega)]
  congr 1
  omega

private theorem parseUnits_plain {c : Char} (hquote : c ≠ '"') (hslash : c ≠ '\\')
    (hcontrol : ¬ c.toNat < 0x20) (rest : List Char) :
    parseUnits (c :: rest) =
      (parseUnits rest).map fun (units, rest) => (Utf16.charUnits c ++ units, rest) := by
  rw [parseUnits.eq_def]
  simp [hslash, hcontrol]

private theorem parseUnits_letter {c : Char} {unit : ℕ} (hc : c ≠ 'u')
    (hunit : unescape c = some unit) (rest : List Char) :
    parseUnits ('\\' :: c :: rest) =
      (parseUnits rest).map fun (units, rest) => (unit :: units, rest) := by
  have hnext : parseUnits ('\\' :: c :: rest) =
      match unescape c, parseUnits rest with
      | some unit, some (units, rest) => some (unit :: units, rest)
      | _, _ => none := by
    rw [parseUnits.eq_def]
    split
    case h_5 hne heq =>
      obtain ⟨rfl, rfl⟩ := List.cons.inj heq
      exact absurd rfl (hne _ _ rfl)
    all_goals simp_all
  rw [hnext, hunit]
  cases parseUnits rest <;> rfl

private theorem parseUnits_unicode {a b c d : Char} {unit : ℕ}
    (hunit : hexUnit a b c d = some unit) (rest : List Char) :
    parseUnits ('\\' :: 'u' :: a :: b :: c :: d :: rest) =
      (parseUnits rest).map fun (units, rest) => (unit :: units, rest) := by
  rw [parseUnits.eq_def]
  cases hrest : parseUnits rest <;> simp [hunit, hrest]

private theorem charUnits_ascii {c : Char} {n : ℕ} (h : c.toNat = n) (hn : n < 0x80) :
    Utf16.charUnits c = [n] := by
  rw [Utf16.charUnits, if_pos (by omega), h]

private theorem parseUnits_escape (c : Char) (rest : List Char) :
    parseUnits (escape c ++ rest) =
      (parseUnits rest).map fun (units, rest) => (Utf16.charUnits c ++ units, rest) := by
  unfold escape
  split_ifs with hquote hslash hb hf hn hr ht hcontrol
  · rw [charUnits_ascii (n := 34) (by rw [hquote]; rfl) (by norm_num)]
    exact parseUnits_letter (by decide) (by decide) rest
  · rw [charUnits_ascii (n := 92) (by rw [hslash]; rfl) (by norm_num)]
    exact parseUnits_letter (by decide) (by decide) rest
  · rw [charUnits_ascii hb (by norm_num)]
    exact parseUnits_letter (by decide) (by decide) rest
  · rw [charUnits_ascii hf (by norm_num)]
    exact parseUnits_letter (by decide) (by decide) rest
  · rw [charUnits_ascii (n := 10) (by rw [hn]; rfl) (by norm_num)]
    exact parseUnits_letter (by decide) (by decide) rest
  · rw [charUnits_ascii (n := 13) (by rw [hr]; rfl) (by norm_num)]
    exact parseUnits_letter (by decide) (by decide) rest
  · rw [charUnits_ascii (n := 9) (by rw [ht]; rfl) (by norm_num)]
    exact parseUnits_letter (by decide) (by decide) rest
  · rw [charUnits_ascii rfl (by omega)]
    exact parseUnits_unicode (hexUnit_hexDigit hcontrol) rest
  · exact parseUnits_plain hquote hslash hcontrol rest

theorem parseUnits_stringify (text rest : List Char) :
    parseUnits (text.flatMap escape ++ '"' :: rest) = some (Utf16.units text, rest) := by
  induction text with
  | nil => simp [parseUnits]
  | cons c text ih =>
    rw [List.flatMap_cons, List.append_assoc, parseUnits_escape, ih]
    rfl

/-- The elements of an array, without its brackets. -/
private def elements (texts : List (List Char)) : List Char :=
  ((texts.map stringifyString).intersperse [',']).flatten

private theorem elements_cons_cons (text text' : List Char) (texts : List (List Char)) :
    elements (text :: text' :: texts) = stringifyString text ++ ',' :: elements (text' :: texts) := by
  simp [elements]

private theorem stringifyString_append (text rest : List Char) :
    stringifyString text ++ rest = '"' :: (text.flatMap escape ++ '"' :: rest) := by
  simp [stringifyString]

private theorem elements_eq_cons (text : List Char) (texts : List (List Char)) (rest : List Char) :
    ∃ tail, elements (text :: texts) ++ rest = '"' :: tail := by
  cases texts with
  | nil => exact ⟨_, by rw [elements]; simpa using stringifyString_append text rest⟩
  | cons text' texts =>
    rw [elements_cons_cons, List.append_assoc]
    exact ⟨_, stringifyString_append text _⟩

private theorem length_le_elements (texts : List (List Char)) :
    texts.length ≤ (elements texts).length := by
  induction texts with
  | nil => exact Nat.zero_le _
  | cons text texts ih =>
    cases texts with
    | nil => simp [elements, stringifyString]
    | cons text' texts =>
      rw [elements_cons_cons]
      simp only [List.length_cons, List.length_append] at ih ⊢
      omega

private theorem skip_cons {c : Char} (h : isWhitespace c = false) (rest : List Char) :
    skip (c :: rest) = c :: rest := by
  simp [skip, h]

private theorem parseElements_stringify {fuel : ℕ} (text : List Char)
    (texts : List (List Char)) (hfuel : texts.length < fuel) :
    parseElements fuel (elements (text :: texts) ++ [']']) = some (text :: texts) := by
  induction texts generalizing text fuel with
  | nil =>
    obtain ⟨fuel, rfl⟩ : ∃ k, fuel = k + 1 := ⟨fuel - 1, by simp at hfuel; omega⟩
    have helements : elements [text] = stringifyString text := by simp [elements]
    have hclose : skip [']'] = [']'] := rfl
    have hend : skip [] = [] := rfl
    rw [helements, stringifyString_append, parseElements, parseUnits_stringify]
    simp only [hclose, hend, if_true, Utf16.decode_units]
  | cons text' texts ih =>
    obtain ⟨fuel, rfl⟩ : ∃ k, fuel = k + 1 := ⟨fuel - 1, by omega⟩
    obtain ⟨tail, htail⟩ := elements_eq_cons text' texts [']']
    have hrest := @ih fuel text' (by simpa using hfuel)
    rw [elements_cons_cons, List.append_assoc, stringifyString_append, parseElements,
      parseUnits_stringify]
    rw [htail] at hrest
    simp only [List.cons_append, htail, skip_cons (c := ',') rfl, skip_cons (c := '"') rfl, hrest,
      Utf16.decode_units, Option.map_some]

/-- Reading what was written gives the strings back. -/
theorem parse_stringify (texts : List (List Char)) : parse (stringify texts) = some texts := by
  have hwritten : stringify texts = '[' :: (elements texts ++ [']']) := by
    simp [stringify, elements]
  rw [hwritten, parse, skip_cons (c := '[') rfl]
  cases texts with
  | nil => rfl
  | cons text texts =>
    obtain ⟨tail, htail⟩ := elements_eq_cons text texts [']']
    have hlength : texts.length < (elements (text :: texts) ++ [']']).length := by
      have := length_le_elements (text :: texts)
      simp only [List.length_cons, List.length_append] at this ⊢
      omega
    have hparse := parseElements_stringify text texts hlength
    simp only [htail, skip_cons (c := '"') rfl] at hparse ⊢
    exact hparse

end Blip.JsonStrings
