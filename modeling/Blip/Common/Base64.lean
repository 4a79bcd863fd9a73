import Mathlib.Data.List.DropRight
import Mathlib.Tactic.IntervalCases

/-!
# Base64 as browsers have it

`btoa` pads its output; `atob` is the forgiving decoder, which takes the padding or leaves it, skips
white space and fails on anything else outside the alphabet. Both go through the list of six-bit
digits. `atob_padEnd` is the round trip for digits whose padding was dropped and put back.
-/

namespace Blip.Base64

/-- The six-bit digits of some bytes. -/
def sextets : List UInt8 → List (Fin 64)
  | [] => []
  | [a] => [⟨a.toNat / 4, by have := a.toNat_lt; omega⟩, ⟨a.toNat % 4 * 16, by omega⟩]
  | [a, b] =>
    [⟨a.toNat / 4, by have := a.toNat_lt; omega⟩,
      ⟨a.toNat % 4 * 16 + b.toNat / 16, by have := b.toNat_lt; omega⟩,
      ⟨b.toNat % 16 * 4, by omega⟩]
  | a :: b :: c :: rest =>
    ⟨a.toNat / 4, by have := a.toNat_lt; omega⟩ ::
      ⟨a.toNat % 4 * 16 + b.toNat / 16, by have := b.toNat_lt; omega⟩ ::
      ⟨b.toNat % 16 * 4 + c.toNat / 64, by have := c.toNat_lt; omega⟩ ::
      ⟨c.toNat % 64, by omega⟩ :: sextets rest

/-- The bytes of some six-bit digits; bits beyond the last whole byte are dropped. -/
def bytes : List (Fin 64) → List UInt8
  | s :: t :: u :: v :: rest =>
    UInt8.ofNat (s * 4 + t / 16) :: UInt8.ofNat (t % 16 * 16 + u / 4) ::
      UInt8.ofNat (u % 4 * 64 + v) :: bytes rest
  | [s, t, u] => [UInt8.ofNat (s * 4 + t / 16), UInt8.ofNat (t % 16 * 16 + u / 4)]
  | [s, t] => [UInt8.ofNat (s * 4 + t / 16)]
  | _ => []

theorem bytes_sextets (data : List UInt8) : bytes (sextets data) = data := by
  fun_induction sextets data with
  | case1 => rfl
  | case2 a =>
    have ha : a.toNat / 4 * 4 + a.toNat % 4 * 16 / 16 = a.toNat := by omega
    simp only [bytes, ha, UInt8.ofNat_toNat]
  | case3 a b =>
    have hb := b.toNat_lt
    have ha : a.toNat / 4 * 4 + (a.toNat % 4 * 16 + b.toNat / 16) / 16 = a.toNat := by omega
    have hb : (a.toNat % 4 * 16 + b.toNat / 16) % 16 * 16 + b.toNat % 16 * 4 / 4 = b.toNat := by
      omega
    simp only [bytes, ha, hb, UInt8.ofNat_toNat]
  | case4 a b c rest ih =>
    have hb := b.toNat_lt
    have hc := c.toNat_lt
    have ha : a.toNat / 4 * 4 + (a.toNat % 4 * 16 + b.toNat / 16) / 16 = a.toNat := by omega
    have hb : (a.toNat % 4 * 16 + b.toNat / 16) % 16 * 16 +
        (b.toNat % 16 * 4 + c.toNat / 64) / 4 = b.toNat := by omega
    have hc : (b.toNat % 16 * 4 + c.toNat / 64) % 4 * 64 + c.toNat % 64 = c.toNat := by omega
    simp only [bytes, ha, hb, hc, UInt8.ofNat_toNat, ih]

theorem length_sextets_mod (data : List UInt8) : (sextets data).length % 4 ≠ 1 := by
  fun_induction sextets data with
  | case1 => simp
  | case2 => simp
  | case3 => simp
  | case4 a b c rest ih =>
    simp only [List.length_cons]
    omega

/-- Four digits for three bytes, and one more digit than bytes left over. -/
theorem length_sextets (data : List UInt8) : (sextets data).length = (data.length * 4 + 2) / 3 := by
  fun_induction sextets data with
  | case1 => rfl
  | case2 => simp
  | case3 => simp
  | case4 a b c rest ih =>
    simp only [List.length_cons, ih]
    omega

/-- The digits in order. -/
def alphabet : List Char :=
  "ABCDEFGHIJKLMNOPQRSTUVWXYZabcdefghijklmnopqrstuvwxyz0123456789+/".toList

/-- The character of a digit. -/
def char (digit : Fin 64) : Char := alphabet.getD digit '='

/-- The digit of a character. -/
def digit? (c : Char) : Option (Fin 64) := (List.finRange 64).find? fun digit => char digit == c

/-- `btoa`: the digits of the data, padded to whole groups of four. -/
def btoa (data : List UInt8) : List Char :=
  let text := (sextets data).map char
  text ++ List.replicate ((4 - text.length % 4) % 4) '='

/-- The padding `atob` takes off a text of whole groups. -/
def dropPadding (text : List Char) : List Char :=
  match text.reverse with
  | '=' :: '=' :: rest => rest.reverse
  | '=' :: rest => rest.reverse
  | _ => text

def isWhitespace (c : Char) : Bool := c ∈ ['\t', '\n', Char.ofNat 0x0C, '\r', ' ']

/-- `atob`, which throws on a text that is not Base64. -/
def atob (text : List Char) : Option (List UInt8) :=
  let text := text.filter fun c => !isWhitespace c
  let text := if text.length % 4 = 0 then dropPadding text else text
  if text.length % 4 = 1 then none else (text.mapM digit?).map bytes

@[simp] theorem digit?_char (digit : Fin 64) : digit? (char digit) = some digit := by
  revert digit
  decide +kernel

theorem char_ne_pad (digit : Fin 64) : char digit ≠ '=' := by
  revert digit
  decide +kernel

theorem isWhitespace_char (digit : Fin 64) : isWhitespace (char digit) = false := by
  revert digit
  decide +kernel

theorem toNat_char_lt (digit : Fin 64) : (char digit).toNat < 0x80 := by
  revert digit
  decide +kernel

private theorem digit?_eq_none {c : Char} (h : 0x80 ≤ c.toNat) : digit? c = none := by
  refine List.find?_eq_none.mpr fun digit _ heq => ?_
  have := toNat_char_lt digit
  rw [beq_iff_eq.mp heq] at this
  omega

private theorem isWhitespace_eq_false {c : Char} (h : 0x80 ≤ c.toNat) : isWhitespace c = false := by
  have hwhite : ∀ w ∈ ['\t', '\n', Char.ofNat 0x0C, '\r', ' '], w.toNat < 0x80 := by
    intro w hw
    simp only [List.mem_cons, List.not_mem_nil, or_false] at hw
    rcases hw with rfl | rfl | rfl | rfl | rfl <;> decide
  refine decide_eq_false fun hmem => ?_
  have := hwhite c hmem
  omega

/-- Only padding is taken off a text. -/
private theorem mem_dropPadding {text : List Char} {c : Char} (hc : c ∈ text) (hpad : c ≠ '=') :
    c ∈ dropPadding text := by
  have hback := List.mem_reverse.mpr hc
  unfold dropPadding
  split
  case h_1 rest heq => simpa [heq, hpad] using hback
  case h_2 rest heq => simpa [heq, hpad] using hback
  case h_3 => exact hc

private theorem mapM_digit?_eq_none {text : List Char} {c : Char} (hc : c ∈ text)
    (h : digit? c = none) : text.mapM digit? = none := by
  induction text with
  | nil => cases hc
  | cons d text ih =>
    rw [List.mapM_cons]
    rcases List.mem_cons.mp hc with rfl | hc
    · rw [h]
      rfl
    · rw [ih hc]
      cases digit? d <;> rfl

/-- A text with a character beyond ASCII is not Base64. -/
theorem atob_eq_none {text : List Char} {c : Char} (hc : c ∈ text) (h : 0x80 ≤ c.toNat) :
    atob text = none := by
  have hpad : c ≠ '=' := by
    rintro rfl
    exact absurd h (by decide)
  have hfilter : c ∈ text.filter fun c => !isWhitespace c :=
    List.mem_filter.mpr ⟨hc, by rw [isWhitespace_eq_false h]; rfl⟩
  unfold atob
  extract_lets filtered digits
  have hdigits : c ∈ digits := by
    simp only [digits]
    split
    · exact mem_dropPadding hfilter hpad
    · exact hfilter
  rw [mapM_digit?_eq_none hdigits (digit?_eq_none h)]
  exact ite_self none

private theorem not_pad_of_mem {digits : List (Fin 64)} {c : Char} (h : c ∈ digits.map char) :
    c ≠ '=' := by
  obtain ⟨digit, -, rfl⟩ := List.mem_map.mp h
  exact char_ne_pad digit

private theorem dropPadding_append {digits : List (Fin 64)} {k : ℕ} (hk : k ≤ 2) :
    dropPadding (digits.map char ++ List.replicate k '=') = digits.map char := by
  have hhead : ∀ c rest, (digits.map char).reverse = c :: rest → c ≠ '=' := by
    intro c rest hc
    exact not_pad_of_mem (List.mem_reverse.mp (hc ▸ List.mem_cons_self))
  have hback : ∀ rest, (digits.map char).reverse = rest → rest.reverse = digits.map char := by
    rintro rest rfl
    exact List.reverse_reverse _
  unfold dropPadding
  rw [List.reverse_append, List.reverse_replicate]
  generalize (digits.map char).reverse = back at hhead hback
  interval_cases k
  · cases back with
    | nil => simp
    | cons c rest => simp [hhead c rest rfl]
  · cases back with
    | nil => simpa using hback [] rfl
    | cons c rest => simpa [hhead c rest rfl] using hback (c :: rest) rfl
  · exact hback back rfl

/-- `padEnd` to whole groups of four with the padding character. -/
def padEnd (text : List Char) : List Char :=
  text ++ List.replicate ((text.length + 3) / 4 * 4 - text.length) '='

/-- Digits decode to their data once padded again. -/
theorem atob_padEnd (data : List UInt8) :
    atob (padEnd ((sextets data).map char)) = some data := by
  have hmod := length_sextets_mod data
  generalize hdigits : sextets data = digits at hmod
  have hfilter : ∀ k, (digits.map char ++ List.replicate k '=').filter (fun c => !isWhitespace c) =
      digits.map char ++ List.replicate k '=' := by
    intro k
    rw [List.filter_eq_self]
    intro c hc
    rcases List.mem_append.mp hc with hc | hc
    · obtain ⟨digit, -, rfl⟩ := List.mem_map.mp hc
      simp [isWhitespace_char]
    · rw [List.eq_of_mem_replicate hc]
      decide
  have hlength : (digits.map char ++
      List.replicate ((digits.length + 3) / 4 * 4 - digits.length) '=').length % 4 = 0 := by
    simp only [List.length_append, List.length_map, List.length_replicate]
    omega
  have hmap : (digits.map char).mapM digit? = some digits := by
    have hsome : digit? ∘ char = fun digit => pure (id digit) := funext digit?_char
    rw [List.mapM_map, hsome, List.mapM_pure, List.map_id]
    rfl
  unfold atob padEnd
  simp only [List.length_map, hfilter, hlength, if_true]
  rw [dropPadding_append (by omega), List.length_map, if_neg hmod, hmap, ← hdigits]
  simp [bytes_sextets]

end Blip.Base64
