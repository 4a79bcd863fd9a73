import Blip.Common.Utf16
import Mathlib.Data.List.Basic

/-!
# Text operations the server uses

The string functions of the handlers, which measure and cut strings in UTF-16 code units and trim by
Unicode white space, and the two patterns of HLS asset names.
-/

namespace Blip.Server

/-- `String.prototype.length`. -/
def textLength (text : String) : ℕ := Utf16.length text.toList

/-- White space and line terminators. -/
def isTrimmed (c : Char) : Bool :=
  c.toNat ∈ [9, 10, 11, 12, 13, 32, 0xA0, 0x1680, 0x2028, 0x2029, 0x202F, 0x205F, 0x3000, 0xFEFF] ||
    0x2000 ≤ c.toNat && c.toNat ≤ 0x200A

/-- `String.prototype.trim`. -/
def trim (text : String) : String :=
  String.ofList ((text.toList.dropWhile isTrimmed).reverse.dropWhile isTrimmed).reverse

/-- The text before the last `c`, when there is one: what `slice(0, lastIndexOf(c))` gives. -/
def beforeLast (c : Char) (text : String) : Option String :=
  match text.toList.reverse.dropWhile (· != c) with
  | [] => none
  | _ :: before => some (String.ofList before.reverse)

theorem beforeLast_append {c : Char} {after : List Char} (h : c ∉ after) (before : List Char) :
    beforeLast c (String.ofList (before ++ c :: after)) = some (String.ofList before) := by
  have hafter : ∀ other ∈ after.reverse, (other != c) = true := fun other hother => by
    rw [bne_iff_ne]
    rintro rfl
    exact h (List.mem_reverse.1 hother)
  rw [beforeLast, String.toList_ofList, List.reverse_append, List.reverse_cons, List.append_assoc,
    List.dropWhile_append_of_pos hafter, List.singleton_append,
    List.dropWhile_cons_of_neg (by simp)]
  exact congrArg (fun text => some (String.ofList text)) (List.reverse_reverse before)

/-- A recording's name: the file name without its extension, if anything stands before the dot. -/
def recordingName (filename : String) : String :=
  match beforeLast '.' filename with
  | some stem => trim (if stem = "" then filename else stem)
  | none => trim filename

/-- The directory of an object key, with its slash. -/
def keyPrefix (objectKey : String) : String :=
  match beforeLast '/' objectKey with
  | some directory => directory ++ "/"
  | none => ""

/-- `objectKey.endsWith("/playlist.m3u8")`. -/
def isHls (objectKey : String) : Bool := "/playlist.m3u8".toList.isSuffixOf objectKey.toList

def isUnreserved (c : Char) : Bool := c.isAlphanum || c ∈ "-_.!~*'()".toList

/-- A byte as `%` and two upper-case hexadecimal digits. -/
def percentEncode (byte : UInt8) : List Char :=
  let digit (n : ℕ) := "0123456789ABCDEF".toList.getD n '0'
  ['%', digit (byte.toNat / 16), digit (byte.toNat % 16)]

/-- `encodeURIComponent`. -/
def encodeURIComponent (text : String) : String :=
  String.ofList (text.toList.flatMap fun c =>
    if isUnreserved c then [c] else (String.utf8EncodeChar c).flatMap percentEncode)

def viewerUrl (origin id : String) : String := origin ++ "/v/" ++ encodeURIComponent id

def playlistUrl (origin id : String) : String := viewerUrl origin id ++ "/playlist.m3u8"

/-! ## Asset names -/

/-- The match of `segment\d{5}\.m4s` at the start of a text. -/
def matchSegment (text : List Char) : Option (List Char) :=
  let digits := (text.drop 7).take 5
  if "segment".toList.isPrefixOf text ∧ digits.length = 5 ∧ digits.all Char.isDigit ∧
      ".m4s".toList.isPrefixOf (text.drop 12) then some (text.take 16) else none

/-- The match of `(?:init\.mp4|segment\d{5}\.m4s)` at the start of a text. -/
def matchAsset (text : List Char) : Option (List Char) :=
  if "init.mp4".toList.isPrefixOf text then some "init.mp4".toList else matchSegment text

/-- The successive matches in a text, `skip` characters on. -/
def matchAssetsFrom : ℕ → List Char → List (List Char)
  | _, [] => []
  | skip + 1, _ :: rest => matchAssetsFrom skip rest
  | 0, c :: rest =>
    match matchAsset (c :: rest) with
    | some name => name :: matchAssetsFrom (name.length - 1) rest
    | none => matchAssetsFrom 0 rest

/-- The distinct matches, in the order of their first occurrence. -/
def assetNames (playlist : List Char) : List (List Char) := (matchAssetsFrom 0 playlist).eraseDups

/-- The replacement text of one match: `$` stands for itself, the match, or the text before or
after it when one of the four marks follows. -/
def substitution (found before after : List Char) : List Char → List Char
  | [] => []
  | [c] => [c]
  | c :: mark :: rest =>
    if c ≠ '$' then c :: substitution found before after (mark :: rest)
    else if mark = '$' then '$' :: substitution found before after rest
    else if mark = '&' then found ++ substitution found before after rest
    else if mark.toNat = 96 then before ++ substitution found before after rest
    else if mark.toNat = 39 then after ++ substitution found before after rest
    else c :: substitution found before after (mark :: rest)

/-- `replaceAll` of a nonempty text, from `before` on and `skip` characters later. -/
def replaceAllFrom (found replacement : List Char) : List Char → ℕ → List Char → List Char
  | _, _, [] => []
  | before, skip + 1, c :: rest => replaceAllFrom found replacement (before ++ [c]) skip rest
  | before, 0, c :: rest =>
    if found.isPrefixOf (c :: rest) then
      substitution found before ((c :: rest).drop found.length) replacement ++
        replaceAllFrom found replacement (before ++ [c]) (found.length - 1) rest
    else c :: replaceAllFrom found replacement (before ++ [c]) 0 rest

/-- `String.prototype.replaceAll` of a nonempty text. -/
def replaceAll (text found replacement : List Char) : List Char :=
  replaceAllFrom found replacement [] 0 text

/-- `/^segment\d{5}\.m4s$/.test(name)`. -/
def isSegmentName (name : String) : Bool := matchSegment name.toList == some name.toList

end Blip.Server
