import Blip.Common.Replace
import Blip.Server.Text
import Mathlib.Data.List.Dedup

/-!
# Asset names in a text

What the patterns of `Text.lean` match: the asset names that occur in a text, where they are found in
a delimited text, and what `replaceAll` makes of them.
-/

namespace Blip.Server

open Replace

/-! ## Replacing -/

/-- The characters that make a `$` before them a replacement pattern. -/
def IsMark (c : Char) : Prop := c = '$' ∨ c = '&' ∨ c.toNat = 96 ∨ c.toNat = 39

/-- A replacement text with a `$` pattern. -/
def HasPattern (replacement : List Char) : Prop :=
  ∃ mark, IsMark mark ∧ ['$', mark] <:+: replacement

theorem HasPattern.cons {c : Char} {replacement : List Char} (h : HasPattern replacement) :
    HasPattern (c :: replacement) :=
  let ⟨mark, hmark, hwithin⟩ := h
  ⟨mark, hmark, hwithin.trans (List.suffix_cons c replacement).isInfix⟩

theorem substitution_eq {found before after replacement : List Char}
    (h : ¬ HasPattern replacement) :
    substitution found before after replacement = replacement := by
  induction replacement with
  | nil => rfl
  | cons c replacement ih =>
    cases replacement with
    | nil => rfl
    | cons mark rest =>
      have htail := ih (mt HasPattern.cons h)
      have hmark : c = '$' → ¬ IsMark mark := by
        rintro rfl hmark
        exact h ⟨mark, hmark, [], rest, rfl⟩
      rw [substitution]
      by_cases hc : c = '$'
      · have hno := hmark hc
        simp only [IsMark, not_or] at hno
        rw [if_neg (not_not_intro hc), if_neg hno.1, if_neg hno.2.1, if_neg hno.2.2.1,
          if_neg hno.2.2.2, htail]
      · rw [if_pos hc, htail]

/-- Without a pattern the text around a match does not matter. -/
theorem replaceAll_eq {found replacement : List Char} (h : ¬ HasPattern replacement)
    (text : List Char) : replaceAll text found replacement = replace found replacement 0 text := by
  suffices hfrom : ∀ before skip,
      replaceAllFrom found replacement before skip text = replace found replacement skip text from
    hfrom [] 0
  induction text with
  | nil =>
    intro before skip
    cases skip <;> rfl
  | cons c text ih =>
    intro before skip
    cases skip with
    | succ skip => exact ih _ skip
    | zero =>
      rw [replaceAllFrom, replace, substitution_eq h, ih, ih]

/-! ## Matches -/

/-- `segment\d{5}\.m4s`, with these digits. -/
def segmentChars (digits : List Char) : List Char := "segment".toList ++ digits ++ ".m4s".toList

/-- A name that the pattern matches. -/
def AssetName (name : List Char) : Prop :=
  name = "init.mp4".toList ∨
    ∃ digits, digits.length = 5 ∧ (∀ c ∈ digits, c.isDigit = true) ∧ name = segmentChars digits

theorem segmentChars_append (digits rest : List Char) :
    segmentChars digits ++ rest = "segment".toList ++ (digits ++ (".m4s".toList ++ rest)) := by
  unfold segmentChars
  rw [List.append_assoc, List.append_assoc]

theorem length_segmentChars {digits : List Char} (h : digits.length = 5) :
    (segmentChars digits).length = 16 := by
  unfold segmentChars
  rw [List.length_append, List.length_append, h]
  decide

theorem matchSegment_eq_some {text name : List Char} : matchSegment text = some name ↔
    ∃ digits, digits.length = 5 ∧ (∀ c ∈ digits, c.isDigit = true) ∧
      name = segmentChars digits ∧ name <+: text := by
  constructor
  · intro h
    rw [matchSegment] at h
    split at h
    · rename_i hmatch
      obtain ⟨hsegment, hlength, hdigits, hextension⟩ := hmatch
      obtain ⟨rest, rfl⟩ := List.isPrefixOf_iff_prefix.1 hsegment
      have hdrop7 : ("segment".toList ++ rest).drop 7 = rest := List.drop_left' (by decide)
      have hdrop12 : ("segment".toList ++ rest).drop 12 = rest.drop 5 := by
        rw [← hdrop7, List.drop_drop, hdrop7]
      rw [hdrop7] at hlength hdigits
      rw [hdrop12] at hextension
      obtain ⟨after, hafter⟩ := List.isPrefixOf_iff_prefix.1 hextension
      have hrest : rest = rest.take 5 ++ (".m4s".toList ++ after) := by
        rw [hafter, List.take_append_drop]
      generalize rest.take 5 = digits at hlength hdigits hrest
      have hname : name = segmentChars digits := by
        have htake := Option.some.inj h
        rw [hrest, ← segmentChars_append] at htake
        rw [← htake]
        exact List.take_left' (length_segmentChars hlength)
      refine ⟨digits, hlength, List.all_eq_true.1 hdigits, hname, after, ?_⟩
      rw [hname, segmentChars_append, hrest]
    · exact absurd h nofun
  · rintro ⟨digits, hlength, hdigits, rfl, after, rfl⟩
    have hdrop7 : (segmentChars digits ++ after).drop 7 = digits ++ (".m4s".toList ++ after) := by
      rw [segmentChars_append]
      exact List.drop_left' (by decide)
    have hdrop12 : (segmentChars digits ++ after).drop 12 = ".m4s".toList ++ after := by
      rw [← List.drop_drop (i := 5) (j := 7), hdrop7]
      exact List.drop_left' hlength
    have htake : (digits ++ (".m4s".toList ++ after)).take 5 = digits := List.take_left' hlength
    have hname : (segmentChars digits ++ after).take 16 = segmentChars digits :=
      List.take_left' (length_segmentChars hlength)
    rw [matchSegment, hdrop7, hdrop12, htake, hname, if_pos]
    refine ⟨?_, hlength, List.all_eq_true.2 hdigits, ?_⟩
    · rw [segmentChars_append]
      exact List.isPrefixOf_iff_prefix.2 (List.prefix_append _ _)
    · exact List.isPrefixOf_iff_prefix.2 (List.prefix_append _ _)

theorem AssetName.ne_nil {name : List Char} (h : AssetName name) : name ≠ [] := by
  rcases h with rfl | ⟨digits, -, -, rfl⟩
  · decide
  · exact List.append_ne_nil_of_left_ne_nil (List.append_ne_nil_of_left_ne_nil (by decide) _) _

theorem matchAsset_eq_some {text name : List Char} :
    matchAsset text = some name ↔ AssetName name ∧ name <+: text := by
  rw [matchAsset]
  split
  · rename_i hinit
    have hinit := List.isPrefixOf_iff_prefix.1 hinit
    constructor
    · intro h
      obtain rfl := Option.some.inj h
      exact ⟨.inl rfl, hinit⟩
    · rintro ⟨rfl | ⟨digits, -, -, rfl⟩, hname⟩
      · rfl
      · -- They do not even begin alike.
        obtain ⟨rest, rfl⟩ := hinit
        obtain ⟨after, hafter⟩ := hname
        rw [segmentChars_append] at hafter
        exact absurd (List.cons_eq_cons.1 hafter).1 (by decide)
  · rename_i hinit
    rw [matchSegment_eq_some]
    constructor
    · rintro ⟨digits, hlength, hdigits, rfl, hname⟩
      exact ⟨.inr ⟨digits, hlength, hdigits, rfl⟩, hname⟩
    · rintro ⟨rfl | ⟨digits, hlength, hdigits, rfl⟩, hname⟩
      · exact absurd (List.isPrefixOf_iff_prefix.2 hname) hinit
      · exact ⟨digits, hlength, hdigits, rfl, hname⟩

theorem matchAsset_self {name : List Char} : matchAsset name = some name ↔ AssetName name := by
  rw [matchAsset_eq_some]
  exact and_iff_left List.prefix_rfl

instance (name : List Char) : Decidable (AssetName name) := decidable_of_iff _ matchAsset_self

/-! ## Matches in a delimited text -/

/-- A character of no asset name. -/
def Delimits (delimiter : Char) : Prop := ∀ name, AssetName name → delimiter ∉ name

theorem matchAsset_append_cons {delimiter : Char} (h : Delimits delimiter)
    (left right : List Char) : matchAsset (left ++ delimiter :: right) = matchAsset left := by
  refine Option.ext fun name => ?_
  rw [matchAsset_eq_some, matchAsset_eq_some]
  constructor
  · exact fun ⟨hname, hstart⟩ => ⟨hname, (prefix_append_cons_iff (h name hname)).1 hstart⟩
  · exact fun ⟨hname, hstart⟩ => ⟨hname, (prefix_append_cons_iff (h name hname)).2 hstart⟩

theorem matchAssetsFrom_append_cons {delimiter : Char} (h : Delimits delimiter)
    (left right : List Char) : ∀ skip ≤ left.length,
      matchAssetsFrom skip (left ++ delimiter :: right) =
        matchAssetsFrom skip left ++ matchAssetsFrom 0 right := by
  induction left with
  | nil =>
    intro skip hskip
    obtain rfl := Nat.le_zero.1 hskip
    have hnone : matchAsset (delimiter :: right) = none :=
      (matchAsset_append_cons h [] right).trans (by decide)
    have hnil : matchAssetsFrom 0 [] = [] := rfl
    rw [List.nil_append, hnil, matchAssetsFrom, hnone]
    rfl
  | cons c left ih =>
    intro skip hskip
    cases skip with
    | succ skip => exact ih skip (Nat.le_of_succ_le_succ hskip)
    | zero =>
      have hmatch := matchAsset_append_cons h (c :: left) right
      rw [List.cons_append] at hmatch
      rw [List.cons_append, matchAssetsFrom, matchAssetsFrom, hmatch]
      cases hname : matchAsset (c :: left) with
      | none => exact ih 0 (Nat.zero_le _)
      | some name =>
        have hlength := (matchAsset_eq_some.1 hname).2.length_le
        rw [List.length_cons] at hlength
        exact congrArg (name :: ·) (ih _ (by omega))

theorem matchAssetsFrom_delimited (tokens : List (List Char × Char))
    (h : ∀ token ∈ tokens, Delimits token.2) :
    matchAssetsFrom 0 (delimited tokens) =
      tokens.flatMap fun token => matchAssetsFrom 0 token.1 := by
  induction tokens with
  | nil => rfl
  | cons token tokens ih =>
    obtain ⟨hfirst, htokens⟩ := List.forall_mem_cons.1 h
    rw [delimited_cons, matchAssetsFrom_append_cons hfirst _ _ 0 (Nat.zero_le _), ih htokens,
      List.flatMap_cons]

/-- A token that is an asset name or has none in it. -/
def Solid (token : List Char) : Prop := ∀ name, AssetName name → name <:+: token → name = token

theorem matchAssetsFrom_of_absent {text : List Char}
    (h : ∀ name, AssetName name → ¬ name <:+: text) : matchAssetsFrom 0 text = [] := by
  induction text with
  | nil => rfl
  | cons c text ih =>
    cases hmatch : matchAsset (c :: text) with
    | some name =>
      have hname := matchAsset_eq_some.1 hmatch
      exact absurd hname.2.isInfix (h name hname.1)
    | none =>
      rw [matchAssetsFrom, hmatch]
      exact ih fun name hname hwithin =>
        h name hname (hwithin.trans (List.suffix_cons c text).isInfix)

theorem matchAssetsFrom_skip (text : List Char) : matchAssetsFrom text.length text = [] := by
  induction text with
  | nil => rfl
  | cons c text ih => exact ih

theorem Solid.matches {token : List Char} (h : Solid token) :
    (AssetName token ∧ matchAssetsFrom 0 token = [token]) ∨
      (¬ AssetName token ∧ matchAssetsFrom 0 token = []) := by
  by_cases hname : AssetName token
  · refine .inl ⟨hname, ?_⟩
    have hmatch := matchAsset_self.2 hname
    cases token with
    | nil => exact absurd rfl hname.ne_nil
    | cons c token =>
      rw [matchAssetsFrom, hmatch]
      exact congrArg _ (matchAssetsFrom_skip token)
  · refine .inr ⟨hname, matchAssetsFrom_of_absent fun name hasset hwithin => hname ?_⟩
    exact h name hasset hwithin ▸ hasset

/-- The names found in a text are the tokens that are asset names. -/
theorem mem_assetNames {tokens : List (List Char × Char)}
    (hdelimiters : ∀ token ∈ tokens, Delimits token.2) (hsolid : ∀ token ∈ tokens, Solid token.1)
    {name : List Char} : name ∈ assetNames (delimited tokens) ↔
      AssetName name ∧ ∃ token ∈ tokens, token.1 = name := by
  rw [assetNames, List.mem_eraseDups, matchAssetsFrom_delimited tokens hdelimiters,
    List.mem_flatMap]
  constructor
  · rintro ⟨token, htoken, hmatch⟩
    rcases (hsolid token htoken).matches with ⟨hname, heq⟩ | ⟨-, heq⟩ <;> rw [heq] at hmatch
    · obtain rfl := List.mem_singleton.1 hmatch
      exact ⟨hname, token, htoken, rfl⟩
    · exact absurd hmatch List.not_mem_nil
  · rintro ⟨hname, token, htoken, rfl⟩
    refine ⟨token, htoken, ?_⟩
    rcases (hsolid token htoken).matches with ⟨-, heq⟩ | ⟨hnot, -⟩
    · rw [heq]
      exact List.mem_singleton_self _
    · exact absurd hname hnot

theorem nodup_eraseDups (names : List (List Char)) : names.eraseDups.Nodup := by
  induction hlength : names.length using Nat.strong_induction_on generalizing names with
  | _ length ih =>
    cases names with
    | nil => exact List.nodup_nil
    | cons name names =>
      rw [List.eraseDups_cons, List.nodup_cons]
      have hshorter : (names.filter fun other => !other == name).length < length := by
        have := List.length_filter_le (fun other => !other == name) names
        rw [← hlength, List.length_cons]
        omega
      refine ⟨fun hmem => ?_, ih _ hshorter _ rfl⟩
      have hkept := (List.mem_filter.1 (List.mem_eraseDups.1 hmem)).2
      simp at hkept

/-! ## Replacing asset names -/

/-- The handler's replacements, one name after the other. -/
def replaceNames (url : List Char → List Char) (names : List (List Char)) (text : List Char) :
    List Char :=
  (names.zip (names.map url)).foldl (fun value entry => replaceAll value entry.1 entry.2) text

theorem replaceNames_eq {url : List Char → List Char} {names : List (List Char)}
    (h : ∀ name ∈ names, ¬ HasPattern (url name)) (text : List Char) :
    replaceNames url names text = replaceEach names url text := by
  induction names generalizing text with
  | nil => rfl
  | cons name names ih =>
    obtain ⟨hname, hnames⟩ := List.forall_mem_cons.1 h
    have hrest := ih hnames (replace name (url name) 0 text)
    rw [replaceNames, replaceEach] at hrest
    rw [replaceNames, List.map_cons, List.zip_cons_cons, List.foldl_cons, replaceAll_eq hname, hrest,
      replaceEach, List.foldl_cons]

/-- URLs that can be put into a text one after the other: none has a replacement pattern or the name
of another asset in it. -/
structure CleanUrls (names : List (List Char)) (url : List Char → List Char) : Prop where
  noPattern : ∀ name ∈ names, ¬ HasPattern (url name)
  noOther : ∀ name ∈ names, ∀ other ∈ names, other ≠ name → ¬ other <:+: url name

/-- In a text of solid tokens, replacing one name after the other replaces exactly the tokens that are
asset names, all at once. -/
theorem replaceNames_delimited {tokens : List (List Char × Char)}
    (hdelimiters : ∀ token ∈ tokens, Delimits token.2) (hsolid : ∀ token ∈ tokens, Solid token.1)
    {url : List Char → List Char} (hurl : CleanUrls (assetNames (delimited tokens)) url) :
    replaceNames url (assetNames (delimited tokens)) (delimited tokens) =
      delimited (tokens.map fun token =>
        (if AssetName token.1 then url token.1 else token.1, token.2)) := by
  have hmem : ∀ name ∈ assetNames (delimited tokens), AssetName name := fun name hname =>
    ((mem_assetNames hdelimiters hsolid).1 hname).1
  have hnodup : (assetNames (delimited tokens)).Nodup := nodup_eraseDups _
  rw [replaceNames_eq hurl.noPattern, replaceEach_simultaneous hnodup
    (fun name hname => (hmem name hname).ne_nil) tokens
    (fun token htoken name hname => hdelimiters token htoken name (hmem name hname))
    (fun token htoken name hname => hsolid token htoken name (hmem name hname)) hurl.noOther]
  refine congrArg delimited (List.map_congr_left fun token htoken => ?_)
  have hiff : token.1 ∈ assetNames (delimited tokens) ↔ AssetName token.1 := by
    rw [mem_assetNames hdelimiters hsolid]
    exact ⟨fun h => h.1, fun h => ⟨h, token, htoken, rfl⟩⟩
  by_cases hname : AssetName token.1
  · rw [if_pos hname, if_pos (hiff.2 hname)]
  · rw [if_neg hname, if_neg (mt hiff.1 hname)]

end Blip.Server
