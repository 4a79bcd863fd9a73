import Mathlib.Data.List.Infix
import Mathlib.Tactic.Common

/-!
# Replacing words of a delimited text

A text is a list of tokens, each followed by a delimiter. Words without delimiters occur inside
tokens only, so replacing them one after the other works on each token alone; where a token is a word
or has none in it, that is the simultaneous replacement of all of them.
-/

namespace Blip.Replace

variable {α : Type}

/-- A text of tokens, each followed by its delimiter. -/
def delimited (tokens : List (List α × α)) : List α := tokens.flatMap fun token => token.1 ++ [token.2]

theorem delimited_cons (token : List α) (delimiter : α) (tokens : List (List α × α)) :
    delimited ((token, delimiter) :: tokens) = token ++ delimiter :: delimited tokens := by
  rw [delimited, List.flatMap_cons, List.append_assoc]
  rfl

theorem delimited_append (left right : List (List α × α)) :
    delimited (left ++ right) = delimited left ++ delimited right :=
  List.flatMap_append

/-- A word does not reach past a symbol that it does not have. -/
theorem prefix_append_cons_iff {word left right : List α} {delimiter : α} (h : delimiter ∉ word) :
    word <+: left ++ delimiter :: right ↔ word <+: left := by
  constructor
  · intro hword
    rcases List.prefix_or_prefix_of_prefix hword (List.prefix_append left (delimiter :: right))
      with hleft | hleft
    · exact hleft
    · obtain ⟨rest, rfl⟩ := hleft
      obtain ⟨after, hafter⟩ := hword
      rw [List.append_assoc, List.append_cancel_left_eq] at hafter
      cases rest with
      | nil =>
        rw [List.append_nil]
      | cons first rest =>
        obtain rfl := (List.cons_eq_cons.1 hafter).1
        exact absurd (List.mem_append_right left List.mem_cons_self) h
  · exact fun hword => hword.trans (List.prefix_append left _)

variable [DecidableEq α]

/-- Every occurrence of a word replaced, from left to right, `skip` symbols on. -/
def replace (word replacement : List α) : ℕ → List α → List α
  | _, [] => []
  | skip + 1, _ :: rest => replace word replacement skip rest
  | 0, first :: rest =>
    if word.isPrefixOf (first :: rest) then
      replacement ++ replace word replacement (word.length - 1) rest
    else first :: replace word replacement 0 rest

section

variable {word replacement : List α}

theorem replace_append_cons {delimiter : α} (hword : word ≠ []) (hdelimiter : delimiter ∉ word)
    (left right : List α) : ∀ skip ≤ left.length,
      replace word replacement skip (left ++ delimiter :: right) =
        replace word replacement skip left ++ delimiter :: replace word replacement 0 right := by
  induction left with
  | nil =>
    intro skip hskip
    obtain rfl := Nat.le_zero.1 hskip
    have hstart : ¬ word <+: delimiter :: right := fun hstart => by
      have hempty := (@prefix_append_cons_iff α word [] right delimiter hdelimiter).1 hstart
      exact hword (List.prefix_nil.1 hempty)
    have hnil : replace word replacement 0 [] = [] := rfl
    rw [List.nil_append, hnil, List.nil_append, replace,
      if_neg (mt List.isPrefixOf_iff_prefix.1 hstart)]
  | cons first left ih =>
    intro skip hskip
    cases skip with
    | succ skip => exact ih skip (Nat.le_of_succ_le_succ hskip)
    | zero =>
      have hstart := @prefix_append_cons_iff α word (first :: left) right delimiter hdelimiter
      rw [List.cons_append] at hstart
      rw [List.cons_append, replace, replace]
      by_cases hfound : word <+: first :: left
      · have hlength : word.length - 1 ≤ left.length := by
          have := hfound.length_le
          rw [List.length_cons] at this
          omega
        rw [if_pos (List.isPrefixOf_iff_prefix.2 (hstart.2 hfound)),
          if_pos (List.isPrefixOf_iff_prefix.2 hfound), ih _ hlength, List.append_assoc]
      · rw [if_neg (mt List.isPrefixOf_iff_prefix.1 (mt hstart.1 hfound)),
          if_neg (mt List.isPrefixOf_iff_prefix.1 hfound), ih 0 (Nat.zero_le _), List.cons_append]

/-- Replacing a word works on each token. -/
theorem replace_delimited (hword : word ≠ []) (tokens : List (List α × α))
    (h : ∀ token ∈ tokens, token.2 ∉ word) :
    replace word replacement 0 (delimited tokens) =
      delimited (tokens.map fun token => (replace word replacement 0 token.1, token.2)) := by
  induction tokens with
  | nil => rfl
  | cons token tokens ih =>
    obtain ⟨hfirst, htokens⟩ := List.forall_mem_cons.1 h
    rw [delimited_cons, replace_append_cons hword hfirst token.1 _ 0 (Nat.zero_le _), ih htokens,
      List.map_cons, delimited_cons]

/-- A text without the word stays. -/
theorem replace_of_absent {text : List α} (h : ¬ word <:+: text) :
    replace word replacement 0 text = text := by
  induction text with
  | nil => rfl
  | cons first text ih =>
    rw [replace, if_neg fun hstart => h (List.isPrefixOf_iff_prefix.1 hstart).isInfix,
      ih fun hwithin => h (hwithin.trans (List.suffix_cons first text).isInfix)]

theorem replace_skip (left : List α) :
    replace word replacement left.length left = [] := by
  induction left with
  | nil => rfl
  | cons first left ih => exact ih

/-- The word itself becomes its replacement. -/
theorem replace_self (hword : word ≠ []) : replace word replacement 0 word = replacement := by
  cases word with
  | nil => exact absurd rfl hword
  | cons first rest =>
    rw [replace, if_pos (List.isPrefixOf_iff_prefix.2 List.prefix_rfl), List.length_cons,
      Nat.add_sub_cancel, replace_skip, List.append_nil]

end

/-! ## One word after the other -/

/-- Words replaced one after the other. -/
def replaceEach (words : List (List α)) (replacement : List α → List α) (text : List α) : List α :=
  words.foldl (fun text word => replace word (replacement word) 0 text) text

section

variable {words : List (List α)} {replacement : List α → List α}

theorem replaceEach_of_absent {text : List α} (h : ∀ word ∈ words, ¬ word <:+: text) :
    replaceEach words replacement text = text := by
  induction words with
  | nil => rfl
  | cons word words ih =>
    obtain ⟨hword, hwords⟩ := List.forall_mem_cons.1 h
    rw [replaceEach, List.foldl_cons, replace_of_absent hword]
    exact ih hwords

/-- A word becomes its replacement, which no later word changes. -/
theorem replaceEach_word {token : List α} (htoken : token ∈ words) (hempty : token ≠ [])
    (hother : ∀ word ∈ words, word <:+: token → word = token)
    (hfresh : ∀ word ∈ words, word ≠ token → ¬ word <:+: replacement token)
    (hnodup : words.Nodup) : replaceEach words replacement token = replacement token := by
  induction words with
  | nil => exact absurd htoken List.not_mem_nil
  | cons word words ih =>
    obtain ⟨hnotMem, hnodup⟩ := List.nodup_cons.1 hnodup
    obtain ⟨hotherFirst, hother⟩ := List.forall_mem_cons.1 hother
    obtain ⟨-, hfresh⟩ := List.forall_mem_cons.1 hfresh
    rw [replaceEach, List.foldl_cons]
    by_cases heq : word = token
    · subst heq
      rw [replace_self hempty]
      refine replaceEach_of_absent fun other hmem => hfresh other hmem ?_
      rintro rfl
      exact hnotMem hmem
    · rw [replace_of_absent (mt hotherFirst heq)]
      exact ih (List.mem_of_ne_of_mem (Ne.symm heq) htoken) hother hfresh hnodup

theorem replaceEach_delimited (hwords : ∀ word ∈ words, word ≠ []) (tokens : List (List α × α))
    (h : ∀ token ∈ tokens, ∀ word ∈ words, token.2 ∉ word) :
    replaceEach words replacement (delimited tokens) =
      delimited (tokens.map fun token => (replaceEach words replacement token.1, token.2)) := by
  induction words generalizing tokens with
  | nil =>
    exact congrArg delimited (List.map_id tokens).symm
  | cons word words ih =>
    obtain ⟨hword, hwords⟩ := List.forall_mem_cons.1 hwords
    have hfirst : ∀ token ∈ tokens, token.2 ∉ word := fun token htoken =>
      h token htoken word List.mem_cons_self
    rw [replaceEach, List.foldl_cons, replace_delimited hword tokens hfirst]
    have hrest := ih hwords
      (tokens.map fun token => (replace word (replacement word) 0 token.1, token.2)) (by
        intro token htoken other hother
        obtain ⟨token, hmem, rfl⟩ := List.mem_map.1 htoken
        exact h token hmem other (List.mem_cons_of_mem _ hother))
    rw [replaceEach] at hrest
    rw [hrest, List.map_map]
    rfl

/-- Where every token is a word or has none in it, and no word occurs in the replacement of another,
replacing one word after the other replaces all of them at once. -/
theorem replaceEach_simultaneous (hnodup : words.Nodup) (hwords : ∀ word ∈ words, word ≠ [])
    (tokens : List (List α × α)) (hdelimiter : ∀ token ∈ tokens, ∀ word ∈ words, token.2 ∉ word)
    (hsolid : ∀ token ∈ tokens, ∀ word ∈ words, word <:+: token.1 → word = token.1)
    (hfresh : ∀ word ∈ words, ∀ other ∈ words, other ≠ word → ¬ other <:+: replacement word) :
    replaceEach words replacement (delimited tokens) = delimited (tokens.map fun token =>
      (if token.1 ∈ words then replacement token.1 else token.1, token.2)) := by
  rw [replaceEach_delimited hwords tokens hdelimiter]
  refine congrArg delimited (List.map_congr_left fun token htoken => ?_)
  split
  · rename_i hmem
    rw [replaceEach_word hmem (hwords _ hmem) (hsolid token htoken)
      (fun other hother => hfresh _ hmem other hother) hnodup]
  · rename_i hnotMem
    rw [replaceEach_of_absent fun word hword hwithin =>
      hnotMem (hsolid token htoken word hword hwithin ▸ hword)]

end

end Blip.Replace
