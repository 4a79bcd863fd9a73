import Mathlib.Data.List.Nodup
import Mathlib.Logic.Function.Basic

/-!
# Tables of first use

A table gives each key an index when it is first used. What is kept for the keys in the order of their
indices is found again by the index of a key.
-/

namespace Blip

/-- The keys in the order of their first use, and the index that each was given. -/
structure FirstUse (K : Type*) where
  keys : List K
  index : K → Option ℕ

namespace FirstUse

variable {K V : Type*}

def empty : FirstUse K where
  keys := []
  index := fun _ => none

/-- Every index is that of its key, and no key has two. -/
structure Sound (table : FirstUse K) : Prop where
  nodup : table.keys.Nodup
  index : ∀ key place, table.index key = some place ↔ table.keys[place]? = some key

theorem sound_empty : (empty : FirstUse K).Sound where
  nodup := List.nodup_nil
  index := fun key place => by simp [empty]

theorem Sound.index_eq_none {table : FirstUse K} (sound : table.Sound) {key : K} :
    table.index key = none ↔ key ∉ table.keys := by
  rw [List.mem_iff_getElem?, not_exists, Option.eq_none_iff_forall_ne_some]
  simp only [ne_eq, sound.index]

theorem filterMap_getElem? {keys : List K} {value : K → Option V}
    (hvalue : ∀ key ∈ keys, (value key).isSome = true) {place : ℕ} {key : K}
    (hplace : keys[place]? = some key) : (keys.filterMap value)[place]? = value key := by
  induction keys generalizing place with
  | nil => cases hplace
  | cons first keys ih =>
    obtain ⟨kept, hkept⟩ := Option.isSome_iff_exists.1 (hvalue first List.mem_cons_self)
    rw [List.filterMap_cons_some hkept]
    cases place with
    | zero =>
      obtain rfl := Option.some.inj hplace
      exact hkept.symm
    | succ place => exact ih (fun key hkey => hvalue key (List.mem_cons_of_mem _ hkey)) hplace

variable [DecidableEq K]

/-- A key without an index gets the next one. -/
def use (table : FirstUse K) (key : K) : FirstUse K :=
  if (table.index key).isSome then table
  else
    { keys := table.keys ++ [key]
      index := Function.update table.index key (some table.keys.length) }

/-- The table of the keys of a list that are used. -/
def ofUsed (used : K → Bool) (keys : List K) : FirstUse K :=
  keys.foldl (fun table key => if used key then table.use key else table) empty

theorem mem_use (table : FirstUse K) (sound : table.Sound) (key key' : K) :
    key' ∈ (table.use key).keys ↔ key' ∈ table.keys ∨ key' = key := by
  unfold FirstUse.use
  split
  · rename_i hold
    have hkey : key ∈ table.keys := by
      by_contra hkey
      rw [sound.index_eq_none.2 hkey] at hold
      cases hold
    refine ⟨.inl, ?_⟩
    rintro (h | rfl)
    · exact h
    · exact hkey
  · rw [List.mem_append, List.mem_singleton]

theorem Sound.use {table : FirstUse K} (sound : table.Sound) (key : K) : (table.use key).Sound := by
  unfold FirstUse.use
  split
  · exact sound
  · rename_i hnew
    have hkey : key ∉ table.keys :=
      sound.index_eq_none.1 (Option.not_isSome_iff_eq_none.1 hnew)
    refine ⟨?_, fun key' place => ?_⟩
    · rw [List.nodup_append]
      exact ⟨sound.nodup, List.nodup_singleton key, fun _ hmem _ hlast heq =>
        hkey (List.mem_singleton.1 hlast ▸ heq ▸ hmem)⟩
    · dsimp only
      by_cases heq : key' = key
      · subst heq
        rw [Function.update_self, Option.some.injEq]
        constructor
        · rintro rfl
          exact List.getElem?_concat_length
        · intro hplace
          rcases Nat.lt_or_ge place table.keys.length with hlt | hge
          · rw [List.getElem?_append_left hlt] at hplace
            exact (hkey (List.mem_of_getElem? hplace)).elim
          · have hlt := (List.getElem?_eq_some_iff.1 hplace).1
            rw [List.length_append, List.length_singleton] at hlt
            omega
      · rw [Function.update_of_ne heq, sound.index]
        rcases Nat.lt_or_ge place table.keys.length with hlt | hge
        · rw [List.getElem?_append_left hlt]
        · rw [List.getElem?_eq_none_iff.2 hge, List.getElem?_append_right hge]
          refine ⟨nofun, fun hplace => (heq ?_).elim⟩
          exact List.mem_singleton.1 (List.mem_of_getElem? hplace)

theorem foldl_use (used : K → Bool) (keys : List K) {table : FirstUse K} (sound : table.Sound) :
    let final := keys.foldl (fun table key => if used key then table.use key else table) table
    final.Sound ∧ ∀ key, key ∈ final.keys ↔ key ∈ table.keys ∨ key ∈ keys ∧ used key = true := by
  induction keys generalizing table with
  | nil => exact ⟨sound, fun key => by simp⟩
  | cons first keys ih =>
    rw [List.foldl_cons]
    by_cases hused : used first = true
    · rw [if_pos hused]
      refine ⟨(ih (sound.use first)).1, fun key => ?_⟩
      rw [(ih (sound.use first)).2, mem_use table sound, List.mem_cons, or_assoc, or_and_right]
      constructor
      · rintro (h | rfl | h)
        · exact .inl h
        · exact .inr (.inl ⟨rfl, hused⟩)
        · exact .inr (.inr h)
      · rintro (h | ⟨rfl, -⟩ | h)
        · exact .inl h
        · exact .inr (.inl rfl)
        · exact .inr (.inr h)
    · rw [if_neg hused]
      refine ⟨(ih sound).1, fun key => ?_⟩
      rw [(ih sound).2, List.mem_cons]
      refine or_congr_right (and_congr_left fun hkey => ⟨.inr, fun h => h.resolve_left ?_⟩)
      rintro rfl
      exact hused hkey

theorem sound_ofUsed (used : K → Bool) (keys : List K) : (ofUsed used keys).Sound :=
  (foldl_use used keys sound_empty).1

/-- The table has the used keys of the list, and no others. -/
theorem mem_ofUsed (used : K → Bool) (keys : List K) (key : K) :
    key ∈ (ofUsed used keys).keys ↔ key ∈ keys ∧ used key = true := by
  rw [ofUsed, (foldl_use used keys sound_empty).2]
  exact or_iff_right List.not_mem_nil

/-- A used key finds its own value at its index, among the values in the order of first use. -/
theorem value_ofUsed (value : K → Option V) (keys : List K) {key : K} {place : ℕ}
    (h : (ofUsed (fun key => (value key).isSome) keys).index key = some place) :
    ((ofUsed (fun key => (value key).isSome) keys).keys.filterMap value)[place]? = value key :=
  filterMap_getElem? (fun _ hkey => ((mem_ofUsed _ _ _).1 hkey).2)
    (((sound_ofUsed _ _).index _ _).1 h)

/-- A key of the list has an index exactly if it has a value. -/
theorem index_ofUsed (used : K → Bool) {keys : List K} {key : K} (h : key ∈ keys) :
    ((ofUsed used keys).index key).isSome = used key := by
  rw [Bool.eq_iff_iff, ← Option.ne_none_iff_isSome, ne_eq, (sound_ofUsed _ _).index_eq_none, not_not,
    mem_ofUsed, and_iff_right h]

end FirstUse

end Blip
