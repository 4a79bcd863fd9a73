import Mathlib.Data.List.Dedup
import Mathlib.Data.List.DropRight

/-!
# Lists of the most recent

A bounded list of what happened, each thing at its last occurrence and the newest at the end. It can
be kept up from itself alone: `recent_concat` is the step, `remember` taking a thing out, putting it
at the end and dropping the oldest of too many.
-/

namespace Blip.Recency

variable {α : Type} [DecidableEq α] {n : ℕ} {held log : List α} {a b : α}

/-- The last `n` distinct things of a log, in the order of their last occurrence. -/
def recent (n : ℕ) (log : List α) : List α := log.dedup.rtake n

/-- A thing moved or added to the end of a list of at most `n`. -/
def remember (n : ℕ) (held : List α) (a : α) : List α := (held.filter (· ≠ a) ++ [a]).rtake n

/-! ## What is recent -/

theorem nodup_recent (n : ℕ) (log : List α) : (recent n log).Nodup :=
  (List.nodup_dedup log).sublist (List.drop_sublist _ _)

theorem length_recent (n : ℕ) (log : List α) : (recent n log).length = min n log.dedup.length := by
  rw [recent, List.rtake, List.length_drop]
  omega

theorem dedup_concat (log : List α) (a : α) :
    (log ++ [a]).dedup = log.dedup.filter (· ≠ a) ++ [a] := by
  induction log with
  | nil => rfl
  | cons b log ih =>
    rw [List.cons_append]
    by_cases hlog : b ∈ log
    · rw [List.dedup_cons_of_mem hlog, List.dedup_cons_of_mem (List.mem_append_left _ hlog), ih]
    · rw [List.dedup_cons_of_notMem hlog]
      by_cases hb : b = a
      · subst hb
        rw [List.dedup_cons_of_mem (by simp), ih]
        simp
      · rw [List.dedup_cons_of_notMem (by simp [hlog, hb]), ih]
        simp [hb]

/-- Distinct things stand in the order of their last occurrence. -/
theorem pairwise_dedup (log : List α) :
    log.dedup.Pairwise fun a b => log.reverse.idxOf b < log.reverse.idxOf a := by
  induction log with
  | nil => exact List.Pairwise.nil
  | cons c log ih =>
    have hindex : ∀ d ∈ log, (c :: log).reverse.idxOf d = log.reverse.idxOf d := by
      intro d hd
      rw [List.reverse_cons, List.idxOf_append_of_mem (List.mem_reverse.mpr hd)]
    have hkept : log.dedup.Pairwise fun a b =>
        (c :: log).reverse.idxOf b < (c :: log).reverse.idxOf a := by
      refine ih.imp_of_mem fun {a b} ha hb h => ?_
      rw [hindex a (List.mem_dedup.mp ha), hindex b (List.mem_dedup.mp hb)]
      exact h
    by_cases hc : c ∈ log
    · rw [List.dedup_cons_of_mem hc]
      exact hkept
    · rw [List.dedup_cons_of_notMem hc]
      refine List.pairwise_cons.mpr ⟨fun b hb => ?_, hkept⟩
      have hb := List.mem_dedup.mp hb
      rw [hindex b hb, List.reverse_cons, List.idxOf_append_of_notMem (by simpa using hc)]
      have := List.idxOf_lt_length_iff.mpr (List.mem_reverse.mpr hb)
      omega

theorem pairwise_recent (n : ℕ) (log : List α) :
    (recent n log).Pairwise fun a b => log.reverse.idxOf b < log.reverse.idxOf a :=
  (pairwise_dedup log).sublist (List.drop_sublist _ _)

/-! ## Keeping up -/

/-- At most one of distinct things is taken out. -/
theorem length_filter_ne (h : held.Nodup) (a : α) :
    held.length ≤ (held.filter (· ≠ a)).length + 1 := by
  have hcount := List.nodup_iff_count_le_one.mp h a
  have hsplit := List.length_eq_length_filter_add (l := held) (· == a)
  have hne : held.filter (fun b => !b == a) = held.filter (· ≠ a) := by
    refine List.filter_congr fun b _ => ?_
    rw [decide_not]
    rfl
  rw [List.count_eq_length_filter] at hcount
  rw [hne] at hsplit
  omega

omit [DecidableEq α] in
/-- The end of a list is that of what is put before it, as far as it reaches. -/
theorem rtake_append {left right : List α} (h : n ≤ right.length) :
    (left ++ right).rtake n = right.rtake n := by
  have hlength : left.length + right.length - n = left.length + (right.length - n) := by omega
  rw [List.rtake, List.length_append, hlength, List.drop_append, List.drop_eq_nil_of_le (by omega)]
  simp [List.rtake]

/-- The recent things follow from those before. -/
theorem recent_concat (n : ℕ) (log : List α) (a : α) :
    recent (n + 1) (log ++ [a]) = remember (n + 1) (recent (n + 1) log) a := by
  rw [recent, remember, dedup_concat, List.rtake_concat_succ, List.rtake_concat_succ]
  congr 1
  have hhalves : log.dedup = log.dedup.take (log.dedup.length - (n + 1)) ++ recent (n + 1) log :=
    (List.take_append_drop _ _).symm
  rcases Nat.lt_or_ge n log.dedup.length with hlong | hshort
  · have hkept := length_filter_ne (nodup_recent (n + 1) log) a
    rw [length_recent] at hkept
    conv_lhs => rw [hhalves, List.filter_append]
    exact rtake_append (by omega)
  · have hall : recent (n + 1) log = log.dedup := by
      rw [recent, List.rtake, Nat.sub_eq_zero_of_le (by omega), List.drop_zero]
    rw [hall]

/-- A thing that is held moves to the end, and every other one stays. -/
theorem remember_of_mem (hlength : held.length ≤ n) (ha : a ∈ held) :
    remember n held a = held.filter (· ≠ a) ++ [a] := by
  have hfewer : (held.filter (· ≠ a)).length < held.length :=
    List.length_filter_lt_length_iff_exists.mpr ⟨a, ha, by simp⟩
  rw [remember, List.rtake, List.length_append, List.length_singleton, Nat.sub_eq_zero_of_le (by omega),
    List.drop_zero]

end Blip.Recency
