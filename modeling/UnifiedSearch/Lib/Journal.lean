import Mathlib.Data.List.Basic
import Mathlib.Tactic.TypeStar

/-!
# Journals

What has happened is a list, the newest entry last, and "`a` and later `b`" is
`[a, b] <+ journal`. The lemmas say what one more entry adds.
-/

namespace UnifiedSearch.Lib

open scoped List

variable {α : Type*} {l j : List α} {a b c e : α}

theorem sublist_concat_iff : l ++ [a] <+ j ++ [e] ↔ l ++ [a] <+ j ∨ a = e ∧ l <+ j := by
  rw [← List.reverse_sublist]
  simp only [List.reverse_append, List.reverse_singleton, List.singleton_append]
  rw [List.cons_sublist_cons', List.reverse_sublist, ← List.reverse_concat,
    List.reverse_sublist]

theorem pair_sublist_concat : [a, b] <+ j ++ [e] ↔ [a, b] <+ j ∨ b = e ∧ a ∈ j := by
  rw [← List.singleton_sublist (a := a)]
  exact sublist_concat_iff (l := [a])

theorem triple_sublist_concat :
    [a, b, c] <+ j ++ [e] ↔ [a, b, c] <+ j ∨ c = e ∧ [a, b] <+ j :=
  sublist_concat_iff (l := [a, b])

theorem mem_of_pair_sublist (h : [a, b] <+ j) : a ∈ j ∧ b ∈ j :=
  ⟨h.subset List.mem_cons_self, h.subset (List.mem_cons_of_mem _ List.mem_cons_self)⟩

theorem pair_of_triple_sublist (h : [a, b, c] <+ j) : [a, b] <+ j :=
  .trans (List.sublist_append_left [a, b] [c]) h

theorem eraseDups_concat [DecidableEq α] :
    (l ++ [a]).eraseDups = if a ∈ l then l.eraseDups else l.eraseDups ++ [a] := by
  have hone : [a].eraseDups = [a] := List.eraseDups_cons
  rw [List.eraseDups_append]
  by_cases ha : a ∈ l <;> simp [List.removeAll, ha, hone]

/-- An entry that is never followed by itself is there at most once. -/
theorem count_le_one [DecidableEq α] (h : ¬ [a, a] <+ j) : j.count a ≤ 1 := by
  by_contra hlt
  exact h (List.replicate_sublist_iff.2 (Nat.lt_of_not_le hlt))

end UnifiedSearch.Lib
