import Mathlib.Data.List.InsertIdx
import Mathlib.Data.List.Sort
import Mathlib.Tactic.Linarith

/-!
# Rankings of a finite set

`Ranked L f` says that `f` numbers the elements of the duplicate-free list `L`
by `1, …, L.length`, in order. Taking an element out closes the gap
(`Ranked.erase`), putting one in at a position opens one (`Ranked.insertIdx`),
and the two together are a move (`Ranked.move`), whose effect on the numbers is
one shift of a range. `Ranked.eq_of_sorted` recovers `L` from the numbers.
-/

namespace UnifiedSearch.Lib

variable {κ : Type*}

/-- `f` numbers the elements of `L` by `1, …, L.length`, in order. -/
structure Ranked (L : List κ) (f : κ → ℤ) : Prop where
  nodup : L.Nodup
  rank : ∀ (i : ℕ) (h : i < L.length), f L[i] = i + 1

instance [DecidableEq κ] (L : List κ) (f : κ → ℤ) : Decidable (Ranked L f) :=
  decidable_of_iff (L.Nodup ∧ ∀ i : Fin L.length, f L[i] = i + 1)
    ⟨fun h => ⟨h.1, fun i hi => h.2 ⟨i, hi⟩⟩, fun h => ⟨h.nodup, fun i => h.rank i i.2⟩⟩

namespace Ranked

variable {L : List κ} {f g : κ → ℤ} {a x y : κ}

theorem range (h : Ranked L f) (hx : x ∈ L) : 1 ≤ f x ∧ f x ≤ L.length := by
  obtain ⟨i, hi, rfl⟩ := List.getElem_of_mem hx
  rw [h.rank i hi]; omega

theorem inj (h : Ranked L f) (hx : x ∈ L) (hy : y ∈ L) (e : f x = f y) : x = y := by
  obtain ⟨i, hi, rfl⟩ := List.getElem_of_mem hx
  obtain ⟨j, hj, rfl⟩ := List.getElem_of_mem hy
  rw [h.rank i hi, h.rank j hj] at e
  have : i = j := by omega
  subst this; rfl

theorem exists_rank (h : Ranked L f) {k : ℤ} (h1 : 1 ≤ k) (h2 : k ≤ L.length) :
    ∃ x ∈ L, f x = k := by
  have hi : (k - 1).toNat < L.length := by omega
  exact ⟨L[(k - 1).toNat], List.getElem_mem hi, by rw [h.rank _ hi]; omega⟩

theorem congr (h : Ranked L f) (e : ∀ x ∈ L, g x = f x) : Ranked L g :=
  ⟨h.nodup, fun i hi => by rw [e _ (List.getElem_mem hi), h.rank i hi]⟩

theorem pairwise_lt (h : Ranked L f) : L.Pairwise (fun x y => f x < f y) := by
  rw [List.pairwise_iff_getElem]
  intro i j hi hj hij
  rw [h.rank i hi, h.rank j hj]; omega

/-- A list with the elements of `L`, sorted by `f`, is `L`. -/
theorem eq_of_sorted (h : Ranked L f) {l : List κ} (hn : l.Nodup)
    (hs : l.Pairwise (fun x y => f x ≤ f y)) (hm : ∀ x, x ∈ l ↔ x ∈ L) : l = L := by
  have hp : l.Perm L := (List.perm_ext_iff_of_nodup hn h.nodup).2 hm
  refine hp.eq_of_pairwise (fun x y hx hy h1 h2 => ?_) hs (h.pairwise_lt.imp le_of_lt)
  exact h.inj ((hm x).1 hx) hy (le_antisymm h1 h2)

/-- Numbers that are pairwise different and exactly `1, …, n` rank the list sorted by them. -/
theorem of_sorted (hs : L.Pairwise (fun x y => f x ≤ f y)) (hn : (L.map f).Nodup)
    (hr : ∀ k, k ∈ L.map f ↔ 1 ≤ k ∧ k ≤ L.length) : Ranked L f := by
  have hup : ((List.range L.length).map fun i : ℕ => (i : ℤ) + 1).Pairwise (· ≤ ·) :=
    List.pairwise_map.2 (List.pairwise_lt_range.imp fun h => by omega)
  have hnd : ((List.range L.length).map fun i : ℕ => (i : ℤ) + 1).Nodup :=
    List.nodup_range.map fun a b h => by simpa using h
  have hp : (L.map f).Perm ((List.range L.length).map fun i : ℕ => (i : ℤ) + 1) := by
    refine (List.perm_ext_iff_of_nodup hn hnd).2 fun k => ?_
    rw [hr, List.mem_map]
    refine ⟨fun hk => ⟨(k - 1).toNat, List.mem_range.2 (by omega), by omega⟩, ?_⟩
    rintro ⟨i, hi, rfl⟩
    have := List.mem_range.1 hi
    omega
  have he := hp.eq_of_pairwise (fun x y _ _ h1 h2 => le_antisymm h1 h2)
    (List.pairwise_map.2 hs) hup
  refine ⟨hn.of_map, fun i hi => ?_⟩
  have := List.getElem_of_eq he (i := i) (by simpa using hi)
  simpa using this

/-- The numbers of a ranked list, as a set: `1, …, n`. -/
theorem mem_map_iff (h : Ranked L f) (k : ℤ) : k ∈ L.map f ↔ 1 ≤ k ∧ k ≤ L.length := by
  rw [List.mem_map]
  constructor
  · rintro ⟨x, hx, rfl⟩; exact h.range hx
  · rintro ⟨h1, h2⟩; exact h.exists_rank h1 h2

theorem nodup_map (h : Ranked L f) : (L.map f).Nodup :=
  h.nodup.map_on fun _ hx _ hy e => h.inj hx hy e

theorem append_singleton (h : Ranked L f) (ha : a ∉ L) (hg : ∀ x ∈ L, g x = f x)
    (hga : g a = L.length + 1) : Ranked (L ++ [a]) g := by
  refine ⟨List.nodup_append_comm.1 (List.nodup_cons.2 ⟨ha, h.nodup⟩), fun i hi => ?_⟩
  rcases Nat.lt_or_ge i L.length with hlt | hge
  · rw [List.getElem_append_left hlt, hg _ (List.getElem_mem hlt), h.rank i hlt]
  · have hi' : i = L.length := by
      rw [List.length_append, List.length_singleton] at hi; omega
    subst hi'
    rw [List.getElem_append_right (by omega)]
    simpa using hga

variable [DecidableEq κ]

/-- Taking `a` out moves every later element up by one. -/
theorem erase (h : Ranked L f) (ha : a ∈ L) :
    Ranked (L.erase a) (fun x => if f a ≤ f x then f x - 1 else f x) := by
  obtain ⟨k, hk, rfl⟩ := List.getElem_of_mem ha
  rw [h.nodup.erase_getElem k hk]
  refine ⟨h.nodup.sublist (List.eraseIdx_sublist L k), fun i hi => ?_⟩
  rw [List.length_eraseIdx_of_lt hk] at hi
  rw [h.rank k hk]
  rcases Nat.lt_or_ge i k with hik | hik
  · rw [List.getElem_eraseIdx_of_lt _ hik, h.rank i (by omega), if_neg (by omega)]
  · rw [List.getElem_eraseIdx_of_ge _ hik, h.rank (i + 1) (by omega), if_pos (by omega)]
    push_cast; omega

/-- Putting `a` in at position `t` moves every element from `t` on down by one. -/
theorem insertIdx (h : Ranked L f) (ha : a ∉ L) {t : ℤ} (h1 : 1 ≤ t) (h2 : t ≤ L.length + 1) :
    Ranked (L.insertIdx (t - 1).toNat a)
      (fun x => if x = a then t else if t ≤ f x then f x + 1 else f x) := by
  have hp : (t - 1).toNat ≤ L.length := by omega
  refine ⟨((List.perm_insertIdx a L hp).nodup_iff).2 (List.nodup_cons.2 ⟨ha, h.nodup⟩),
    fun i hi => ?_⟩
  rw [List.length_insertIdx_of_le_length hp] at hi
  have hne : ∀ j (hj : j < L.length), L[j] ≠ a := fun j hj e => ha (e ▸ List.getElem_mem hj)
  rcases Nat.lt_trichotomy i (t - 1).toNat with hit | rfl | hit
  · rw [List.getElem_insertIdx_of_lt hit, if_neg (hne i (by omega)), h.rank i (by omega),
      if_neg (by omega)]
  · rw [List.getElem_insertIdx_self, if_pos rfl]; omega
  · rw [List.getElem_insertIdx_of_gt hit, if_neg (hne _ (by omega)), h.rank _ (by omega),
      if_pos (by omega)]
    omega

/-- Moving `a` to position `t`: the elements between its old and its new position
shift by one towards the gap. -/
theorem move (h : Ranked L f) (ha : a ∈ L) {t : ℤ} (h1 : 1 ≤ t) (h2 : t ≤ L.length) :
    Ranked ((L.erase a).insertIdx (t - 1).toNat a) (fun x =>
      if x = a then t
      else if f a < f x ∧ f x ≤ t then f x - 1
      else if t ≤ f x ∧ f x < f a then f x + 1
      else f x) := by
  have hlen : ((L.erase a).length : ℤ) + 1 = L.length := by
    have := List.length_pos_of_mem ha
    rw [List.length_erase_of_mem ha]; omega
  have hna : a ∉ L.erase a := h.nodup.not_mem_erase
  refine ((h.erase ha).insertIdx hna h1 (by omega)).congr fun x hx => ?_
  by_cases hxa : x = a
  · simp [hxa]
  -- `x` is another element of `L`, so its number differs from that of `a`
  have hxL : x ∈ L := by
    rcases List.eq_or_mem_of_mem_insertIdx hx with e | e
    · exact absurd e hxa
    · exact List.mem_of_mem_erase e
  have hne : f x ≠ f a := fun e => hxa (h.inj hxL ha e)
  simp only [if_neg hxa]
  split_ifs <;> omega

end Ranked

end UnifiedSearch.Lib
