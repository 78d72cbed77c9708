import Mathlib.Data.String.Basic
import Mathlib.Data.List.Sort

/-!
# Ordered maps

`OrdMap κ ν` is a map that is iterated in key order: its entries, strictly
sorted by key. One operation writes a key (`alter`); keeping an entry that is
there (`insert`) and overwriting it (`set`) are its two uses.
-/

namespace UnifiedSearch.Lib

/-- A finite map iterated in the order of its keys. -/
structure OrdMap (κ ν : Type) [LinearOrder κ] where
  entries : List (κ × ν)
  sorted : entries.Pairwise (fun a b => a.1 < b.1)

namespace OrdMap

variable {κ ν : Type} [LinearOrder κ]

/-- Write key `k`: `f` gets the value that was there. -/
def alterList (k : κ) (f : Option ν → ν) : List (κ × ν) → List (κ × ν)
  | [] => [(k, f none)]
  | (k', v) :: l =>
    if k < k' then (k, f none) :: (k', v) :: l
    else if k = k' then (k, f (some v)) :: l
    else (k', v) :: alterList k f l

theorem mem_keys_alterList {k x : κ} {f : Option ν → ν} {l : List (κ × ν)} :
    (∃ v, (x, v) ∈ alterList k f l) → x = k ∨ ∃ v, (x, v) ∈ l := by
  induction l with
  | nil => simp [alterList]
  | cons e l ih =>
    obtain ⟨k', v'⟩ := e
    simp only [alterList]
    split_ifs with h1 h2
    · rintro ⟨v, hv⟩
      rcases List.mem_cons.1 hv with e | hv
      · exact .inl (congrArg Prod.fst e)
      · exact .inr ⟨v, hv⟩
    · rintro ⟨v, hv⟩
      rcases List.mem_cons.1 hv with e | hv
      · exact .inl (congrArg Prod.fst e)
      · exact .inr ⟨v, List.mem_cons_of_mem _ hv⟩
    · rintro ⟨v, hv⟩
      rcases List.mem_cons.1 hv with e | hv
      · exact .inr ⟨v, e ▸ List.mem_cons_self⟩
      · exact (ih ⟨v, hv⟩).imp_right fun ⟨w, hw⟩ => ⟨w, List.mem_cons_of_mem _ hw⟩

theorem sorted_alterList {k : κ} {f : Option ν → ν} {l : List (κ × ν)}
    (h : l.Pairwise (fun a b => a.1 < b.1)) :
    (alterList k f l).Pairwise (fun a b => a.1 < b.1) := by
  induction l with
  | nil => simp [alterList]
  | cons e l ih =>
    obtain ⟨k', v'⟩ := e
    have hlt := (List.pairwise_cons.1 h).1
    simp only [alterList]
    split_ifs with h1 h2
    · refine List.pairwise_cons.2 ⟨fun a ha => ?_, h⟩
      rcases List.mem_cons.1 ha with rfl | ha
      · exact h1
      · exact h1.trans (hlt a ha)
    · subst h2
      exact List.pairwise_cons.2 ⟨hlt, h.of_cons⟩
    · refine List.pairwise_cons.2 ⟨fun a ha => ?_, ih h.of_cons⟩
      rcases mem_keys_alterList ⟨a.2, ha⟩ with e | ⟨v, hv⟩
      · rw [e]; exact lt_of_le_of_ne (not_lt.1 h1) (Ne.symm h2)
      · exact hlt (a.1, v) hv

def empty : OrdMap κ ν := ⟨[], List.Pairwise.nil⟩

/-- The value at `k`. -/
def find (m : OrdMap κ ν) (k : κ) : Option ν := m.entries.lookup k

def alter (m : OrdMap κ ν) (k : κ) (f : Option ν → ν) : OrdMap κ ν :=
  ⟨alterList k f m.entries, sorted_alterList m.sorted⟩

/-- `std::map::insert`: an entry that is there stays. -/
def insert (m : OrdMap κ ν) (k : κ) (v : ν) : OrdMap κ ν := m.alter k fun o => o.getD v

/-- `std::map::operator[]` on the left of an assignment. -/
def set (m : OrdMap κ ν) (k : κ) (v : ν) : OrdMap κ ν := m.alter k fun _ => v

/-- `m[k].push_back(v)`, in a map of lists. -/
def push (m : OrdMap κ (List ν)) (k : κ) (v : ν) : OrdMap κ (List ν) :=
  m.alter k fun vs => vs.getD [] ++ [v]

def erase (m : OrdMap κ ν) (k : κ) : OrdMap κ ν :=
  ⟨m.entries.filter (fun e => e.1 ≠ k), m.sorted.filter _⟩

def keys (m : OrdMap κ ν) : List κ := m.entries.map Prod.fst

def values (m : OrdMap κ ν) : List ν := m.entries.map Prod.snd

/-! ## Lookups -/

section Lookup

variable {m : OrdMap κ ν} {k x : κ} {v : ν}

@[simp] theorem find_empty : (empty : OrdMap κ ν).find k = none := rfl

theorem lookup_cons {k' : κ} {l : List (κ × ν)} :
    ((k', v) :: l).lookup x = if x = k' then some v else l.lookup x := by
  rw [List.lookup_cons]
  by_cases hx : x = k'
  · simp [hx]
  · simp [beq_eq_false_iff_ne.2 hx, hx]

theorem lookup_alterList (f : Option ν → ν) {l : List (κ × ν)}
    (h : l.Pairwise (fun a b => a.1 < b.1)) :
    (alterList k f l).lookup x = if x = k then some (f (l.lookup k)) else l.lookup x := by
  induction l with
  | nil => rw [alterList, lookup_cons]; rfl
  | cons e l ih =>
    obtain ⟨k', v'⟩ := e
    have hlt := (List.pairwise_cons.1 h).1
    unfold alterList
    by_cases h1 : k < k'
    · -- `k` comes before every key of the list, so it was not there
      have hno : ((k', v') :: l).lookup k = none := by
        rw [List.lookup_eq_none_iff]
        intro p hp
        have hkp : k < p.1 := by
          rcases List.mem_cons.1 hp with rfl | hp
          · exact h1
          · exact h1.trans (hlt p hp)
        simpa using hkp.ne
      rw [if_pos h1, lookup_cons, hno]
    by_cases h2 : k = k'
    · subst h2
      rw [if_neg h1, if_pos rfl]
      simp only [lookup_cons, if_true]
      split_ifs <;> rfl
    · rw [if_neg h1, if_neg h2]
      simp only [lookup_cons, ih h.of_cons, if_neg h2]
      by_cases hx : x = k
      · subst hx; simp [h2]
      · simp [hx]

theorem find_alter (f : Option ν → ν) :
    (m.alter k f).find x = if x = k then some (f (m.find k)) else m.find x :=
  lookup_alterList f m.sorted

theorem find_insert (h : m.find k = none) :
    (m.insert k v).find x = if x = k then some v else m.find x := by
  rw [insert, find_alter, h]; rfl

/-- Filing the values of `l` by key keeps them in order, and makes an entry where there is one. -/
theorem find_foldl_push (l : List (κ × ν)) (m : OrdMap κ (List ν)) :
    (l.foldl (fun m e => m.push e.1 e.2) m).find x =
      if (l.filter (·.1 = x)).map (·.2) = [] then m.find x
      else some ((m.find x).getD [] ++ (l.filter (·.1 = x)).map (·.2)) := by
  induction l generalizing m with
  | nil => rfl
  | cons e l ih =>
    have hpush : (m.push e.1 e.2).find x =
        if e.1 = x then some ((m.find x).getD [] ++ [e.2]) else m.find x := by
      rw [push, find_alter]
      by_cases he : e.1 = x
      · rw [if_pos he, if_pos he.symm, he]
      · rw [if_neg he, if_neg (Ne.symm he)]
    rw [List.foldl_cons, ih, hpush]
    by_cases he : e.1 = x
    · rw [if_pos he, List.filter_cons_of_pos (by simpa using he), List.map_cons,
        if_neg (List.cons_ne_nil _ _)]
      split_ifs with hnil
      · rw [hnil]
      · rw [Option.getD_some, List.append_assoc, List.singleton_append]
    · rw [if_neg he, List.filter_cons_of_neg (by simpa using he)]

theorem find_erase : (m.erase k).find x = if x = k then none else m.find x := by
  unfold find erase
  simp only
  induction m.entries with
  | nil => simp
  | cons e l ih =>
    obtain ⟨k', v'⟩ := e
    by_cases hk : k' = k
    · subst hk
      rw [List.filter_cons_of_neg (by simp), ih, lookup_cons]
      split_ifs <;> rfl
    · rw [List.filter_cons_of_pos (by simpa using hk), lookup_cons, lookup_cons, ih]
      by_cases hx : x = k'
      · subst hx; simp [hk]
      · simp [hx]

theorem mem_entries_iff : (k, v) ∈ m.entries ↔ m.find k = some v := by
  obtain ⟨l, hs⟩ := m
  simp only [find]
  induction l with
  | nil => simp
  | cons e l ih =>
    obtain ⟨k', v'⟩ := e
    obtain ⟨hlt, hl⟩ := List.pairwise_cons.1 hs
    rw [List.mem_cons, lookup_cons]
    by_cases hk : k = k'
    · subst hk
      simp only [if_true, Option.some.injEq, Prod.mk.injEq, true_and]
      refine ⟨?_, fun h => .inl h.symm⟩
      rintro (rfl | h)
      · rfl
      · exact absurd (hlt _ h) (lt_irrefl _)
    · simp [hk, ih hl]

theorem mem_keys_iff : k ∈ m.keys ↔ (m.find k).isSome := by
  rw [keys, List.mem_map, Option.isSome_iff_exists]
  constructor
  · rintro ⟨⟨k, v⟩, h, rfl⟩; exact ⟨v, mem_entries_iff.1 h⟩
  · rintro ⟨v, h⟩; exact ⟨(k, v), mem_entries_iff.2 h, rfl⟩

theorem mem_values_iff : v ∈ m.values ↔ ∃ k, m.find k = some v := by
  rw [values, List.mem_map]
  constructor
  · rintro ⟨⟨k, v'⟩, h, rfl⟩; exact ⟨k, mem_entries_iff.1 h⟩
  · rintro ⟨k, h⟩; exact ⟨(k, v), mem_entries_iff.2 h, rfl⟩

end Lookup

/-! ## Maps over a set of records

`m.Indexes P key val`: the entries of `m` are those of the records with `P`. -/

section Indexes

variable {α : Type} {m : OrdMap κ ν} {P P' : α → Prop} {key : α → κ} {val : α → ν} {a : α}

def Indexes (m : OrdMap κ ν) (P : α → Prop) (key : α → κ) (val : α → ν) : Prop :=
  ∀ k v, m.find k = some v ↔ ∃ a, P a ∧ key a = k ∧ val a = v

theorem Indexes.find (h : m.Indexes P key val) (ha : P a) : m.find (key a) = some (val a) :=
  (h _ _).2 ⟨a, ha, rfl, rfl⟩

theorem Indexes.isSome_find (h : m.Indexes P key val) {k : κ} :
    (m.find k).isSome ↔ ∃ a, P a ∧ key a = k := by
  rw [Option.isSome_iff_exists]
  constructor
  · rintro ⟨v, hv⟩
    obtain ⟨a, ha, hk, -⟩ := (h k v).1 hv
    exact ⟨a, ha, hk⟩
  · rintro ⟨a, ha, rfl⟩
    exact ⟨val a, h.find ha⟩

theorem indexes_empty (h : ∀ a, ¬ P a) : (empty : OrdMap κ ν).Indexes P key val := by
  intro k v
  constructor
  · nofun
  · rintro ⟨a, ha, -⟩; exact absurd ha (h a)

theorem Indexes.congr (h : m.Indexes P key val) (hP : ∀ a, P' a ↔ P a) :
    m.Indexes P' key val := by
  intro k v
  simp only [hP, h k v]

theorem Indexes.insert (h : m.Indexes P key val) (hno : ∀ b, P b → key b ≠ key a)
    (hP : ∀ b, P' b ↔ P b ∨ b = a) : (m.insert (key a) (val a)).Indexes P' key val := by
  have hnone : m.find (key a) = none := by
    rw [← Option.not_isSome_iff_eq_none, h.isSome_find]
    rintro ⟨b, hb, hk⟩
    exact hno b hb hk
  intro k v
  rw [find_insert hnone]
  simp only [hP, or_and_right, exists_or, exists_eq_left]
  by_cases hk : k = key a
  · subst hk
    rw [if_pos rfl, Option.some.injEq]
    constructor
    · exact fun e => .inr ⟨rfl, e⟩
    · rintro (⟨b, hb, hk, -⟩ | ⟨-, e⟩)
      · exact absurd hk (hno b hb)
      · exact e
  · rw [if_neg hk, h k v]
    constructor
    · exact .inl
    · rintro (hb | ⟨e, -⟩)
      · exact hb
      · exact absurd e.symm hk

theorem Indexes.erase (h : m.Indexes P key val) (hone : ∀ b, P b → key b = key a → b = a)
    (hP : ∀ b, P' b ↔ P b ∧ b ≠ a) : (m.erase (key a)).Indexes P' key val := by
  intro k v
  rw [find_erase]
  simp only [hP]
  by_cases hk : k = key a
  · rw [if_pos hk]
    constructor
    · nofun
    · rintro ⟨b, ⟨hb, hne⟩, e, -⟩
      exact absurd (hone b hb (e.trans hk)) hne
  · rw [if_neg hk, h k v]
    refine exists_congr fun b => and_congr_left fun ⟨e, _⟩ => ?_
    exact ⟨fun hb => ⟨hb, fun hba => hk (by rw [← e, hba])⟩, And.left⟩

end Indexes

end OrdMap

end UnifiedSearch.Lib
