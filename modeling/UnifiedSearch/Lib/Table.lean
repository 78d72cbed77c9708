import Mathlib.Data.List.Sort
import UnifiedSearch.Lib.Ranking

/-!
# Tables with a primary key

`Table key` is a list of rows with pairwise different keys, in insertion
order. Its writes are the SQL ones: an insert that a present key refuses, an
update of the rows that meet a condition, a delete. `find` reads a row by its
key; every write has one lemma about `find`. `orderedKeys` is
`SELECT key … WHERE p ORDER BY f`; it is tied to rankings by
`ranked_orderedKeys_iff` and `orderedKeys_eq`.
-/

namespace UnifiedSearch.Lib

/-- Rows with pairwise different keys, in insertion order. -/
structure Table {ρ κ : Type} (key : ρ → κ) where
  rows : List ρ
  nodup : (rows.map key).Nodup

namespace Table

variable {ρ κ : Type} {key : ρ → κ}

def empty : Table key := ⟨[], List.nodup_nil⟩

/-- The row with key `k`. -/
def find [DecidableEq κ] (t : Table key) (k : κ) : Option ρ := t.rows.find? fun r => key r = k

/-- `INSERT`: refused when the key is there. -/
def insert [DecidableEq κ] (t : Table key) (r : ρ) : Option (Table key) :=
  if h : key r ∈ t.rows.map key then none
  else some ⟨t.rows ++ [r], by
    rw [List.map_append, List.nodup_append_comm]
    exact List.nodup_cons.2 ⟨h, t.nodup⟩⟩

/-- Rewrite every row, keeping its key. -/
def mapRows (t : Table key) (g : ρ → ρ) (hg : ∀ r, key (g r) = key r) : Table key :=
  ⟨t.rows.map g, by
    have : key ∘ g = key := funext hg
    rw [List.map_map, this]; exact t.nodup⟩

/-- `UPDATE … WHERE p`, on columns other than the key. -/
def update (t : Table key) (p : ρ → Bool) (g : ρ → ρ) (hg : ∀ r, key (g r) = key r) : Table key :=
  t.mapRows (fun r => if p r then g r else r) fun r => by split <;> simp [hg]

/-- `DELETE … WHERE p`. -/
def delete (t : Table key) (p : ρ → Bool) : Table key :=
  ⟨t.rows.filter fun r => !p r, t.nodup.sublist (List.filter_sublist.map key)⟩

/-- `SELECT * … ORDER BY f ASC`. -/
def orderBy (t : Table key) (f : ρ → ℤ) : List ρ :=
  t.rows.insertionSort fun a b => f a ≤ f b

/-- `SELECT key … WHERE p ORDER BY f ASC`. -/
def orderedKeys (t : Table key) (p : ρ → Bool) (f : ρ → ℤ) : List κ :=
  ((t.orderBy f).filter p).map key

variable {t : Table key} {k : κ} {r : ρ} {p : ρ → Bool} {f : ρ → ℤ}

/-! ## Ordered reads -/

theorem orderBy_perm (t : Table key) (f : ρ → ℤ) : (t.orderBy f).Perm t.rows :=
  List.perm_insertionSort _ _

theorem orderBy_sorted (t : Table key) (f : ρ → ℤ) :
    (t.orderBy f).Pairwise fun a b => f a ≤ f b := by
  have : IsTrans ρ (fun a b => f a ≤ f b) := ⟨fun _ _ _ => le_trans⟩
  have : Std.Total (fun a b : ρ => f a ≤ f b) := ⟨fun a b => le_total (f a) (f b)⟩
  exact List.pairwise_insertionSort _ _

theorem mem_orderBy : r ∈ t.orderBy f ↔ r ∈ t.rows := (t.orderBy_perm f).mem_iff

/-- What is less comes before. -/
theorem pair_sublist_orderBy {r' : ρ} (hr : r ∈ t.rows) (hr' : r' ∈ t.rows) (h : f r < f r') :
    [r, r'].Sublist (t.orderBy f) := by
  have hs := t.orderBy_sorted f
  obtain ⟨pre, post, hl⟩ := List.append_of_mem (mem_orderBy (f := f) |>.2 hr)
  have hmem := mem_orderBy (f := f) |>.2 hr'
  rw [hl] at hs hmem ⊢
  have hpost : r' ∈ post := by
    rcases List.mem_append.1 hmem with hpre | hmem
    · exact absurd ((List.pairwise_append.1 hs).2.2 r' hpre r List.mem_cons_self) (not_le.2 h)
    · rcases List.mem_cons.1 hmem with rfl | hpost
      · exact absurd h (lt_irrefl _)
      · exact hpost
  exact ((List.singleton_sublist.2 hpost).cons_cons r).trans (List.sublist_append_right pre _)

theorem nodup_keys_orderBy (t : Table key) (f : ρ → ℤ) : ((t.orderBy f).map key).Nodup :=
  (((t.orderBy_perm f).map key).nodup_iff).2 t.nodup

theorem nodup_orderedKeys (t : Table key) (p : ρ → Bool) (f : ρ → ℤ) : (t.orderedKeys p f).Nodup :=
  (t.nodup_keys_orderBy f).sublist (List.filter_sublist.map key)

theorem length_orderedKeys : (t.orderedKeys p f).length = (t.rows.filter p).length := by
  rw [orderedKeys, List.length_map]
  exact ((t.orderBy_perm f).filter p).length_eq

/-- `g` reads the ordering column by key. -/
def Reads (t : Table key) (f : ρ → ℤ) (g : κ → ℤ) : Prop := ∀ r ∈ t.rows, g (key r) = f r

variable {g : κ → ℤ}

theorem map_orderedKeys (hg : t.Reads f g) :
    (t.orderedKeys p f).map g = ((t.orderBy f).filter p).map f := by
  rw [orderedKeys, List.map_map]
  exact List.map_congr_left fun r hr => hg r (mem_orderBy.1 (List.mem_filter.1 hr).1)

theorem sorted_orderedKeys (hg : t.Reads f g) :
    (t.orderedKeys p f).Pairwise fun x y => g x ≤ g y := by
  have h : ((t.orderedKeys p f).map g).Pairwise (· ≤ ·) := by
    rw [map_orderedKeys hg, List.pairwise_map]
    exact (t.orderBy_sorted f).filter p
  exact List.pairwise_map.1 h

/-- The ordered read is ranked iff the column is pairwise different and exactly `1, …, n` on it. -/
theorem ranked_orderedKeys_iff (hg : t.Reads f g) :
    Ranked (t.orderedKeys p f) g ↔ ((t.rows.filter p).map f).Nodup ∧
      ∀ k, k ∈ (t.rows.filter p).map f ↔ 1 ≤ k ∧ k ≤ ((t.rows.filter p).length : ℤ) := by
  have hp : ((t.orderedKeys p f).map g).Perm ((t.rows.filter p).map f) := by
    rw [map_orderedKeys hg]
    exact ((t.orderBy_perm f).filter p).map f
  constructor
  · intro h
    refine ⟨hp.nodup_iff.1 h.nodup_map, fun k => ?_⟩
    rw [← hp.mem_iff, h.mem_map_iff, length_orderedKeys]
  · rintro ⟨hn, hr⟩
    refine Ranked.of_sorted (sorted_orderedKeys hg) (hp.nodup_iff.2 hn) fun k => ?_
    rw [hp.mem_iff, hr, length_orderedKeys]

variable [DecidableEq κ]

/-! ## Lookups -/

theorem find_eq_some_iff : t.find k = some r ↔ r ∈ t.rows ∧ key r = k := by
  obtain ⟨rows, nodup⟩ := t
  simp only [find]
  induction rows with
  | nil => simp
  | cons a l ih =>
    obtain ⟨ha, hl⟩ := List.nodup_cons.1 nodup
    rw [List.find?_cons]
    by_cases hk : key a = k
    · simp only [hk, decide_true, Option.some.injEq, List.mem_cons]
      refine ⟨fun h => h ▸ ⟨.inl rfl, hk⟩, ?_⟩
      rintro ⟨rfl | h, e⟩
      · rfl
      · exact absurd (List.mem_map.2 ⟨r, h, e.trans hk.symm⟩) ha
    · simp only [hk, decide_false, ih hl, List.mem_cons]
      refine ⟨fun ⟨h, e⟩ => ⟨.inr h, e⟩, ?_⟩
      rintro ⟨rfl | h, e⟩
      · exact absurd e hk
      · exact ⟨h, e⟩

theorem find_of_mem (h : r ∈ t.rows) : t.find (key r) = some r := find_eq_some_iff.2 ⟨h, rfl⟩

theorem mem_of_find (h : t.find k = some r) : r ∈ t.rows := (find_eq_some_iff.1 h).1

theorem key_of_find (h : t.find k = some r) : key r = k := (find_eq_some_iff.1 h).2

theorem find_eq_none_iff : t.find k = none ↔ k ∉ t.rows.map key := by
  simp [find]

/-- `SELECT * … WHERE key = k`. -/
theorem filter_key : t.rows.filter (fun r => key r = k) = (t.find k).toList := by
  obtain ⟨rows, nodup⟩ := t
  unfold find
  induction rows with
  | nil => rfl
  | cons a l ih =>
    obtain ⟨ha, hl⟩ := List.nodup_cons.1 nodup
    by_cases hk : key a = k
    · have hno : ∀ r ∈ l, ¬key r = k := fun r hr e => ha (List.mem_map.2 ⟨r, hr, e.trans hk.symm⟩)
      simpa [hk] using hno
    · simpa [hk] using ih hl

@[simp] theorem find_empty : (empty : Table key).find k = none := rfl

theorem find_mapRows (g : ρ → ρ) (hg : ∀ r, key (g r) = key r) :
    (t.mapRows g hg).find k = (t.find k).map g := by
  unfold find mapRows
  rw [List.find?_map]
  congr 2
  funext r
  simp [hg]

omit [DecidableEq κ] in
theorem mapRows_eq_self {g : ρ → ρ} {hg : ∀ r, key (g r) = key r} :
    t.mapRows g hg = t ↔ ∀ r ∈ t.rows, g r = r := by
  have hid : t.mapRows (fun r => r) (fun _ => rfl) = t := by
    unfold mapRows
    simp
  conv_lhs => rhs; rw [← hid]
  unfold mapRows
  rw [mk.injEq]
  exact List.map_inj_left

theorem find_insert {t' : Table key} (h : t.insert r = some t') :
    t'.find k = if key r = k then some r else t.find k := by
  unfold insert at h
  split at h
  · cases h
  · next hr =>
    cases h
    simp only [find, List.find?_append, List.find?_singleton]
    by_cases hk : key r = k
    · have : t.find k = none := find_eq_none_iff.2 (hk ▸ hr)
      unfold find at this
      simp [this, hk]
    · simp [hk]

theorem insert_eq_none_iff : t.insert r = none ↔ t.find (key r) ≠ none := by
  rw [ne_eq, find_eq_none_iff, not_not]
  unfold insert
  split <;> simp_all

theorem rows_insert {t' : Table key} (h : t.insert r = some t') : t'.rows = t.rows ++ [r] := by
  unfold insert at h
  split at h <;> cases h
  rfl

/-! ## Ordered reads -/

theorem mem_orderedKeys : k ∈ t.orderedKeys p f ↔ ∃ r, t.find k = some r ∧ p r = true := by
  simp only [orderedKeys, List.mem_map, List.mem_filter, mem_orderBy, find_eq_some_iff]
  exact ⟨fun ⟨r, ⟨h, hp⟩, e⟩ => ⟨r, ⟨h, e⟩, hp⟩, fun ⟨r, ⟨h, e⟩, hp⟩ => ⟨r, ⟨h, hp⟩, e⟩⟩

/-- A ranked list of the keys that meet `p` is the ordered read. -/
theorem orderedKeys_eq (hg : t.Reads f g) {L : List κ} (hL : Ranked L g)
    (hm : ∀ k, k ∈ L ↔ ∃ r, t.find k = some r ∧ p r = true) : t.orderedKeys p f = L :=
  hL.eq_of_sorted (t.nodup_orderedKeys p f) (sorted_orderedKeys hg)
    fun k => mem_orderedKeys.trans (hm k).symm

end Table

end UnifiedSearch.Lib
