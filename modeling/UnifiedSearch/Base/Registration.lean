import UnifiedSearch.Base.CategoryTable
import UnifiedSearch.Base.SearchManager

/-!
# What registrations do to the two copies

The enabled flag of a category lives in its row and in its objects. `Matches`
says that an object agrees with its row. Registering an object makes it match
(`Adjusted.matches_self`), and never breaks another match (`Adjusted.matches`);
`Backed` is what it takes: an object that is disabled has a row.
-/

namespace UnifiedSearch.Service

open Lib CategoryTable

variable {w : Service} {env : Env} {s t : SearchSetPtr} {p q : CategoryPtr} {id : String}

/-- The object agrees with the row that has its id. -/
def Matches (w : Service) (p : CategoryPtr) : Prop :=
  ∃ row, w.db.category.lookup (w.category p).id = some row ∧ row.enabled = (w.category p).enabled

/-- A disabled object has a row. -/
def Backed (w : Service) : Prop :=
  ∀ p, (w.category p).enabled = false →
    (w.db.category.find (.ofCStr (w.category p).id)).isSome

/-- The set `s` is attached and holds `p` under `id`. -/
def Holds (w : Service) (s : SearchSetPtr) (id : String) (p : CategoryPtr) : Prop :=
  s ∈ w.searchSets.values ∧ (w.set s).categories.find id = some p

/-! ## `adjustOrCreateCategory` on a shared category -/

/-- Everything one registration can do. -/
structure Adjusted (w w' : Service) (p : CategoryPtr) : Prop where
  sets : w'.sets = w.sets
  searchSets : w'.searchSets = w.searchSets
  next : w'.categories.next = w.categories.next
  others : ∀ q, q ≠ p → w'.category q = w.category q
  id : (w'.category p).id = (w.category p).id
  kept : ∀ k row, w.db.category.find k = some row → w'.db.category.find k = some row
  rows : w.db.category.rows <+: w'.db.category.rows
  items : w'.db.items = w.db.items
  row : ∃ row, w'.db.category.find (.ofCStr (w.category p).id) = some row ∧
    ((w'.category p).enabled = row.enabled ∨
      w.db.category.find (.ofCStr (w.category p).id) = none ∧ row.enabled = true ∧
        (w'.category p).enabled = (w.category p).enabled)

/-- The id has a row: the object takes what the row says. -/
theorem adjustOrCreateCategory_known {row : CategoryRow} (env : Env)
    (h : w.db.category.find (.ofCStr (w.category p).id) = some row) :
    w.adjustOrCreateCategory env p = w.write p { w.category p with
      name := row.name.val, rank := row.rank, enabled := row.enabled } := by
  unfold adjustOrCreateCategory
  rw [adjustOrCreateCategory_adjust h]
  rfl

/-- The id has no row: one is made, unless the statement fails, and the object gets its rank. -/
theorem adjustOrCreateCategory_new (env : Env)
    (h : w.db.category.find (.ofCStr (w.category p).id) = none) :
    ∃ t, w.db.category.insert (newRow w.db.category (w.category p)) = some t ∧
      w.adjustOrCreateCategory env p =
        { w.write p { w.category p with rank := w.db.category.maxRank.getD 0 + 1 } with
          db := ⟨{ w.db.toTables with
            category := if env.fault w.db.clock then w.db.category else t }, w.db.clock + 1⟩ } := by
  obtain ⟨t, ht, hadj⟩ := adjustOrCreateCategory_insert env.fault h
  refine ⟨t, ht, ?_⟩
  unfold adjustOrCreateCategory
  rw [hadj]

theorem adjustOrCreateCategory_unknown (env : Env)
    (h : w.db.category.find (.ofCStr (w.category p).id) = none) :
    ∃ t, w.db.category.insert (newRow w.db.category (w.category p)) = some t ∧
      w.adjustOrCreateCategory env.healthy p =
        { w.write p { w.category p with rank := w.db.category.maxRank.getD 0 + 1 } with
          db := ⟨{ w.db.toTables with category := t }, w.db.clock + 1⟩ } :=
  adjustOrCreateCategory_new env.healthy h

/-- Nothing is written but the database and the object, which keeps its id. -/
theorem adjustOrCreateCategory_frame (env : Env) (w : Service) (p : CategoryPtr) :
    ∃ db cate, w.adjustOrCreateCategory env p = { w.write p cate with db } ∧
      cate.id = (w.category p).id := by
  cases h : w.db.category.find (.ofCStr (w.category p).id) with
  | some row => exact ⟨_, _, adjustOrCreateCategory_known env h, rfl⟩
  | none =>
    obtain ⟨t, -, heq⟩ := adjustOrCreateCategory_new env h
    exact ⟨_, _, heq, rfl⟩

/-- The items and the rows there are stay. -/
theorem adjustOrCreateCategory_db (env : Env) (w : Service) (p : CategoryPtr) :
    (w.adjustOrCreateCategory env p).db.items = w.db.items ∧
      w.db.category.rows <+: (w.adjustOrCreateCategory env p).db.category.rows := by
  cases h : w.db.category.find (.ofCStr (w.category p).id) with
  | some row =>
    rw [adjustOrCreateCategory_known env h]
    exact ⟨rfl, List.prefix_rfl⟩
  | none =>
    obtain ⟨t, ht, heq⟩ := adjustOrCreateCategory_new env h
    rw [heq]
    refine ⟨rfl, ?_⟩
    dsimp only
    split_ifs
    · exact List.prefix_rfl
    · exact ⟨_, (Table.rows_insert ht).symm⟩

theorem adjusted (env : Env) (w : Service) (p : CategoryPtr) :
    Adjusted w (w.adjustOrCreateCategory env.healthy p) p := by
  cases h : w.db.category.find (.ofCStr (w.category p).id) with
  | some row =>
    rw [adjustOrCreateCategory_known _ h]
    refine ⟨rfl, rfl, rfl, fun q hq => ?_, ?_, fun _ _ h => h, List.prefix_rfl, rfl, row,
      h, .inl ?_⟩
    · rw [category_write, if_neg hq]
    · rw [category_write, if_pos rfl]
    · rw [category_write, if_pos rfl]
  | none =>
    obtain ⟨t, ht, heq⟩ := adjustOrCreateCategory_unknown env h
    have hcat (q : CategoryPtr) (db : Db) (cate : Category) :
        { w.write p cate with db }.category q = if q = p then cate else w.category q := rfl
    have hid : (newRow w.db.category (w.category p)).id = .ofCStr (w.category p).id := rfl
    rw [heq]
    refine ⟨rfl, rfl, rfl, fun q hq => ?_, ?_, fun k row hk => ?_,
      ⟨_, (Table.rows_insert ht).symm⟩, rfl, newRow w.db.category (w.category p),
      (Table.find_insert ht).trans (if_pos rfl), .inr ⟨h, rfl, ?_⟩⟩
    · rw [hcat, if_neg hq]
    · rw [hcat, if_pos rfl]
    · have hne : (newRow w.db.category (w.category p)).id ≠ k := fun e => by
        rw [← e, hid, h] at hk; cases hk
      exact (Table.find_insert ht).trans (by rw [if_neg hne, hk])
    · rw [hcat, if_pos rfl]

theorem lookup_mono {t t' : CategoryTable} {row : CategoryRow}
    (hkept : ∀ k row, t.find k = some row → t'.find k = some row) (h : t.lookup id = some row) :
    t'.lookup id = some row := by
  obtain ⟨-, rfl⟩ := lookup_eq_some_iff.1 h
  rw [lookup_val] at h ⊢
  exact hkept _ _ h

variable {w' : Service} (ha : Adjusted w w' q)
include ha

theorem Adjusted.category_id : (w'.category p).id = (w.category p).id := by
  by_cases hp : p = q
  · subst hp; exact ha.id
  · rw [ha.others p hp]

theorem Adjusted.backed (hb : w.Backed) : w'.Backed := by
  intro p hd
  by_cases hp : p = q
  · subst hp
    obtain ⟨row, hrow, -⟩ := ha.row
    rw [ha.id, hrow]; rfl
  · rw [ha.others p hp] at hd ⊢
    obtain ⟨row, hrow⟩ := Option.isSome_iff_exists.1 (hb p hd)
    rw [ha.kept _ _ hrow]; rfl

theorem Adjusted.matches_self (hb : w.Backed) (hn : NulFree (w.category q).id) : w'.Matches q := by
  obtain ⟨row, hrow, h⟩ := ha.row
  refine ⟨row, ?_, ?_⟩
  · rw [ha.id, lookup_eq_find hn, hrow]
  · rcases h with h | ⟨hnone, hen, hsame⟩
    · exact h.symm
    · -- a new row is enabled, and so is an object without a row
      rw [hen, hsame]
      by_contra hd
      have := hb q (by simpa using Ne.symm hd)
      rw [hnone] at this; cases this

theorem Adjusted.matches (hb : w.Backed) (h : w.Matches p) : w'.Matches p := by
  obtain ⟨row, hrow, hen⟩ := h
  by_cases hp : p = q
  · subst hp
    exact ha.matches_self hb (nulFree_of_lookup hrow)
  · unfold Matches
    rw [ha.others p hp]
    exact ⟨row, lookup_mono ha.kept hrow, hen⟩

omit ha

/-! ## Registering a list of them -/

/-- What `addSearchSet` does with the categories of the set. -/
structure Registers (w w' : Service) (l : List CategoryPtr) : Prop where
  sets : w'.sets = w.sets
  searchSets : w'.searchSets = w.searchSets
  next : w'.categories.next = w.categories.next
  category_id : ∀ p, (w'.category p).id = (w.category p).id
  backed : w'.Backed
  matches_mono : ∀ p, w.Matches p → w'.Matches p
  matches_new : ∀ p ∈ l, NulFree (w.category p).id → w'.Matches p

theorem registers (env : Env) (l : List CategoryPtr) (hb : w.Backed) :
    Registers w (l.foldl (adjustOrCreateCategory env.healthy) w) l := by
  induction l generalizing w with
  | nil => exact ⟨rfl, rfl, rfl, fun _ => rfl, hb, fun _ h => h, fun p hp => by cases hp⟩
  | cons q l ih =>
    have ha := adjusted env w q
    have hr := ih (ha.backed hb)
    refine ⟨hr.sets.trans ha.sets, hr.searchSets.trans ha.searchSets, hr.next.trans ha.next,
      fun p => (hr.category_id p).trans ha.category_id, hr.backed,
      fun p h => hr.matches_mono p (ha.matches hb h), fun p hp hn => ?_⟩
    rcases List.mem_cons.1 hp with rfl | hp
    · exact hr.matches_mono p (ha.matches_self hb hn)
    · exact hr.matches_new p hp (ha.category_id ▸ hn)

theorem addSearchSet_refused (h : (w.searchSets.find (w.set s).id).isSome = true) :
    w.addSearchSet env s = (false, w) := by
  unfold addSearchSet
  rw [if_pos h]

theorem addSearchSet_eq (hfree : w.searchSets.find (w.set s).id = none) :
    (w.addSearchSet env s).2 =
      (w.set s).categories.values.foldl (adjustOrCreateCategory env) (w.attach s) := by
  have hset : ((w.attach s).set s).categories = (w.set s).categories := by
    rw [set_attach, if_pos rfl]
  unfold addSearchSet
  rw [if_neg (by rw [hfree]; decide)]
  simp only [hset]

/-! ## The sets -/

theorem client_modifySet {g : SearchSet → OrdMap String CategoryPtr} :
    ((w.modifySet s fun set => { set with categories := g set }).set t).client =
      (w.set t).client := by
  rw [set_modifySet]
  split_ifs with ht
  · rw [ht]
  · rfl

theorem find_insert_set {c : CategoryPtr} {k : String}
    (h : (w.set s).categories.find id = none) :
    ((w.modifySet s fun set => { set with
        categories := set.categories.insert id c }).set t).categories.find k =
      if t = s ∧ k = id then some c else (w.set t).categories.find k := by
  rw [set_modifySet]
  by_cases ht : t = s
  · subst ht
    rw [if_pos rfl]
    refine (OrdMap.find_insert h).trans ?_
    simp only [true_and]
  · simp only [ht, if_false, false_and]

theorem find_erase_set {k : String} :
    ((w.modifySet s fun set => { set with
        categories := set.categories.erase id }).set t).categories.find k =
      if t = s ∧ k = id then none else (w.set t).categories.find k := by
  rw [set_modifySet]
  by_cases ht : t = s
  · subst ht
    rw [if_pos rfl]
    refine OrdMap.find_erase.trans ?_
    simp only [true_and]
  · simp only [ht, if_false, false_and]

/-- The callback of a removal changes nothing: `Database::removeCategory` does not. -/
theorem categoryRemoved_eq : w.categoryRemoved env id = w := by
  unfold categoryRemoved
  rw [removeCategory_eq]

theorem removeCategory_snd : (w.removeCategory env s id).2 =
    if ((w.set s).categories.find id).isNone then w
    else w.modifySet s fun set => { set with categories := set.categories.erase id } := by
  unfold removeCategory
  split_ifs
  · rfl
  · dsimp only
    rw [categoryRemoved_eq, ite_self]

theorem db_removeCategory (env : Env) (w : Service) (s : SearchSetPtr) (id : String) :
    (w.removeCategory env s id).2.db = w.db := by
  rw [removeCategory_snd]
  split_ifs <;> rfl

/-! ## Adding a category -/

section AddCategory

variable {c : CategoryPtr}

theorem addCategory_refused (h : ((w.set s).categories.find (w.category c).id).isSome = true) :
    w.addCategory env s c = (false, w) := by
  unfold addCategory
  dsimp only
  rw [if_pos h]

theorem addCategory_eq (hfree : (w.set s).categories.find (w.category c).id = none) :
    (w.addCategory env s c).2 =
      let w1 := w.modifySet s fun set =>
        { set with categories := set.categories.insert (w.category c).id c }
      if (w.set s).client then w1.adjustOrCreateCategory env c else w1 := by
  have hclient : ((w.modifySet s fun set =>
      { set with categories := set.categories.insert (w.category c).id c }).set s).client =
        (w.set s).client := client_modifySet
  unfold addCategory
  rw [if_neg (by rw [hfree]; decide)]
  simp only [hclient]
  rfl

theorem isSome_find_addCategory {k : String} :
    (((w.addCategory env s c).2.set s).categories.find k).isSome = true ↔
      ((w.set s).categories.find k).isSome = true ∨ k = (w.category c).id := by
  cases h : (w.set s).categories.find (w.category c).id with
  | some p =>
    rw [addCategory_refused (by rw [h]; rfl)]
    refine ⟨.inl, fun hk => hk.elim (fun hk => hk) ?_⟩
    rintro rfl
    rw [h]; rfl
  | none =>
    have hset : (w.addCategory env s c).2.set s = (w.modifySet s fun set =>
        { set with categories := set.categories.insert (w.category c).id c }).set s := by
      rw [addCategory_eq h]
      dsimp only
      split_ifs <;> rfl
    rw [hset, find_insert_set h]
    by_cases hk : k = (w.category c).id <;> simp [hk]

theorem addCategory_db (env : Env) (w : Service) (s : SearchSetPtr) (c : CategoryPtr) :
    (w.addCategory env s c).2.db.items = w.db.items ∧
      w.db.category.rows <+: (w.addCategory env s c).2.db.category.rows := by
  cases h : (w.set s).categories.find (w.category c).id with
  | some p =>
    rw [addCategory_refused (by rw [h]; rfl)]
    exact ⟨rfl, List.prefix_rfl⟩
  | none =>
    rw [addCategory_eq h]
    dsimp only
    split_ifs
    · exact adjustOrCreateCategory_db env _ c
    · exact ⟨rfl, List.prefix_rfl⟩

end AddCategory

theorem exists_holds_of_findCategory (h : w.findCategory id = some p) : ∃ s, w.Holds s id p := by
  obtain ⟨s, hs, hp⟩ := List.exists_of_findSome?_eq_some h
  exact ⟨s, hs, hp⟩

end UnifiedSearch.Service
