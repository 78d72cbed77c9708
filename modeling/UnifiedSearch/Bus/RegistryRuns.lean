import UnifiedSearch.Lib.Runs
import UnifiedSearch.Base.Registration
import UnifiedSearch.Bus.UpdateRequest

/-!
# Runs of the registry

Registrations, removals and requests, in any order, over any attached sets.
`consistent_run_iff`: the in-memory flags agree with the rows along a run iff
every step is `Sound`. A request writes one object, so it is not sound when it
changes the flag of an id that two sets hold as different objects.
`removed_iff` is what a removal leaves behind: everything.
-/

namespace UnifiedSearch

open Lib Service CategoryTable

/-- A call that makes, attaches or writes categories. -/
inductive RegistryOp where
  | newCategory (id name : String) (generateIntent : String → String → SearchItem → Option Intent)
  | newSearchSet (id : String) (source : Db → String → List SearchItem)
  | addSearchSet (s : SearchSetPtr)
  | addCategory (s : SearchSetPtr) (category : CategoryPtr)
  | removeCategory (s : SearchSetPtr) (id : String)
  | updateCategory (requestPayload : JValue)

/-- The state after a call; there are only pointers to objects that have been made. -/
def RegistryOp.step (env : Env) (w : Service) : RegistryOp → Service
  | .newCategory id name generateIntent =>
    { w with categories := (w.categories.alloc { id, name, generateIntent }).2 }
  | .newSearchSet id source => { w with sets := (w.sets.alloc { id, source }).2 }
  | .addSearchSet s => if s < w.sets.next then (w.addSearchSet env s).2 else w
  | .addCategory s category =>
    if s < w.sets.next ∧ category < w.categories.next then (w.addCategory env s category).2 else w
  | .removeCategory s id => if s < w.sets.next then (w.removeCategory env s id).2 else w
  | .updateCategory requestPayload => (Bus.updateCategory env w requestPayload).2

namespace Service

variable {w w' : Service} {env : Env} {s t : SearchSetPtr} {p c : CategoryPtr} {id : String}

/-- Every category of an attached set agrees with its row. -/
def Consistent (w : Service) : Prop := ∀ s id p, w.Holds s id p → w.Matches p

/-- What holds of the registry whatever the flags are. -/
structure Registered (w : Service) : Prop where
  attached : ∀ s ∈ w.searchSets.values, s < w.sets.next ∧ (w.set s).client = true
  client : ∀ s, (w.set s).client = true → s ∈ w.searchSets.values
  keys : ∀ s id p, (w.set s).categories.find id = some p →
    (w.category p).id = id ∧ p < w.categories.next
  backed : w.Backed

/-- Two sets that hold `id` hold the same object. -/
def Unshared (w : Service) (id : String) : Prop :=
  ∀ s t p q, w.Holds s id p → w.Holds t id q → p = q

end Service

/-- The ids that are registered have no NUL, and a request does not change the flag of an id that
two attached sets hold as different objects. -/
def RegistryOp.Sound (w : Service) : RegistryOp → Prop
  | .addSearchSet s => s < w.sets.next → w.searchSets.find (w.set s).id = none →
    ∀ p ∈ (w.set s).categories.values, NulFree (w.category p).id
  | .addCategory s category => s < w.sets.next → category < w.categories.next →
    s ∈ w.searchSets.values → (w.set s).categories.find (w.category category).id = none →
    NulFree (w.category category).id
  | .updateCategory requestPayload => ∀ cate row, Bus.readUpdate requestPayload = .ok cate →
    w.db.category.lookup cate.id = some row → 0 ≤ row.rank →
    w.Unshared cate.id ∨ row.enabled = cate.enabled
  | _ => True

namespace Service

variable {w w' : Service} {env : Env} {s t : SearchSetPtr} {p c : CategoryPtr} {id : String}

theorem Registered.holds_id (hr : w.Registered) (h : w.Holds s id p) : (w.category p).id = id :=
  (hr.keys s id p h.2).1

theorem Matches.nulFree (h : w.Matches p) : NulFree (w.category p).id := by
  obtain ⟨row, hrow, -⟩ := h
  exact nulFree_of_lookup hrow

theorem Backed.mono (hb : w.Backed)
    (hid : ∀ p, (w'.category p).enabled = false →
      (w.category p).enabled = false ∧ (w'.category p).id = (w.category p).id)
    (hdb : ∀ k, (w.db.category.find k).isSome → (w'.db.category.find k).isSome) : w'.Backed := by
  intro p hd
  obtain ⟨hd, e⟩ := hid p hd
  rw [e]; exact hdb _ (hb p hd)

theorem holds_congr {k : String} (hsets : w'.sets = w.sets) (hval : w'.searchSets = w.searchSets) :
    w'.Holds s k p ↔ w.Holds s k p := by
  unfold Holds Service.set
  rw [hsets, hval]

/-- The registry only depends on the sets and on the ids of the objects. -/
theorem Registered.frame (hr : w.Registered) (hsets : w'.sets = w.sets)
    (hval : w'.searchSets = w.searchSets) (hnext : w'.categories.next = w.categories.next)
    (hid : ∀ p, (w'.category p).id = (w.category p).id) (hb : w'.Backed) : w'.Registered := by
  have hset (t : SearchSetPtr) : w'.set t = w.set t := by unfold Service.set; rw [hsets]
  refine ⟨fun t ht => ?_, fun t ht => ?_, fun t k p h => ?_, hb⟩
  · rw [hval] at ht
    rw [hset, hsets]
    exact hr.attached t ht
  · rw [hset] at ht
    rw [hval]
    exact hr.client t ht
  · rw [hset] at h
    rw [hid, hnext]
    exact hr.keys t k p h

/-! ## Making objects -/

theorem consistent_newCategory (hr : w.Registered) (hc : w.Consistent) (cate : Category) :
    { w with categories := (w.categories.alloc cate).2 }.Consistent := by
  intro s id p h
  have hlt := (hr.keys s id p h.2).2
  have hsame : { w with categories := (w.categories.alloc cate).2 }.category p = w.category p :=
    Heap.cell_alloc_of_lt hlt
  obtain ⟨row, hrow, hen⟩ := hc s id p h
  exact ⟨row, by rw [hsame]; exact hrow, by rw [hsame]; exact hen⟩

theorem registered_newCategory (hr : w.Registered) (cate : Category) (hen : cate.enabled = true) :
    { w with categories := (w.categories.alloc cate).2 }.Registered := by
  refine ⟨hr.attached, hr.client, fun s id p h => ?_, fun p hd => ?_⟩
  · obtain ⟨hid, hlt⟩ := hr.keys s id p h
    refine ⟨?_, Nat.lt_succ_of_lt hlt⟩
    rw [← hid]
    exact congrArg Category.id (Heap.cell_alloc_of_lt hlt)
  · have hcell : { w with categories := (w.categories.alloc cate).2 }.category p =
      if p = w.categories.next then cate else w.category p := rfl
    rw [hcell] at hd ⊢
    split_ifs at hd ⊢ with hp
    · rw [hen] at hd; cases hd
    · exact hr.backed p hd

theorem set_newSearchSet (set : SearchSet) (ht : t < w.sets.next) :
    { w with sets := (w.sets.alloc set).2 }.set t = w.set t := Heap.cell_alloc_of_lt ht

theorem consistent_newSearchSet (hr : w.Registered) (hc : w.Consistent) (set : SearchSet) :
    { w with sets := (w.sets.alloc set).2 }.Consistent := by
  intro s id p h
  obtain ⟨hs, hp⟩ := h
  rw [set_newSearchSet set (hr.attached s hs).1] at hp
  exact hc s id p ⟨hs, hp⟩

theorem registered_newSearchSet (hr : w.Registered) (id : String)
    (source : Db → String → List SearchItem) :
    { w with sets := (w.sets.alloc { id, source }).2 }.Registered := by
  have hcell (t : SearchSetPtr) : { w with sets := (w.sets.alloc { id, source }).2 }.set t =
    if t = w.sets.next then { id, source } else w.set t := rfl
  refine ⟨fun s hs => ?_, fun s hs => ?_, fun s k p h => ?_, hr.backed⟩
  · obtain ⟨hlt, hcl⟩ := hr.attached s hs
    refine ⟨Nat.lt_succ_of_lt hlt, ?_⟩
    rw [hcell, if_neg hlt.ne]; exact hcl
  · rw [hcell] at hs
    split_ifs at hs
    exact hr.client s hs
  · rw [hcell] at h
    split_ifs at h
    · cases h
    · exact hr.keys s k p h

/-! ## Attaching a set -/

section AddSearchSet

variable (hfree : w.searchSets.find (w.set s).id = none)
include hfree

theorem mem_insert_values :
    t ∈ (w.searchSets.insert (w.set s).id s).values ↔ t = s ∨ t ∈ w.searchSets.values := by
  simp only [OrdMap.mem_values_iff, OrdMap.find_insert hfree]
  constructor
  · rintro ⟨k, h⟩
    split_ifs at h
    · exact .inl (by cases h; rfl)
    · exact .inr ⟨k, h⟩
  · rintro (rfl | ⟨k, h⟩)
    · exact ⟨_, if_pos rfl⟩
    · refine ⟨k, ?_⟩
      rw [if_neg (fun e => by rw [e, hfree] at h; cases h)]
      exact h

theorem holds_attach {k : String} : (w.attach s).Holds t k p ↔
    (t = s ∨ t ∈ w.searchSets.values) ∧ (w.set t).categories.find k = some p := by
  have hset : ((w.attach s).set t).categories = (w.set t).categories := by
    rw [set_attach]
    split_ifs with ht
    · rw [ht]
    · rfl
  unfold Holds
  rw [hset]
  exact and_congr_left' (mem_insert_values hfree)

theorem registered_attach (hr : w.Registered) (hlt : s < w.sets.next) :
    (w.attach s).Registered := by
  refine ⟨fun t ht => ?_, fun t ht => ?_, fun t k p h => ?_, hr.backed⟩
  · rw [set_attach]
    rcases (mem_insert_values hfree).1 ht with rfl | ht
    · exact ⟨hlt, by rw [if_pos rfl]⟩
    · refine ⟨(hr.attached t ht).1, ?_⟩
      split_ifs
      · rfl
      · exact (hr.attached t ht).2
  · rw [set_attach] at ht
    apply (mem_insert_values hfree).2
    split_ifs at ht with e
    · exact .inl e
    · exact .inr (hr.client t ht)
  · rw [set_attach] at h
    split_ifs at h with e
    · exact hr.keys s k p h
    · exact hr.keys t k p h

theorem addSearchSet_spec (env : Env) (hr : w.Registered) (hlt : s < w.sets.next) :
    ((w.addSearchSet env.healthy s).2.Registered) ∧
      (w.Consistent → ((w.addSearchSet env.healthy s).2.Consistent ↔
        ∀ p ∈ (w.set s).categories.values, NulFree (w.category p).id)) := by
  have hr' := registered_attach hfree hr hlt
  have hreg := registers env (w.set s).categories.values hr'.backed
  rw [addSearchSet_eq hfree]
  generalize (w.set s).categories.values.foldl _ (w.attach s) = w' at hreg
  have hholds {t : SearchSetPtr} {k : String} {p : CategoryPtr} : w'.Holds t k p ↔
      (t = s ∨ t ∈ w.searchSets.values) ∧ (w.set t).categories.find k = some p :=
    (holds_congr hreg.sets hreg.searchSets).trans (holds_attach hfree)
  have hcid (p : CategoryPtr) : (w'.category p).id = (w.category p).id := hreg.category_id p
  refine ⟨hr'.frame hreg.sets hreg.searchSets hreg.next hreg.category_id hreg.backed,
    fun hc => ⟨fun hc' p hp => ?_, fun hn t k p h => ?_⟩⟩
  · obtain ⟨k, hk⟩ := OrdMap.mem_values_iff.1 hp
    rw [← hcid]
    exact (hc' s k p (hholds.2 ⟨.inl rfl, hk⟩)).nulFree
  · obtain ⟨ht, hp⟩ := hholds.1 h
    rcases ht with rfl | ht
    · have hmem := OrdMap.mem_values_iff.2 ⟨k, hp⟩
      exact hreg.matches_new p hmem (hn p hmem)
    · exact hreg.matches_mono p (hc t k p ⟨ht, hp⟩)

end AddSearchSet

/-! ## Adding and removing a category -/

section AddCategory

variable (hfree : (w.set s).categories.find (w.category c).id = none)
include hfree

theorem registered_insert (hr : w.Registered) (hlt : c < w.categories.next) :
    (w.modifySet s fun set => { set with
      categories := set.categories.insert (w.category c).id c }).Registered := by
  refine ⟨fun t ht => ?_, fun t ht => ?_, fun t k p h => ?_, hr.backed⟩
  · rw [client_modifySet]
    exact hr.attached t ht
  · rw [client_modifySet] at ht
    exact hr.client t ht
  · rw [find_insert_set hfree] at h
    split_ifs at h with he
    · cases h
      exact ⟨he.2.symm, hlt⟩
    · exact hr.keys t k p h

theorem holds_insert {k : String} (h : (w.modifySet s fun set => { set with
      categories := set.categories.insert (w.category c).id c }).Holds t k p) :
    (t = s ∧ p = c) ∨ w.Holds t k p := by
  obtain ⟨ht, hp⟩ := h
  rw [find_insert_set hfree] at hp
  split_ifs at hp with he
  · exact .inl ⟨he.1, by cases hp; rfl⟩
  · exact .inr ⟨ht, hp⟩

theorem addCategory_spec (env : Env) (hr : w.Registered) (hlt : c < w.categories.next) :
    (w.addCategory env.healthy s c).2.Registered ∧
      (w.Consistent → ((w.addCategory env.healthy s c).2.Consistent ↔
        (s ∈ w.searchSets.values → NulFree (w.category c).id))) := by
  have hr1 := registered_insert hfree hr hlt
  rw [addCategory_eq hfree]
  dsimp only
  cases hcl : (w.set s).client with
  | false =>
    rw [if_neg (by simp)]
    have hs : s ∉ w.searchSets.values := fun hs => by
      rw [(hr.attached s hs).2] at hcl; cases hcl
    refine ⟨hr1, fun hc => iff_of_true (fun t k p h => ?_) fun hs' => absurd hs' hs⟩
    rcases holds_insert hfree h with ⟨rfl, -⟩ | h'
    · exact absurd h.1 hs
    · exact hc t k p h'
  | true =>
    rw [if_pos rfl]
    have ha := adjusted env (w.modifySet s fun set => { set with
      categories := set.categories.insert (w.category c).id c }) c
    generalize (w.modifySet s fun set => { set with
      categories := set.categories.insert (w.category c).id c }).adjustOrCreateCategory
        env.healthy c = w' at ha
    refine ⟨hr1.frame ha.sets ha.searchSets ha.next (fun _ => ha.category_id)
      (ha.backed hr1.backed), fun hc => ⟨fun hc' hs => ?_, fun hn t k p h => ?_⟩⟩
    · have hheld : w'.Holds s (w.category c).id c := by
        refine (holds_congr ha.sets ha.searchSets).2 ⟨hs, ?_⟩
        rw [find_insert_set hfree, if_pos ⟨rfl, rfl⟩]
      have hid : (w'.category c).id = (w.category c).id := ha.id
      rw [← hid]
      exact (hc' s (w.category c).id c hheld).nulFree
    · rcases holds_insert hfree ((holds_congr ha.sets ha.searchSets).1 h) with ⟨-, rfl⟩ | h'
      · exact ha.matches_self hr1.backed (hn (hr.client s hcl))
      · exact ha.matches hr1.backed (hc t k p h')

end AddCategory

theorem removeCategory_spec (hr : w.Registered) (hc : w.Consistent) :
    (w.removeCategory env s id).2.Registered ∧ (w.removeCategory env s id).2.Consistent := by
  rw [removeCategory_snd]
  split_ifs
  · exact ⟨hr, hc⟩
  have hfind {t : SearchSetPtr} {k : String} {p : CategoryPtr}
      (h : ((w.modifySet s fun set => { set with
        categories := set.categories.erase id }).set t).categories.find k = some p) :
      (w.set t).categories.find k = some p := by
    rw [find_erase_set] at h
    split_ifs at h
    exact h
  refine ⟨⟨fun t ht => ?_, fun t ht => ?_, fun t k p h => hr.keys t k p (hfind h), hr.backed⟩,
    fun t k p h => hc t k p ⟨h.1, hfind h.2⟩⟩
  · rw [client_modifySet]
    exact hr.attached t ht
  · rw [client_modifySet] at ht
    exact hr.client t ht

/-! ## A request -/

section Request

variable {requestPayload : JValue} {cate : Category} {row r : CategoryRow} {org : CategoryPtr}

theorem lookup_updated_enabled {t : CategoryTable} (hrow : t.lookup cate.id = some row)
    (h : t.lookup id = some r) : ∃ r', (t.updated row cate).lookup id = some r' ∧
      r'.enabled = if id = cate.id then cate.enabled else r.enabled := by
  refine ⟨_, lookup_updated.trans (by rw [h]; rfl), ?_⟩
  rw [updateRow_enabled]
  obtain ⟨-, rfl⟩ := lookup_eq_some_iff.1 h
  obtain ⟨-, hid⟩ := lookup_eq_some_iff.1 hrow
  rw [← hid]
  simp only [Text.ext_iff]

theorem isSome_find_updated {t : CategoryTable} {k : Text} (h : (t.find k).isSome) :
    ((t.updated row cate).find k).isSome := by
  rw [find_updated, Option.isSome_map]; exact h

theorem enabled_of_holds (hr : w.Registered) (hc : w.Consistent)
    (hrow : w.db.category.lookup cate.id = some row) (h : w.Holds s cate.id p) :
    row.enabled = (w.category p).enabled := by
  obtain ⟨r, hl, hen⟩ := hc s cate.id p h
  rw [hr.holds_id h, hrow] at hl
  cases hl
  exact hen

/-- After an update an attached object agrees with its row iff it is the written one, has another
id, or had the flag already. -/
theorem matches_setEnabled_iff (db : Db) {k : String} (hr : w.Registered) (hc : w.Consistent)
    (hrow : w.db.category.lookup cate.id = some row)
    (hdb : db.category = w.db.category.updated row cate) (hheld : w.Holds t cate.id org)
    (h : w.Holds s k p) :
    ({ w with db }.setEnabled org cate.enabled).Matches p ↔
      p = org ∨ k ≠ cate.id ∨ row.enabled = cate.enabled := by
  have hcat (p : CategoryPtr) : ({ w with db }.setEnabled org cate.enabled).category p =
    if p = org then { w.category org with enabled := cate.enabled } else w.category p := rfl
  obtain ⟨r, hl, hen⟩ := hc s k p h
  obtain ⟨r', hl', hen'⟩ := lookup_updated_enabled hrow hl
  have hl' : db.category.lookup (w.category p).id = some r' := by rw [hdb]; exact hl'
  have hid := hr.holds_id h
  rw [hid] at hen'
  unfold Matches
  by_cases hp : p = org
  · subst hp
    have hk : k = cate.id := hid.symm.trans (hr.holds_id hheld)
    refine iff_of_true ⟨r', ?_, ?_⟩ (.inl rfl)
    · rw [hcat, if_pos rfl]; exact hl'
    · rw [hcat, if_pos rfl, hen', if_pos hk]
  · rw [hcat, if_neg hp]
    simp only [hp, false_or]
    constructor
    · rintro ⟨r2, hl2, hen2⟩
      have hl2 : db.category.lookup (w.category p).id = some r2 := hl2
      rw [hl'] at hl2; cases hl2
      rw [hen'] at hen2
      by_cases hk : k = cate.id
      · rw [if_pos hk] at hen2
        subst hk
        exact .inr ((enabled_of_holds hr hc hrow h).trans hen2.symm)
      · exact .inl hk
    · intro hk
      refine ⟨r', hl', ?_⟩
      rw [hen']
      split_ifs with e
      · subst e
        rw [← enabled_of_holds hr hc hrow h]
        exact (hk.resolve_left (not_not.2 rfl)).symm
      · exact hen

variable (hread : Bus.readUpdate requestPayload = .ok cate)
  (hrow : w.db.category.lookup cate.id = some row) (h0 : 0 ≤ row.rank)
include hread hrow h0

theorem registered_updateCategory (env : Env) (hr : w.Registered) :
    (Bus.updateCategory env.healthy w requestPayload).2.Registered := by
  cases horg : w.findCategory cate.id with
  | none =>
    obtain ⟨clock, heq⟩ := Bus.updateCategory_late env hread hrow h0 horg
    rw [heq]
    exact hr.frame rfl rfl rfl (fun _ => rfl)
      (hr.backed.mono (fun _ hd => ⟨hd, rfl⟩) fun _ => isSome_find_updated)
  | some org =>
    obtain ⟨clock, heq⟩ := Bus.updateCategory_done env hread hrow h0 horg
    rw [heq]
    have hid (db : Db) (p : CategoryPtr) :
        (({ w with db }.setEnabled org cate.enabled).category p).id = (w.category p).id := by
      rw [setEnabled, category_write]
      split_ifs with hp
      · rw [hp]; rfl
      · rfl
    refine hr.frame rfl rfl rfl (hid _) fun p hd => ?_
    rw [hid]
    refine isSome_find_updated ?_
    rw [setEnabled, category_write] at hd
    split_ifs at hd with hp
    · obtain ⟨s, h⟩ := exists_holds_of_findCategory horg
      rw [hp, hr.holds_id h, ← lookup_eq_find (nulFree_of_lookup hrow), hrow]; rfl
    · exact hr.backed p hd

theorem consistent_updateCategory (env : Env) (hr : w.Registered) (hc : w.Consistent) :
    (Bus.updateCategory env.healthy w requestPayload).2.Consistent ↔
      w.Unshared cate.id ∨ row.enabled = cate.enabled := by
  cases horg : w.findCategory cate.id with
  | none =>
    obtain ⟨clock, heq⟩ := Bus.updateCategory_late env hread hrow h0 horg
    rw [heq]
    have hno (s : SearchSetPtr) (p : CategoryPtr) : ¬w.Holds s cate.id p := fun ⟨hs, hp⟩ => by
      rw [Bus.findCategory_eq_none_iff.1 horg s hs] at hp; cases hp
    refine iff_of_true (fun s k p h => ?_) (.inl fun s _ p _ h => absurd h (hno s p))
    have h : w.Holds s k p := h
    obtain ⟨r, hl, hen⟩ := hc s k p h
    obtain ⟨r', hl', hen'⟩ := lookup_updated_enabled hrow hl
    refine ⟨r', hl', ?_⟩
    rw [hen', if_neg, hen]
    · rfl
    · intro e
      rw [hr.holds_id h] at e
      exact hno s p (e ▸ h)
  | some org =>
    obtain ⟨clock, heq⟩ := Bus.updateCategory_done env hread hrow h0 horg
    obtain ⟨t, hheld⟩ := exists_holds_of_findCategory horg
    rw [heq]
    have hiff {s : SearchSetPtr} {k : String} {p : CategoryPtr} (h : w.Holds s k p) :=
      matches_setEnabled_iff ⟨{ w.db.toTables with
        category := w.db.category.updated row cate }, clock⟩ hr hc hrow rfl hheld h
    constructor
    · intro hc'
      by_contra hcon
      obtain ⟨hsh, hne⟩ := not_or.1 hcon
      refine hsh fun s u p q hp hq => ?_
      have horg {x : CategoryPtr} {s : SearchSetPtr} (hx : w.Holds s cate.id x) : x = org :=
        ((hiff hx).1 (hc' s cate.id x hx)).resolve_right fun h =>
          h.elim (fun hk => hk rfl) hne
      exact (horg hp).trans (horg hq).symm
    · intro hok s k p h
      refine (hiff h).2 ?_
      by_cases hk : k = cate.id
      · rcases hok with hu | he
        · exact .inl (hu s t p org (hk ▸ h) hheld)
        · exact .inr (.inr he)
      · exact .inr (.inl hk)

end Request

/-- A request, whatever becomes of it. -/
theorem updateCategory_spec (env : Env) (requestPayload : JValue) (hr : w.Registered)
    (hc : w.Consistent) :
    (Bus.updateCategory env.healthy w requestPayload).2.Registered ∧
      ((Bus.updateCategory env.healthy w requestPayload).2.Consistent ↔
        (RegistryOp.updateCategory requestPayload).Sound w) := by
  simp only [RegistryOp.Sound]
  cases hread : Bus.readUpdate requestPayload with
  | error responsePayload =>
    rw [Bus.updateCategory_rejected hread]
    exact ⟨hr, iff_of_true hc fun _ _ h => by cases h⟩
  | ok cate =>
    by_cases hrow : ∃ row, w.db.category.lookup cate.id = some row ∧ 0 ≤ row.rank
    · obtain ⟨row, hrow, h0⟩ := hrow
      refine ⟨registered_updateCategory hread hrow h0 env hr, ?_⟩
      rw [consistent_updateCategory hread hrow h0 env hr hc]
      refine ⟨fun h cate' row' e hrow' _ => ?_, fun h => h cate row rfl hrow h0⟩
      cases e
      rw [hrow] at hrow'; cases hrow'
      exact h
    · rw [Bus.updateCategory_refused hread fun row hl => not_le.1 fun h0 => hrow ⟨row, hl, h0⟩]
      refine ⟨hr, iff_of_true hc fun cate' row' e hrow' h0' => ?_⟩
      cases e
      exact absurd ⟨row', hrow', h0'⟩ hrow

/-! ## A step and a run -/

theorem step_spec (env : Env) (op : RegistryOp) (hr : w.Registered) (hc : w.Consistent) :
    (op.step env.healthy w).Registered ∧ ((op.step env.healthy w).Consistent ↔ op.Sound w) := by
  cases op with
  | newCategory id name generateIntent =>
    exact ⟨registered_newCategory hr _ rfl, iff_of_true (consistent_newCategory hr hc _) trivial⟩
  | newSearchSet id source =>
    exact ⟨registered_newSearchSet hr id source,
      iff_of_true (consistent_newSearchSet hr hc _) trivial⟩
  | addSearchSet s =>
    simp only [RegistryOp.step, RegistryOp.Sound]
    by_cases hlt : s < w.sets.next
    · rw [if_pos hlt]
      cases h : w.searchSets.find (w.set s).id with
      | none =>
        obtain ⟨hr', hiff⟩ := addSearchSet_spec h env hr hlt
        exact ⟨hr', (hiff hc).trans ⟨fun hn _ _ => hn, fun hn => hn hlt rfl⟩⟩
      | some t =>
        unfold addSearchSet
        rw [if_pos (by rw [h]; rfl)]
        exact ⟨hr, iff_of_true hc fun _ hno => by cases hno⟩
    · rw [if_neg hlt]
      exact ⟨hr, iff_of_true hc fun hlt' => absurd hlt' hlt⟩
  | addCategory s c =>
    simp only [RegistryOp.step, RegistryOp.Sound]
    by_cases hlt : s < w.sets.next ∧ c < w.categories.next
    · rw [if_pos hlt]
      cases h : (w.set s).categories.find (w.category c).id with
      | none =>
        obtain ⟨hr', hiff⟩ := addCategory_spec h env hr hlt.2
        exact ⟨hr', (hiff hc).trans ⟨fun hn _ _ hs _ => hn hs, fun hn hs => hn hlt.1 hlt.2 hs rfl⟩⟩
      | some p =>
        unfold addCategory
        dsimp only
        rw [if_pos (by rw [h]; rfl)]
        exact ⟨hr, iff_of_true hc fun _ _ _ hno => by cases hno⟩
    · rw [if_neg hlt]
      exact ⟨hr, iff_of_true hc fun h1 h2 => absurd ⟨h1, h2⟩ hlt⟩
  | removeCategory s id =>
    simp only [RegistryOp.step, RegistryOp.Sound, iff_true]
    split_ifs
    · exact removeCategory_spec hr hc
    · exact ⟨hr, hc⟩
  | updateCategory requestPayload => exact updateCategory_spec env requestPayload hr hc

end Service

theorem registered_start (db : Db) (language : String) : (start db language).Registered := by
  refine ⟨fun s hs => ?_, fun s hs => ?_, fun s id p h => ?_, fun p hd => ?_⟩
  · cases hs
  · cases hs
  · cases h
  · cases hd

/-- **The two copies of the enabled flag agree along a run iff every step of it is sound.** -/
theorem consistent_run_iff (env : Env) (db : Db) (language : String) (ops : List RegistryOp) :
    Always (RegistryOp.step env.healthy) Consistent (start db language) ops ↔
      Each (RegistryOp.step env.healthy) RegistryOp.Sound (start db language) ops :=
  always_iff_each Registered
    (fun _ op _ _ hr hc => (step_spec env op hr hc).2)
    (fun _ op _ _ hr hc _ => (step_spec env op hr hc).1)
    (always_of_forall fun _ => trivial) (registered_start db language)
    (fun s id p h => by cases h.1)

/-- Two sets with a category `a` of their own, and a request that disables it. -/
def sharedRun : List RegistryOp := [
  .newCategory "a" "" fun _ _ _ => none, .newCategory "a" "" fun _ _ _ => none,
  .newSearchSet "m" fun _ _ => [], .newSearchSet "n" fun _ _ => [],
  .addCategory 0 0, .addSearchSet 0, .addSearchSet 1, .addCategory 1 1,
  .updateCategory Bus.disableRequest]

/-- The request finds the object of the first set; the other one stays enabled. -/
theorem not_consistent_sharedRun :
    ¬(run (RegistryOp.step Env.sample.healthy) (start .fresh "en") sharedRun).Consistent := by
  intro h
  obtain ⟨row, hrow, hen⟩ := h 1 "a" 1 ⟨by decide, by decide⟩
  have hne : ((run (RegistryOp.step Env.sample.healthy) (start .fresh "en")
      sharedRun).db.category.lookup "a").map (·.enabled) = some false := by decide
  have hrow : (run (RegistryOp.step Env.sample.healthy) (start .fresh "en")
      sharedRun).db.category.lookup "a" = some row := hrow
  rw [hrow] at hne
  have htrue : row.enabled = true := hen
  rw [Option.map_some, htrue] at hne
  cases hne

/-! ## Removing a registered category -/

/-- The category and its items are gone, and the other ones are as they were. -/
def Removed (w w' : Service) (id : String) : Prop :=
  w'.db.category.lookup id = none ∧ (∀ r ∈ w'.db.items, r.category.val ≠ id) ∧
    (∀ k, k.val ≠ id → (w'.db.category.find k).map (fun r => (r.name, r.enabled)) =
      (w.db.category.find k).map fun r => (r.name, r.enabled)) ∧
    w'.db.items.filter (·.category.val ≠ id) = w.db.items.filter (·.category.val ≠ id)

/-- **A removal from a set removes nothing from the database**: the row and the items are gone
afterwards iff there were none. -/
theorem removed_iff (env : Env) (w : Service) (s : SearchSetPtr) (id : String) :
    Removed w (w.removeCategory env s id).2 id ↔
      w.db.category.lookup id = none ∧ ∀ r ∈ w.db.items, r.category.val ≠ id := by
  unfold Removed
  rw [db_removeCategory]
  exact ⟨fun h => ⟨h.1, h.2.1⟩, fun h => ⟨h.1, h.2, fun _ _ => rfl, rfl⟩⟩

/-- A registered category that agrees with its row, as all do along a sound run, is not removed. -/
theorem not_removed_of_matches (env : Env) {w : Service} {s : SearchSetPtr} {id : String}
    {p : CategoryPtr} (hr : w.Registered) (h : w.Holds s id p) (hm : w.Matches p) :
    (w.removeCategory env s id).1 = true ∧ ¬Removed w (w.removeCategory env s id).2 id := by
  obtain ⟨row, hrow, -⟩ := hm
  rw [hr.holds_id h] at hrow
  refine ⟨?_, fun hrem => ?_⟩
  · unfold removeCategory
    rw [if_neg (by rw [h.2]; simp)]
  · have hnone := hrem.1
    rw [db_removeCategory, hrow] at hnone
    cases hnone

/-- A set with one category, attached. -/
def attachedRun : List RegistryOp := [
  .newCategory "a" "" fun _ _ _ => none, .newSearchSet "m" fun _ _ => [], .addSearchSet 0,
  .addCategory 0 0]

theorem not_removed_attachedRun :
    let w := run (RegistryOp.step Env.sample.healthy) (start .fresh "en") attachedRun
    (w.removeCategory Env.sample.healthy 0 "a").1 = true ∧
      ¬Removed w (w.removeCategory Env.sample.healthy 0 "a").2 "a" := by
  refine ⟨by decide, fun h => absurd h.1 ?_⟩
  decide

end UnifiedSearch
