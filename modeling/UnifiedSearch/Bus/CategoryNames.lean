import UnifiedSearch.Base.ItemText
import UnifiedSearch.Base.UpdateFaults
import UnifiedSearch.Bus.Refresh
import UnifiedSearch.Clients.Reindexing

/-!
# The names of the content categories

A listed app that is registered writes its title to the object and to the row; one
that is new takes the name of the row an earlier run has left. `titleOk` is when
the two come to the same, app by app of a list, and `titled_run` carries it
along runs of messages and requests, whatever statements fail.
-/

namespace UnifiedSearch

open Lib CategoryTable Database

namespace CategoryTable

variable {t t' : CategoryTable} {row r : CategoryRow} {id : String} {name : Text}

/-- The name of the row of a category. -/
def rowName (t : CategoryTable) (id : String) : Option String := (t.lookup id).map (·.name.val)

theorem rowName_insert (h : t.insert r = some t') :
    t'.rowName id = if r.id.val = id then some r.name.val else t.rowName id := by
  unfold rowName
  rw [lookup_insert h]
  split_ifs <;> rfl

theorem rowName_shiftRanks {value start stop : ℤ} :
    (t.shiftRanks value start stop).rowName id = t.rowName id := by
  unfold rowName CategoryTable.shiftRanks Table.update
  rw [lookup_mapRows, Option.map_map]
  congr 1
  funext r
  simp only [Function.comp]
  split_ifs <;> rfl

theorem rowName_setRow {rank : ℤ} {enabled : Bool} {k : Text} :
    (t.setRow rank enabled name k).rowName id =
      (t.rowName id).map fun n => if k.val = id then name.val else n := by
  unfold rowName CategoryTable.setRow Table.update
  rw [lookup_mapRows]
  cases h : t.lookup id with
  | none => rfl
  | some r =>
    have hid : r.id = k ↔ k.val = id := by
      rw [← (lookup_eq_some_iff.1 h).2, Text.ext_iff, eq_comm]
    simp only [Option.map_some, decide_eq_true_eq, hid]
    split_ifs <;> rfl

theorem rowName_shiftStep {fault : ℕ → Bool} {db : Db} {cate : Category} :
    (shiftStep fault db row cate).category.rowName id = db.category.rowName id := by
  unfold shiftStep
  cases db.category.shift row cate with
  | none => rfl
  | some range =>
    obtain ⟨value, start, stop⟩ := range
    simp only [updateRanks, step_changerank_fault]
    cases fault db.clock with
    | true => rfl
    | false => exact rowName_shiftRanks

/-- The update names its own row, if it is taken for one and the write of it succeeds, and no
other. -/
theorem rowName_updateCategory (fault : ℕ → Bool) (db : Db) (cate : Category) (id : String) :
    (updateCategory fault db cate).2.category.rowName id =
      match db.category.lookup cate.id with
      | some row =>
        if id = cate.id ∧ 0 ≤ row.rank ∧ fault (shiftStep fault db row cate).clock = false then
          some (newName row cate).val
        else db.category.rowName id
      | none => db.category.rowName id := by
  cases hl : db.category.lookup cate.id with
  | none => rw [updateCategory_absent hl]
  | some row =>
    dsimp only
    by_cases h0 : row.rank < 0
    · rw [updateCategory_negative hl h0, if_neg fun h => not_lt.2 h.2.1 h0]
    rw [updateCategory_steps hl (not_lt.1 h0), step_cateUpdate_fault]
    by_cases hf : fault (shiftStep fault db row cate).clock = true
    · rw [if_pos hf, if_neg fun h => Bool.false_ne_true (h.2.2.symm.trans hf)]
      exact rowName_shiftStep
    · rw [Bool.not_eq_true] at hf
      simp only [hf, Bool.false_eq_true, if_false, and_true, not_lt.1 h0]
      rw [rowName_setRow, rowName_shiftStep, (lookup_eq_some_iff.1 hl).2]
      by_cases hid : id = cate.id
      · subst hid
        rw [rowName, hl, if_pos rfl, Option.map_some, Option.map_some, if_pos rfl]
      · simp [hid, Ne.symm hid]

end CategoryTable

namespace Service

variable {env : Env} {w : Service} {p : CategoryPtr} {k : String}

theorem rowName_adjustOrCreateCategory (env : Env) (hne : k ≠ (w.category p).id)
    (hrow : NulFree (w.category p).id ∨ (w.db.category.rowName k).isSome) :
    (w.adjustOrCreateCategory env p).db.category.rowName k = w.db.category.rowName k := by
  cases h : w.db.category.find (.ofCStr (w.category p).id) with
  | some row =>
    rw [adjustOrCreateCategory_known env h]
    rfl
  | none =>
    obtain ⟨t, ht, heq⟩ := adjustOrCreateCategory_new env h
    rw [heq]
    dsimp only
    split_ifs
    · rfl
    · refine (rowName_insert ht).trans (if_neg fun e => ?_)
      replace e : (Text.ofCStr (w.category p).id).val = k := e
      rcases hrow with hn | hrow
      · exact hne (e.symm.trans (Text.ofCStr_of_nulFree hn))
      · rw [rowName, ← e, lookup_val, h] at hrow
        cases hrow

end Service

namespace Sam

open Service

variable {env : Env} {sam : Sam} {w w' w1 : Service} {app : JValue} {apps : List JValue}
  {k title : String} {p : CategoryPtr}

/-! ## What the set holds -/

/-- SAM's set is attached, and holds categories under their ids. -/
structure Held (sam : Sam) (w : Service) : Prop where
  client : (w.set sam.searchSet).client = true
  keys : ∀ k p, w.findCategoryIn sam.searchSet k = some p →
    (w.category p).id = k ∧ p < w.categories.next

theorem Held.frame (h : Held sam w)
    (hclient : (w'.set sam.searchSet).client = (w.set sam.searchSet).client)
    (hfind : ∀ k p, w'.findCategoryIn sam.searchSet k = some p →
      w.findCategoryIn sam.searchSet k = some p)
    (hid : ∀ p < w.categories.next, (w'.category p).id = (w.category p).id)
    (hnext : w.categories.next ≤ w'.categories.next) : Held sam w' := by
  refine ⟨hclient.trans h.client, fun k p hp => ?_⟩
  obtain ⟨hk, hlt⟩ := h.keys k p (hfind k p hp)
  exact ⟨(hid p hlt).trans hk, lt_of_lt_of_le hlt hnext⟩

theorem Held.with_db (h : Held sam w) (db : Db) : Held sam { w with db } := ⟨h.client, h.keys⟩

/-- The new object of an app, in the set and not registered yet. -/
structure Adopted (env : Env) (sam : Sam) (w w1 : Service) (app : JValue) : Prop where
  db : w1.db = (AppContents.make env w (appId app) (appTitle app) app).2.db
  next : w1.categories.next = w.categories.next + 1
  id : (w1.category w.categories.next).id = appId app
  name : (w1.category w.categories.next).name = appTitle app
  others : ∀ p, p ≠ w.categories.next → w1.category p = w.category p
  find : ∀ k, w1.findCategoryIn sam.searchSet k =
    if k = appId app then some w.categories.next else w.findCategoryIn sam.searchSet k
  client : (w1.set sam.searchSet).client = (w.set sam.searchSet).client

/-- The content of an app that is new to the set: its object is made, added and registered. -/
theorem addAppContents_adopted (env : Env) (h : Held sam w) (hc : isContent app = true)
    (hnew : w.findCategoryIn sam.searchSet (appId app) = none) :
    ∃ w1, Adopted env sam w w1 app ∧ (addAppContents env sam w app).2 =
      w1.adjustOrCreateCategory env w.categories.next := by
  obtain ⟨hp, -, -, hid⟩ := AppContents.make_frame env w (appId app) (appTitle app) app
  have hset := AppContents.set_make env w (appId app) (appTitle app) app
  have hfree : ((AppContents.make env w (appId app) (appTitle app) app).2.set
      sam.searchSet).categories.find ((AppContents.make env w (appId app) (appTitle
        app) app).2.category w.categories.next).id = none := by
    rw [hid, hset]
    exact hnew
  rw [addAppContents_content hc, hp, addCategory_eq hfree]
  dsimp only
  rw [hset, h.client, if_pos rfl]
  refine ⟨_, ?_, rfl⟩
  refine ⟨rfl, rfl, hid, congrArg Category.name (if_pos rfl),
    fun p hne => if_neg hne, fun k => ?_, ?_⟩
  · refine (find_insert_set hfree).trans ?_
    rw [hid, hset]
    simp only [true_and]
    rfl
  · rw [client_modifySet, hset]

theorem registered_frame (env : Env) (sam : Sam) (w : Service) (p : CategoryPtr) :
    (w.adjustOrCreateCategory env p).set sam.searchSet = w.set sam.searchSet ∧
      (w.adjustOrCreateCategory env p).categories.next = w.categories.next ∧
      ((w.adjustOrCreateCategory env p).category p).id = (w.category p).id ∧
      ∀ q, q ≠ p → (w.adjustOrCreateCategory env p).category q = w.category q := by
  obtain ⟨db, cate, heq, hid⟩ := adjustOrCreateCategory_frame env w p
  rw [heq]
  exact ⟨rfl, rfl, (congrArg Category.id (if_pos rfl)).trans hid, fun q hq => if_neg hq⟩

theorem Adopted.find_registered (ha : Adopted env sam w w1 app) (k : String) :
    (w1.adjustOrCreateCategory env w.categories.next).findCategoryIn sam.searchSet k =
      if k = appId app then some w.categories.next else w.findCategoryIn sam.searchSet k := by
  rw [← ha.find k]
  unfold findCategoryIn
  rw [(registered_frame env sam w1 _).1]

theorem Adopted.held (ha : Adopted env sam w w1 app) (h : Held sam w) :
    Held sam (w1.adjustOrCreateCategory env w.categories.next) := by
  obtain ⟨hset, hnext, hself, hothers⟩ := registered_frame env sam w1 w.categories.next
  refine ⟨by rw [hset, ha.client, h.client], fun k p hp => ?_⟩
  rw [ha.find_registered] at hp
  rw [hnext, ha.next]
  split_ifs at hp with hk
  · cases hp
    exact ⟨hself.trans (ha.id.trans hk.symm), Nat.lt_succ_self _⟩
  · obtain ⟨hid, hlt⟩ := h.keys k p hp
    exact ⟨by rw [hothers p hlt.ne, ha.others p hlt.ne, hid], Nat.lt_succ_of_lt hlt⟩

/-- An app announced again makes an object that is not added. -/
theorem held_addAppContents (h : Held sam w) : Held sam (addAppContents env sam w app).2 := by
  cases hc : isContent app with
  | false => rwa [addAppContents_other hc]
  | true =>
    cases hf : w.findCategoryIn sam.searchSet (appId app) with
    | none =>
      obtain ⟨w1, ha, heq⟩ := addAppContents_adopted env h hc hf
      rw [heq]
      exact ha.held h
    | some p =>
      obtain ⟨hp, -, -, hid⟩ := AppContents.make_frame env w (appId app) (appTitle app) app
      have hset := AppContents.set_make env w (appId app) (appTitle app) app
      rw [addAppContents_content hc, hp, addCategory_refused]
      · refine h.frame ?_ (fun k p hk => ?_) (fun p hlt => ?_) (Nat.le_succ _)
        · rw [hset]
        · unfold findCategoryIn at hk
          rwa [hset] at hk
        · exact congrArg Category.id (if_neg hlt.ne)
      · rw [hid, hset]
        exact Option.isSome_of_eq_some hf

theorem Held.write (h : Held sam w) {cate : Category} (hid : cate.id = (w.category p).id) :
    Held sam (w.write p cate) := by
  refine h.frame rfl (fun _ _ hp => hp) (fun q _ => ?_) le_rfl
  rw [category_write]
  split_ifs with hq
  · rw [hid, hq]
  · rfl

theorem held_listApp (h : Held sam w) : Held sam (listApp env sam w app) := by
  cases hf : w.findCategoryIn sam.searchSet (appId app) with
  | none =>
    rw [listApp_new hf]
    exact held_addAppContents (h.with_db _)
  | some p =>
    have hname : Held sam (w.setCategoryName p (appTitle app)) := h.write rfl
    rw [listApp_registered hf]
    exact hname.with_db _

theorem held_removeCategory (h : Held sam w) (k : String) :
    Held sam (w.removeCategory env sam.searchSet k).2 := by
  rw [removeCategory_snd]
  split_ifs
  · exact h
  · refine h.frame client_modifySet (fun k p hp => ?_) (fun _ _ => rfl) le_rfl
    unfold findCategoryIn at hp
    rw [find_erase_set] at hp
    split_ifs at hp
    exact hp

theorem held_onListApps (h : Held sam w) (payload : JValue) :
    Held sam (onListApps env sam w payload) := by
  cases hl : fullList payload with
  | some apps =>
    rw [onListApps_full hl]
    exact List.foldlRecOn apps _ (h.with_db _) fun _ h app _ => held_listApp h
  | none =>
    unfold onListApps
    rw [hl]
    dsimp only
    cases changeOf payload with
    | none => exact h
    | some c =>
      obtain ⟨change, app⟩ := c
      dsimp only
      split_ifs
      · exact held_addAppContents (h.with_db _)
      · exact held_removeCategory (h.with_db _) _
      · exact h

theorem held_updateCategory (h : Held sam w) (requestPayload : JValue) :
    Held sam (Bus.updateCategory env w requestPayload).2 := by
  unfold Bus.updateCategory
  cases Bus.readUpdate requestPayload with
  | error responsePayload => exact h
  | ok cate =>
    dsimp only
    obtain ⟨_ | _, db⟩ := Database.updateCategory env.fault w.db cate
    · exact h.with_db db
    · dsimp only
      cases { w with db }.findCategory cate.id with
      | none => exact h.with_db db
      | some org => exact (h.with_db db).write rfl

theorem held_onInitialized (env : Env) (db : Db) (language : String) :
    Held (onInitialized env (start db language)).1 (onInitialized env (start db language)).2 := by
  obtain ⟨w, hw, hclient, hid, hnext, hfind⟩ : ∃ w : Service,
      (onInitialized env (start db language)).2 = w.adjustOrCreateCategory env 0 ∧
      (w.set 0).client = true ∧ (w.category 0).id = Applications.categoryId ∧
      w.categories.next = 1 ∧ ∀ k, (w.set 0).categories.find k =
        if k = Applications.categoryId then some 0 else none := by
    refine ⟨_, rfl, rfl, rfl, rfl, fun k => ?_⟩
    exact OrdMap.find_insert OrdMap.find_empty
  obtain ⟨hset, hnext', hself, -⟩ := registered_frame env ⟨0, 0⟩ w 0
  rw [hw]
  refine ⟨(congrArg SearchSet.client hset).trans hclient, fun k p hp => ?_⟩
  have hp' : (w.set 0).categories.find k = some p := by rw [← hset]; exact hp
  rw [hfind] at hp'
  split_ifs at hp' with hk
  cases hp'
  exact ⟨hself.trans (hid.trans hk.symm), by rw [hnext', hnext]; exact Nat.one_pos⟩

/-! ## Names -/

/-- The category with this id, where the set has one, has the title as its name, in its row and in
memory. -/
def Titled (sam : Sam) (w : Service) (k title : String) : Prop :=
  ∀ p, w.findCategoryIn sam.searchSet k = some p →
    (w.category p).name = title ∧ w.db.category.rowName k = some title

/-- The state in which a listed app is looked up: its own item has been added. -/
def looked (env : Env) (w : Service) (app : JValue) : Service :=
  { w with db := (Applications.addToDatabase env w.db app).2 }

/-- The category object once it has the title of the app. -/
def retitled (w : Service) (p : CategoryPtr) (app : JValue) : Category :=
  { w.category p with name := appTitle app }

/-- The number of the statement that writes the title to the row. -/
def titleClock (env : Env) (w : Service) (p : CategoryPtr) (row : CategoryRow) (app : JValue) : ℕ :=
  (shiftStep env.fault (looked env w app).db row (retitled w p app)).clock

/-- The delete of the items of an app that is new to the set touches items only. -/
def eraseOk (env : Env) (sam : Sam) (w : Service) (app : JValue) : Bool :=
  (w.findCategoryIn sam.searchSet (appId app)).isSome || !isContent app ||
    itemsOnly env (looked env w app).db (appId app)

/-- The app gets its title at its turn: its row has that name already, or the title is written to
it, by a statement that succeeds and without a NUL to cut it. -/
def titleOk (env : Env) (sam : Sam) (w : Service) (app : JValue) : Bool :=
  match w.findCategoryIn sam.searchSet (appId app), w.db.category.lookup (appId app) with
  | some p, some row =>
    row.name.val = appTitle app ||
      (0 ≤ row.rank && NulFree (appTitle app) && !env.fault (titleClock env w p row app))
  | some _, none => false
  | none, some row => !isContent app || row.name.val = appTitle app
  | none, none => !isContent app || (NulFree (appId app) && NulFree (appTitle app) &&
      !env.fault
        (AppContents.make env (looked env w app) (appId app) (appTitle app) app).2.db.clock)

/-- The turn of an app in a list. -/
def TurnOk (env : Env) (sam : Sam) (w : Service) (app : JValue) : Prop :=
  eraseOk env sam w app = true ∧ (appTitle app ≠ "" → titleOk env sam w app = true)

instance : Decidable (TurnOk env sam w app) := inferInstanceAs (Decidable (_ ∧ _))

theorem titled_congr (hfind : w'.findCategoryIn sam.searchSet k = w.findCategoryIn sam.searchSet k)
    (hname : ∀ p, w.findCategoryIn sam.searchSet k = some p →
      (w'.category p).name = (w.category p).name ∧
        w'.db.category.rowName k = w.db.category.rowName k) :
    Titled sam w' k title ↔ Titled sam w k title := by
  unfold Titled
  rw [hfind]
  refine forall₂_congr fun p hp => ?_
  rw [(hname p hp).1, (hname p hp).2]

theorem category_looked (env : Env) (w : Service) (app : JValue) :
    (looked env w app).db.category = w.db.category := addToDatabase_category env w.db app

theorem Adopted.rows (ha : Adopted env sam w w1 app) (he : itemsOnly env w.db (appId app) = true) :
    w1.db.category = w.db.category := by
  rw [ha.db, AppContents.category_make_of he]

theorem Adopted.titled_other (ha : Adopted env sam w w1 app) (h : Held sam w)
    (he : itemsOnly env w.db (appId app) = true) (hne : k ≠ appId app)
    (hrow : NulFree (appId app) ∨ Titled sam w k title) :
    Titled sam (w1.adjustOrCreateCategory env w.categories.next) k title ↔
      Titled sam w k title := by
  have hothers := (registered_frame env sam w1 w.categories.next).2.2.2
  refine titled_congr (by rw [ha.find_registered, if_neg hne]) fun p hp => ⟨?_, ?_⟩
  · have hlt := (h.keys k p hp).2.ne
    rw [hothers p hlt, ha.others p hlt]
  · rw [← ha.rows he]
    refine rowName_adjustOrCreateCategory env (by rwa [ha.id]) ?_
    rw [ha.id, ha.rows he]
    exact hrow.imp_right fun ht => Option.isSome_of_eq_some (ht p hp).2

/-- The app that is new: its object takes the name of the row, or the row is made with its title. -/
theorem Adopted.titled_self (ha : Adopted env sam w w1 app)
    (he : itemsOnly env w.db (appId app) = true) :
    Titled sam (w1.adjustOrCreateCategory env w.categories.next) (appId app)
        (appTitle app) ↔
      match w.db.category.lookup (appId app) with
      | some row => row.name.val = appTitle app
      | none => (NulFree (appId app) ∧ NulFree (appTitle app)) ∧ env.fault w1.db.clock = false := by
  have hfind := ha.find_registered (appId app)
  rw [if_pos rfl] at hfind
  unfold Titled
  rw [hfind]
  simp only [Option.some.injEq, forall_eq']
  cases h : w1.db.category.find (.ofCStr (w1.category w.categories.next).id) with
  | some row =>
    rw [adjustOrCreateCategory_known _ h, category_write, if_pos rfl]
    rw [ha.id, ha.rows he] at h
    show row.name.val = _ ∧ w1.db.category.rowName _ = _ ↔ _
    unfold rowName
    rw [ha.rows he]
    by_cases hn : NulFree (appId app)
    · simp [lookup_eq_find hn, h]
    · simp [lookup_eq_none_of_nul hn, hn]
  | none =>
    obtain ⟨t, ht, heq⟩ := adjustOrCreateCategory_new env h
    rw [ha.id, ha.rows he] at h
    have hnone : w.db.category.lookup (appId app) = none := by
      by_cases hn : NulFree (appId app)
      · rw [lookup_eq_find hn, h]
      · exact lookup_eq_none_of_nul hn
    have hold : w1.db.category.rowName (appId app) = none := by
      unfold rowName
      rw [ha.rows he, hnone]
      rfl
    have hname : ((w1.adjustOrCreateCategory env w.categories.next).category
        w.categories.next).name = appTitle app := by
      rw [heq]
      exact (congrArg Category.name (if_pos rfl)).trans ha.name
    have hrow : (w1.adjustOrCreateCategory env w.categories.next).db.category.rowName
        (appId app) = if env.fault w1.db.clock = false ∧ NulFree (appId app) then
          some (Text.ofCStr (appTitle app)).val else none := by
      rw [heq]
      cases hf : env.fault w1.db.clock with
      | true => simpa [hf] using hold
      | false =>
        simp only [Bool.false_eq_true, if_false, true_and]
        refine (rowName_insert ht).trans ?_
        rw [hold]
        unfold newRow
        simp only [ha.id, ha.name, Text.ofCStr_val_eq_iff]
    rw [hname, hrow, hnone]
    by_cases hn : NulFree (appId app)
    · simp [hn, Text.ofCStr_val_eq_iff, and_comm]
    · simp [hn]

theorem rowName_listApp_registered (env : Env)
    (hf : w.findCategoryIn sam.searchSet (appId app) = some p) (hid : (w.category p).id = appId app)
    (k : String) : (listApp env sam w app).db.category.rowName k =
      match w.db.category.lookup (appId app) with
      | some row =>
        if k = appId app ∧ 0 ≤ row.rank ∧ env.fault (titleClock env w p row app) = false then
          some (newName row (retitled w p app)).val
        else w.db.category.rowName k
      | none => w.db.category.rowName k := by
  have h := rowName_updateCategory env.fault (looked env w app).db (retitled w p app) k
  have hid' : (retitled w p app).id = appId app := hid
  rw [category_looked, hid'] at h
  rw [listApp_registered hf]
  exact h

/-- The app that is registered: its title is written to the object, and to the row if there is one
that is taken for one. -/
theorem titled_registered (ht : appTitle app ≠ "")
    (hf : w.findCategoryIn sam.searchSet (appId app) = some p)
    (hid : (w.category p).id = appId app) :
    Titled sam (listApp env sam w app) (appId app) (appTitle app) ↔
      match w.db.category.lookup (appId app) with
      | some row => row.name.val = appTitle app ∨ (0 ≤ row.rank ∧ NulFree (appTitle app)) ∧
          env.fault (titleClock env w p row app) = false
      | none => False := by
  have hfind : (listApp env sam w app).findCategoryIn sam.searchSet (appId app) = some p := by
    rw [listApp_registered hf]
    exact hf
  have hname : ((listApp env sam w app).category p).name = appTitle app := by
    rw [listApp_registered hf]
    exact congrArg Category.name (if_pos rfl)
  have hnew (row : CategoryRow) : newName row (retitled w p app) = .ofCStr (appTitle app) :=
    if_neg ht
  have hrow := rowName_listApp_registered env hf hid (appId app)
  unfold Titled
  rw [hfind]
  simp only [Option.some.injEq, forall_eq', hname, true_and, hrow]
  cases hl : w.db.category.lookup (appId app) with
  | none => simp [rowName, hl]
  | some row =>
    dsimp only
    split_ifs with hw
    · rw [hnew, Option.some.injEq, Text.ofCStr_val_eq_iff]
      refine ⟨fun hn => .inr ⟨⟨hw.1, hn⟩, hw.2⟩, ?_⟩
      rintro (hn | ⟨⟨-, hn⟩, -⟩)
      · exact hn ▸ row.name.nulFree
      · exact hn
    · rw [rowName, hl, Option.map_some, Option.some.injEq]
      exact ⟨.inl, fun hor => hor.resolve_right fun hn => hw ⟨hn.1.1, hn.2⟩⟩

theorem titled_listApp (h : Held sam w) (he : eraseOk env sam w app = true)
    (ht : appTitle app ≠ "") :
    Titled sam (listApp env sam w app) (appId app) (appTitle app) ↔
      titleOk env sam w app = true := by
  unfold eraseOk at he
  unfold titleOk
  cases hf : w.findCategoryIn sam.searchSet (appId app) with
  | some p =>
    rw [titled_registered ht hf (h.keys _ p hf).1]
    cases w.db.category.lookup (appId app) <;> simp
  | none =>
    have hlist : listApp env sam w app = (addAppContents env sam (looked env w app) app).2 :=
      listApp_new hf
    rw [hlist]
    cases hc : isContent app with
    | false =>
      rw [addAppContents_other hc]
      refine iff_of_true (fun p hp => ?_) ?_
      · rw [show w.findCategoryIn sam.searchSet (appId app) = some p from hp] at hf
        cases hf
      · cases w.db.category.lookup (appId app) <;> rfl
    | true =>
      rw [hf, hc] at he
      have h' : Held sam (looked env w app) := h.with_db _
      obtain ⟨w1, ha, heq⟩ := addAppContents_adopted env h' hc hf
      rw [heq]
      refine (ha.titled_self he).trans ?_
      rw [ha.db, category_looked]
      cases w.db.category.lookup (appId app) <;> simp

theorem titled_listApp_other (h : Held sam w) (he : eraseOk env sam w app = true)
    (hne : k ≠ appId app) (hrow : NulFree (appId app) ∨ Titled sam w k title) :
    Titled sam (listApp env sam w app) k title ↔ Titled sam w k title := by
  unfold eraseOk at he
  cases hf : w.findCategoryIn sam.searchSet (appId app) with
  | some p =>
    have hid := (h.keys _ p hf).1
    refine titled_congr (by rw [listApp_registered hf]; rfl) fun q hq => ⟨?_, ?_⟩
    · have hqp : q ≠ p := fun e => hne <| by rw [← (h.keys k q hq).1, e, hid]
      rw [listApp_registered hf]
      exact congrArg Category.name (if_neg hqp)
    · rw [rowName_listApp_registered env hf hid]
      cases w.db.category.lookup (appId app) with
      | none => rfl
      | some row => exact if_neg fun e => hne e.1
  | none =>
    have hlist : listApp env sam w app = (addAppContents env sam (looked env w app) app).2 :=
      listApp_new hf
    have hsame : Titled sam (looked env w app) k title ↔ Titled sam w k title :=
      titled_congr rfl fun p _ => ⟨rfl, by rw [category_looked]⟩
    rw [hlist, ← hsame]
    cases hc : isContent app with
    | false => rw [addAppContents_other hc]
    | true =>
      rw [hf, hc] at he
      have h' : Held sam (looked env w app) := h.with_db _
      obtain ⟨w1, ha, heq⟩ := addAppContents_adopted env h' hc hf
      rw [heq]
      exact ha.titled_other h' he hne (hrow.imp_right hsame.2)

/-! ## Runs -/

theorem titled_foldl_other (h : Held sam w)
    (he : Each (listApp env sam) (fun w app => eraseOk env sam w app = true) w apps)
    (hne : k ∉ apps.map appId)
    (hrow : (∀ app ∈ apps, NulFree (appId app)) ∨ Titled sam w k title) :
    Titled sam (apps.foldl (listApp env sam) w) k title ↔ Titled sam w k title := by
  induction apps generalizing w with
  | nil => exact Iff.rfl
  | cons app apps ih =>
    obtain ⟨hk, hne⟩ := List.ne_and_not_mem_of_not_mem_cons hne
    have hturn := titled_listApp_other h he.1 hk
      (hrow.imp_left fun hn => hn app List.mem_cons_self)
    rw [List.foldl_cons, ih (held_listApp h) he.2 hne ?_, hturn]
    exact hrow.imp (fun hn a ha => hn a (List.mem_cons_of_mem _ ha)) hturn.2

/-- A list: an app that has its title after its turn keeps it. -/
theorem titled_foldl_iff (h : Held sam w) (hnd : (apps.map appId).Nodup)
    (he : Each (listApp env sam) (fun w app => eraseOk env sam w app = true) w apps)
    (hok : (∀ app ∈ apps, NulFree (appId app)) ∨ Each (listApp env sam) (TurnOk env sam) w apps) :
    (∀ app ∈ apps, appTitle app ≠ "" →
        Titled sam (apps.foldl (listApp env sam) w) (appId app) (appTitle app)) ↔
      Each (listApp env sam) (TurnOk env sam) w apps := by
  induction apps generalizing w with
  | nil => exact iff_of_true nofun trivial
  | cons app apps ih =>
    obtain ⟨hnot, hnd⟩ := List.nodup_cons.1 hnd
    have h' : Held sam (listApp env sam w app) := held_listApp h
    have htail : (∀ app ∈ apps, NulFree (appId app)) ∨
        Each (listApp env sam) (TurnOk env sam) (listApp env sam w app) apps :=
      hok.imp (fun hn a ha => hn a (List.mem_cons_of_mem _ ha)) And.right
    rw [List.forall_mem_cons, List.foldl_cons, ih h' hnd he.2 htail]
    refine and_congr_left' ?_
    show _ ↔ _ ∧ _
    rw [and_iff_right he.1]
    refine forall_congr' fun ht => ?_
    have hself := titled_listApp h he.1 ht
    rw [titled_foldl_other h' he.2 hnot ?_, hself]
    exact hok.imp (fun hn a ha => hn a (List.mem_cons_of_mem _ ha)) fun hok =>
      hself.2 (hok.1.2 ht)

/-- A list that the property is about: the ids are pairwise different and not `sam.apps`. -/
def Distinct (apps : List JValue) : Prop :=
  (apps.map appId).Nodup ∧ ∀ app ∈ apps, appId app ≠ Applications.categoryId

instance (apps : List JValue) : Decidable (Distinct apps) := inferInstanceAs (Decidable (_ ∧ _))

/-- After a full list every listed app with a title has it as the name of its category. -/
def ListTitled (env : Env) (sam : Sam) (w : Service) (event : Event) : Prop :=
  ∀ apps ∈ event.list, Distinct apps → ∀ app ∈ apps, appTitle app ≠ "" →
    Titled sam (event.step env sam w) (appId app) (appTitle app)

/-- Every listed app with a title gets it at its turn. -/
def ListOk (env : Env) (sam : Sam) (w : Service) (event : Event) : Prop :=
  ∀ apps ∈ event.list, Distinct apps → Each (listApp env sam) (TurnOk env sam)
    { w with db := (Applications.removeFromDatabase env w.db).2 } apps

instance (env : Env) (sam : Sam) (w : Service) (event : Event) :
    Decidable (ListOk env sam w event) :=
  inferInstanceAs (Decidable (∀ apps ∈ event.list, Distinct apps → Each _ _ _ apps))

theorem held_step (h : Held sam w) (event : Event) : Held sam (event.step env sam w) := by
  cases event with
  | listApps payload => exact held_onListApps h payload
  | updateCategory requestPayload => exact held_updateCategory h requestPayload

theorem step_of_list {event : Event} (hl : apps ∈ event.list) : event.step env sam w =
    apps.foldl (listApp env sam)
      { w with db := (Applications.removeFromDatabase env w.db).2 } := by
  cases event with
  | listApps payload => exact onListApps_full hl
  | updateCategory requestPayload => cases hl

theorem listTitled_of_ok {event : Event} (h : Held sam w) (hok : ListOk env sam w event) :
    ListTitled env sam w event := by
  intro apps hl hd
  have hturns := hok apps hl hd
  rw [step_of_list hl]
  exact (titled_foldl_iff (h.with_db _) hd.1 (hturns.imp fun _ _ => And.left) (.inr hturns)).2
    hturns

/-- The ids of a full list have no quote and no NUL. -/
def ListPlain (event : Event) : Prop := ∀ apps ∈ event.list, ∀ app ∈ apps, Plain (appId app) ""

theorem listOk_of_titled {event : Event} (h : Held sam w) (hp : ListPlain event)
    (ht : ListTitled env sam w event) : ListOk env sam w event := by
  intro apps hl hd
  have hlist := ht apps hl hd
  rw [step_of_list hl] at hlist
  have he : ∀ app ∈ apps, ∀ w, eraseOk env sam w app = true := fun app happ w => by
    rw [eraseOk, (hp apps hl app happ).itemsOnly, Bool.or_true]
  exact (titled_foldl_iff (h.with_db _) hd.1 (each_of_forall he)
    (.inl fun app happ => (hp apps hl app happ).2.1)).1 hlist

/-- **After every full list the listed apps have their titles as names if every one of them gets
it at its turn**, along every run of messages and requests, whatever statements fail. Where the ids
have no quote and no NUL, that is also necessary. -/
theorem titled_run (env : Env) (db : Db) (language : String) (events : List Event) :
    let s := onInitialized env (start db language)
    (Each (Event.step env s.1) (ListOk env s.1) s.2 events →
      Each (Event.step env s.1) (ListTitled env s.1) s.2 events) ∧
    ((∀ event ∈ events, ListPlain event) →
      Each (Event.step env s.1) (ListTitled env s.1) s.2 events →
      Each (Event.step env s.1) (ListOk env s.1) s.2 events) := by
  intro s
  have hinit : Held s.1 s.2 := held_onInitialized env db language
  have hstep (w : Service) (event : Event) (h : Held s.1 w) : Held s.1 (event.step env s.1 w) :=
    held_step h event
  constructor
  · intro hok
    exact hok.imp_of hstep (fun _ _ h (_ : True) => listTitled_of_ok h) hinit
      fun _ _ => trivial
  · intro hp ht
    exact ht.imp_of hstep (fun _ _ h hp => listOk_of_titled h hp) hinit hp

/-- A web app with an index and a title. -/
def titledApp (id title : String) : JValue := (webApp id).put "title" (.str title)

theorem titled_run_sample :
    let s := onInitialized Env.sample (start .fresh "en")
    Each (Event.step Env.sample s.1) (ListTitled Env.sample s.1) s.2
      [.listApps (listPayload [titledApp "a" "A"]), .listApps (listPayload [titledApp "a" "B"])] :=
  (titled_run Env.sample .fresh "en" _).1 (by decide +kernel)

/-- The row of an earlier run, in which the app had another title. -/
def renamedDb : Db := ⟨⟨⟨[⟨.ofCStr "a", .ofCStr "Old", 1, true⟩], by decide⟩, []⟩, 0⟩

theorem not_listTitled_renamed :
    let s := onInitialized Env.sample (start renamedDb "en")
    ¬ ListTitled Env.sample s.1 s.2 (.listApps (listPayload [titledApp "a" "New"])) := by
  intro s h
  obtain ⟨hname, -⟩ :=
    h _ rfl (by decide) _ List.mem_cons_self (by decide) 1 (by decide +kernel)
  revert hname
  decide +kernel

end Sam

end UnifiedSearch
