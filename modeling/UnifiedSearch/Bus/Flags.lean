import UnifiedSearch.Bus.Refresh
import UnifiedSearch.Bus.RegistryRuns
import UnifiedSearch.Bus.Subscriptions

/-!
# The flags of a running service

Whether a category is enabled is said by its row and by its object. In a running
service the two agree in every state (`consistent_reachable`): a full list
writes the object back to a row that says the same, a request reaches the one
object there is, and everything else leaves the flags alone. No search of a
running service follows a null intent (`search_answers`).
-/

namespace UnifiedSearch

open Lib Service CategoryTable

/-! ## The start -/

namespace Service

variable {env : Env} {w : Service} {s : SearchSetPtr}

theorem registry_addSearchSet (env : Env) (hfree : w.searchSets.find (w.set s).id = none) :
    (w.addSearchSet env s).2.sets = (w.attach s).sets ∧
      (w.addSearchSet env s).2.searchSets = (w.attach s).searchSets := by
  rw [addSearchSet_eq hfree]
  generalize (w.set s).categories.values = l
  generalize w.attach s = w'
  induction l generalizing w' with
  | nil => exact ⟨rfl, rfl⟩
  | cons p l ih =>
    obtain ⟨db, cate, heq, -⟩ := adjustOrCreateCategory_frame env w' p
    obtain ⟨hsets, hval⟩ := ih (w'.adjustOrCreateCategory env p)
    rw [heq] at hsets hval
    rw [List.foldl_cons, heq]
    exact ⟨hsets, hval⟩

/-- A set with one category is made; it is not attached yet. -/
def newSet (env : Env) (w : Service) (cate : Category) (id : String)
    (source : Db → String → List SearchItem) : Service :=
  ({ w with
    categories := (w.categories.alloc cate).2
    sets := (w.sets.alloc { id, source }).2 }.addCategory env w.sets.next w.categories.next).2

section NewSet

variable {cate : Category} {id : String} {source : Db → String → List SearchItem}

theorem newSet_eq : w.newSet env cate id source = { w with
    categories := (w.categories.alloc cate).2
    sets := (w.sets.alloc {
      id
      source
      categories := OrdMap.empty.insert cate.id w.categories.next }).2 } := by
  have hset : { w with
      categories := (w.categories.alloc cate).2
      sets := (w.sets.alloc { id, source }).2 }.set w.sets.next = { id, source } := if_pos rfl
  have hcate : { w with
      categories := (w.categories.alloc cate).2
      sets := (w.sets.alloc { id, source }).2 }.category w.categories.next = cate := if_pos rfl
  unfold newSet
  rw [addCategory_eq (by rw [hset]; rfl)]
  dsimp only
  rw [hset, hcate, if_neg Bool.false_ne_true]
  unfold Service.set at hset
  unfold modifySet
  congr 1
  refine Heap.ext rfl fun t => ?_
  rw [Heap.cell_modify]
  show (if t = w.sets.next then _ else if t = w.sets.next then _ else _) =
    if t = w.sets.next then _ else _
  split_ifs
  · rw [hset]
  · rfl

theorem set_newSet (t : SearchSetPtr) : (w.newSet env cate id source).set t =
    if t = w.sets.next then {
      id
      source
      categories := OrdMap.empty.insert cate.id w.categories.next }
    else w.set t := by
  rw [newSet_eq]
  rfl

theorem category_of_newSet {p : CategoryPtr}
    (h : p ∈ ((w.newSet env cate id source).set w.sets.next).categories.values) :
    (w.newSet env cate id source).category p = cate := by
  rw [set_newSet, if_pos rfl] at h
  rw [newSet_eq, List.mem_singleton.1 h]
  exact if_pos rfl

theorem find_newSet (hfree : w.searchSets.find id = none) :
    (w.newSet env cate id source).searchSets.find
      ((w.newSet env cate id source).set w.sets.next).id = none := by
  rw [set_newSet, if_pos rfl, newSet_eq]
  exact hfree

/-- What attaching it writes in the registry. -/
theorem registry_attachNew (env : Env) (hfree : w.searchSets.find id = none) (t : SearchSetPtr) :
    ((w.newSet env cate id source).addSearchSet env w.sets.next).2.searchSets =
        w.searchSets.insert id w.sets.next ∧
      ((w.newSet env cate id source).addSearchSet env w.sets.next).2.sets.next =
        w.sets.next + 1 ∧
      (((w.newSet env cate id source).addSearchSet env w.sets.next).2.set t).categories =
        if t = w.sets.next then OrdMap.empty.insert cate.id w.categories.next
        else (w.set t).categories := by
  obtain ⟨hsets, hval⟩ := registry_addSearchSet env (@find_newSet env w cate id source hfree)
  have hset : ((w.newSet env cate id source).addSearchSet env w.sets.next).2.set t =
      ((w.newSet env cate id source).attach w.sets.next).set t :=
    congrArg (fun h : Heap SearchSet => h.cell t) hsets
  refine ⟨hval.trans ?_, ?_, ?_⟩
  · show (w.newSet env cate id source).searchSets.insert
      ((w.newSet env cate id source).set w.sets.next).id _ = _
    rw [set_newSet, if_pos rfl, newSet_eq]
  · rw [hsets, newSet_eq]
    rfl
  · rw [hset, set_attach, set_newSet, set_newSet, if_pos rfl]
    split_ifs <;> rfl

end NewSet

end Service

def audioId : String := "mediaindexer.audio"

namespace System

def samCategory : Category where
  id := Applications.categoryId
  name := "Applications"
  generateIntent := Applications.generateIntent

def audioCategory : Category where
  id := audioId
  name := "Audio Files"
  generateIntent := DB8Category.generateIntent

theorem onInitialized_eq (env : Env) (db : Db) (language : String) :
    Sam.onInitialized env (start db language) =
      (⟨0, 0⟩, (((start (Applications.removeFromDatabase env db).2 language).newSet env samCategory
        "SAM" (Database.search env)).addSearchSet env 0).2) := by
  have hdb : (start db language).db = db := rfl
  unfold Sam.onInitialized
  rw [hdb]
  generalize (Applications.removeFromDatabase env db).2 = db'
  rfl

/-- The start: two sets, each with one category, are made and attached. -/
theorem service_initial (env : Env) (db : Db) : (initial env db).service =
    let w := (((start (Applications.removeFromDatabase env db).2 "").newSet env samCategory "SAM"
      (Database.search env)).addSearchSet env 0).2
    ((w.newSet env audioCategory "Media" fun _ _ => []).addSearchSet env w.sets.next).2 := by
  unfold initial
  rw [onInitialized_eq]
  dsimp only
  generalize (((start (Applications.removeFromDatabase env db).2 "").newSet env samCategory "SAM"
    (Database.search env)).addSearchSet env 0).2 = w
  rfl

theorem categories_plugin (env : Env) {w : Service}
    (hval : w.searchSets = OrdMap.empty.insert "SAM" 0) (hnext : w.sets.next = 1) :
    (((w.newSet env audioCategory "Media" fun _ _ => []).addSearchSet env w.sets.next).2.set
      0).categories = (w.set 0).categories := by
  have hfree : w.searchSets.find "Media" = none := by rw [hval]; decide
  rw [(registry_attachNew env hfree 0).2.2, if_neg (by rw [hnext]; decide)]

end System

/-! ## Intents -/

theorem Intact.attachNew {w : Service} (h : Intact w) (env : Env) (cate : Category)
    (hgen : ∀ language name item, (cate.generateIntent language name item).isSome = true)
    (id : String) (source : Db → String → List SearchItem) :
    Intact ((w.newSet env cate id source).addSearchSet env w.sets.next).2 :=
  (((h.newCategory cate hgen).newSearchSet id source).addCategory env w.sets.next
    (Nat.lt_succ_self _)).addSearchSet env w.sets.next

namespace System

theorem intact_initial (env : Env) (db : Db) : Intact (initial env db).service := by
  rw [service_initial]
  generalize (Applications.removeFromDatabase env db).2 = db'
  have hstart : Intact (start db' "") := ⟨fun _ _ _ h => (by cases h), fun _ h => (by cases h)⟩
  exact (hstart.attachNew env samCategory (fun _ _ _ => rfl) "SAM" (Database.search env)).attachNew
    env audioCategory (fun _ _ _ => rfl) "Media" fun _ _ => []

theorem intact_step {env : Env} {s : System} (h : Intact s.service) (event : SystemEvent) :
    Intact (s.step env event).service := by
  obtain ⟨-, -, _, heq⟩ | ⟨_, payload, -, -, heq⟩ | ⟨requestPayload, -, heq⟩ :=
    service_step env s event
  · rw [heq]
    exact { h with }
  · rw [heq]
    exact h.onListApps (env.reading s.files) s.sam payload
  · rw [heq]
    exact h.updateCategory env requestPayload

end System

theorem Bus.isSome_search {w : Service} (h : w.NonNullIntents) (requestPayload : JValue) :
    (Bus.search w requestPayload).isSome = true := by
  unfold Bus.search
  split
  · rfl
  · next key _ =>
    split_ifs
    · rfl
    · unfold Bus.appendResults
      rw [show JValue.array = JValue.arr [] from rfl, Bus.appendResults_eq h]
      rfl

theorem intact_reachable (env : Env) (db : Db) (events : List SystemEvent) :
    Intact (run (System.step env) (System.initial env db) events).service :=
  run_invariant (P := fun s : System => Intact s.service)
    (fun _ event h => System.intact_step h event) (System.intact_initial env db) events

/-- **No search of a running service follows a null intent**, so each gets a response, whatever
statements have failed before. -/
theorem search_answers (env : Env) (db : Db) (events : List SystemEvent)
    (requestPayload : JValue) :
    let w := (run (System.step env) (System.initial env db) events).service
    w.NonNullIntents ∧ (Bus.search w requestPayload).isSome = true := by
  intro w
  have h : Intact w := intact_reachable env db events
  exact ⟨h.nonNullIntents, Bus.isSome_search h.nonNullIntents requestPayload⟩

/-! ## Flags -/

theorem Bus.registry_updateCategory (env : Env) (w : Service) (requestPayload : JValue) :
    (Bus.updateCategory env w requestPayload).2.sets = w.sets ∧
      (Bus.updateCategory env w requestPayload).2.searchSets = w.searchSets := by
  unfold Bus.updateCategory
  split
  · exact ⟨rfl, rfl⟩
  · split
    · exact ⟨rfl, rfl⟩
    · dsimp only
      split <;> exact ⟨rfl, rfl⟩

/-- The two sets that are attached, the ones of SAM and of the plugin, share no category id. -/
structure Apart (w : Service) : Prop where
  values : w.searchSets.values = [1, 0]
  media : ∀ k p, (w.set 1).categories.find k = some p → k = audioId
  sam : (w.set 0).categories.find audioId = none

/-- The registry is sound, and the two copies of each flag agree. -/
structure Agrees (w : Service) : Prop where
  registered : w.Registered
  consistent : w.Consistent
  apart : Apart w

/-- Deleting by the id touches items only, and content gets a row of its own. -/
structure Proper (app : JValue) : Prop where
  quote : '\'' ∉ (Sam.appId app).toList
  content : Sam.isContent app = true → NulFree (Sam.appId app) ∧ Sam.appId app ≠ audioId

theorem category_removeFromDatabase (env : Env) (db : Db) {id : String} (hq : '\'' ∉ id.toList) :
    (Applications.removeFromDatabase env.healthy db id).2.category = db.category := by
  unfold Applications.removeFromDatabase
  rw [removeItem_eq (by decide) fun hmem => hq (Text.mem_ofCStr hmem)]

namespace Agrees

variable {env : Env} {w w' : Service} {app : JValue} {s : SearchSetPtr} {p q : CategoryPtr}
  {k : String}

theorem unshared (h : Agrees w) (k : String) : w.Unshared k := by
  have hset : ∀ s, s ∈ w.searchSets.values → s = 0 ∨ s = 1 := fun s hs => by
    rw [h.apart.values] at hs
    simp only [List.mem_cons, List.not_mem_nil, or_false] at hs
    exact hs.symm
  have hboth : ∀ p q, (w.set 0).categories.find k = some p →
      (w.set 1).categories.find k = some q → False := fun p q hp hq => by
    rw [h.apart.media k q hq, h.apart.sam] at hp
    cases hp
  rintro s t p q ⟨hs, hp⟩ ⟨ht, hq⟩
  rcases hset s hs with rfl | rfl <;> rcases hset t ht with rfl | rfl
  · exact Option.some.inj (hp.symm.trans hq)
  · exact (hboth p q hp hq).elim
  · exact (hboth q p hq hp).elim
  · exact Option.some.inj (hp.symm.trans hq)

/-- Writes that leave the sets, the ids and the flags on both sides. -/
theorem frame (h : Agrees w) (hsets : w'.sets = w.sets) (hval : w'.searchSets = w.searchSets)
    (hnext : w'.categories.next = w.categories.next)
    (hobj : ∀ p, (w'.category p).id = (w.category p).id ∧
      (w'.category p).enabled = (w.category p).enabled)
    (hrow : ∀ id r, w.db.category.lookup id = some r →
      ∃ r', w'.db.category.lookup id = some r' ∧ r'.enabled = r.enabled)
    (hfind : ∀ k, (w.db.category.find k).isSome → (w'.db.category.find k).isSome) :
    Agrees w' := by
  have hb : w'.Backed := h.registered.backed.mono
    (fun p hd => ⟨(hobj p).2.symm.trans hd, (hobj p).1⟩) hfind
  refine ⟨h.registered.frame hsets hval hnext (fun p => (hobj p).1) hb, fun s k p hp => ?_, ?_⟩
  · obtain ⟨r, hl, hen⟩ := h.consistent s k p ((holds_congr hsets hval).1 hp)
    obtain ⟨r', hl', hen'⟩ := hrow _ r hl
    exact ⟨r', by rw [(hobj p).1]; exact hl', by rw [(hobj p).2, hen', hen]⟩
  · have hset (t : SearchSetPtr) : w'.set t = w.set t := by unfold Service.set; rw [hsets]
    refine ⟨hval ▸ h.apart.values, ?_, ?_⟩
    · rw [hset]
      exact h.apart.media
    · rw [hset]
      exact h.apart.sam

theorem with_db (h : Agrees w) {db : Db} (hcat : db.category = w.db.category) :
    Agrees { w with db } :=
  h.frame rfl rfl rfl (fun _ => ⟨rfl, rfl⟩) (fun id r hl => ⟨r, by rw [hcat]; exact hl, rfl⟩)
    fun k hk => by rw [hcat]; exact hk

/-- A registered category is written back to its row, which has its flag. -/
theorem refresh (h : Agrees w) (env : Env) (app : JValue)
    (hp : w.Holds s (Sam.appId app) p) : Agrees (Sam.refresh env.healthy w p app) := by
  have hobj (q : CategoryPtr) :
      ((Sam.refresh env.healthy w p app).category q).id = (w.category q).id ∧
        ((Sam.refresh env.healthy w p app).category q).enabled = (w.category q).enabled := by
    have hcell : (Sam.refresh env.healthy w p app).category q =
        if q = p then { w.category p with name := Sam.appTitle app } else w.category q := rfl
    rw [hcell]
    split_ifs with hq
    · rw [hq]
      exact ⟨rfl, rfl⟩
    · exact ⟨rfl, rfl⟩
  obtain ⟨row, hrow, hen⟩ := h.consistent s _ p hp
  obtain ⟨-, heq⟩ | ⟨row', clock, hl, -, heq⟩ :=
    updateCategory_cases w.db { w.category p with name := Sam.appTitle app }
  · have hdb : (Sam.refresh env.healthy w p app).db = w.db := congrArg Prod.snd heq
    refine h.frame rfl rfl rfl hobj (fun id r hr => ⟨r, ?_, rfl⟩) fun k hk => ?_
    · rw [hdb]
      exact hr
    · rw [hdb]
      exact hk
  · have hsame : row = row' := Option.some.inj (hrow.symm.trans hl)
    subst hsame
    have hdb : (Sam.refresh env.healthy w p app).db.category =
        w.db.category.updated row { w.category p with name := Sam.appTitle app } :=
      congrArg (fun r : Bool × Db => r.2.category) heq
    refine h.frame rfl rfl rfl hobj (fun id r hr => ?_) fun k hk => ?_
    · rw [hdb]
      obtain ⟨r', hr', hen'⟩ := lookup_updated_enabled hl hr
      refine ⟨r', hr', hen'.trans ?_⟩
      split_ifs with hid
      · rw [hid, hl] at hr
        cases hr
        exact hen.symm
      · rfl
    · rw [hdb]
      exact isSome_find_updated hk

theorem newCategory (h : Agrees w) {cate : Category} (hen : cate.enabled = true) :
    Agrees { w with categories := (w.categories.alloc cate).2 } :=
  ⟨registered_newCategory h.registered cate hen,
    consistent_newCategory h.registered h.consistent cate, { h.apart with }⟩

theorem addCategory (h : Agrees w) (env : Env) (hlt : p < w.categories.next)
    (hn : NulFree (w.category p).id) (ha : (w.category p).id ≠ audioId) :
    Agrees (w.addCategory env.healthy 0 p).2 := by
  cases hf : (w.set 0).categories.find (w.category p).id with
  | some q =>
    rw [addCategory_refused (by rw [hf]; rfl)]
    exact h
  | none =>
    obtain ⟨hr, hc⟩ := addCategory_spec hf env h.registered hlt
    refine ⟨hr, (hc h.consistent).2 fun _ => hn, ?_, fun k q hq => ?_, ?_⟩
    · rw [addCategory_eq hf]
      dsimp only
      split_ifs
      · rw [(adjusted env _ p).searchSets]
        exact h.apart.values
      · exact h.apart.values
    · have hset : (w.addCategory env.healthy 0 p).2.set 1 = w.set 1 := by
        rw [addCategory_eq hf]
        dsimp only
        split_ifs
        · unfold Service.set
          rw [(adjusted env _ p).sets]
          rfl
        · rfl
      rw [hset] at hq
      exact h.apart.media k q hq
    · rw [← Option.not_isSome_iff_eq_none, isSome_find_addCategory]
      rintro (hk | hk)
      · rw [h.apart.sam] at hk
        cases hk
      · exact ha hk.symm

theorem addAppContents (h : Agrees w) (env : Env) {sam : Sam} (hsam : sam.searchSet = 0)
    (hp : Proper app) (hc : Sam.isContent app = true) :
    Agrees (Sam.addAppContents env.healthy sam w app).2 := by
  obtain ⟨hn, ha⟩ := hp.content hc
  have hdb : Agrees { w with db := (AppContents.make env.healthy w (Sam.appId app)
      (Sam.appTitle app) app).2.db } :=
    h.with_db (AppContents.category_make env w _ app fun hmem => hp.quote (Text.mem_ofCStr hmem))
  have hmade : Agrees (AppContents.make env.healthy w (Sam.appId app) (Sam.appTitle app) app).2 :=
    hdb.newCategory rfl
  obtain ⟨hptr, -, -, hid⟩ :=
    AppContents.make_frame env.healthy w (Sam.appId app) (Sam.appTitle app) app
  rw [← hptr] at hid
  have hlt : (AppContents.make env.healthy w (Sam.appId app) (Sam.appTitle app) app).1 <
      (AppContents.make env.healthy w (Sam.appId app) (Sam.appTitle app) app).2.categories.next :=
    Nat.lt_succ_self _
  rw [Sam.addAppContents_content hc, hsam]
  generalize AppContents.make env.healthy w (Sam.appId app) (Sam.appTitle app) app = made at *
  exact hmade.addCategory env hlt (hid ▸ hn) (hid ▸ ha)

theorem removeCategory (h : Agrees w) (env : Env) (k : String) :
    Agrees (w.removeCategory env.healthy 0 k).2 := by
  obtain ⟨hr, hc⟩ := @removeCategory_spec w env.healthy 0 k h.registered h.consistent
  refine ⟨hr, hc, ?_⟩
  rw [removeCategory_snd]
  split_ifs
  · exact h.apart
  · refine ⟨h.apart.values, fun k' q hq => h.apart.media k' q ?_, ?_⟩
    · rw [find_erase_set, if_neg fun e => by cases e.1] at hq
      exact hq
    · rw [find_erase_set]
      split_ifs
      · rfl
      · exact h.apart.sam

/-- What each part of a message to SAM keeps, where the apps are proper. -/
theorem kept (env : Env) {sam : Sam} (hsam : sam.searchSet = 0) {apps : List JValue}
    (hp : ∀ app ∈ apps, Proper app) : Sam.Kept env.healthy sam apps Agrees := by
  refine ⟨?_, ?_, ?_, ?_, ?_⟩
  · intro w h
    refine h.with_db ?_
    rw [Sam.removeFromDatabase_eq]
  · exact fun w app _ h => h.with_db (Sam.addToDatabase_category env.healthy w.db app)
  · exact fun w app happ hc h => h.addAppContents env hsam (hp app happ) hc
  · intro w p app _ hf h
    refine h.refresh env app (s := 0) ⟨?_, hsam ▸ hf⟩
    rw [h.apart.values]
    exact List.mem_cons_of_mem _ (List.mem_singleton_self 0)
  · intro w app happ h
    have hdb : Agrees { w with
        db := (Applications.removeFromDatabase env.healthy w.db (Sam.appId app)).2 } :=
      h.with_db (category_removeFromDatabase env w.db (hp app happ).quote)
    unfold Sam.dropApp
    rw [hsam]
    exact hdb.removeCategory env _

theorem onListApps (h : Agrees w) (env : Env) {sam : Sam} (hsam : sam.searchSet = 0)
    {payload : JValue} (hp : ∀ app ∈ Sam.messageApps payload, Proper app) :
    Agrees (Sam.onListApps env.healthy sam w payload) :=
  Sam.onListApps_induct (kept env hsam hp) h

theorem updateCategory (h : Agrees w) (env : Env) (requestPayload : JValue) :
    Agrees (Bus.updateCategory env.healthy w requestPayload).2 := by
  obtain ⟨hr, hc⟩ := updateCategory_spec env requestPayload h.registered h.consistent
  refine ⟨hr, hc.2 fun cate _ _ _ _ => .inl (h.unshared cate.id), ?_⟩
  obtain ⟨hsets, hval⟩ := Bus.registry_updateCategory env.healthy w requestPayload
  have hset (t : SearchSetPtr) :
      (Bus.updateCategory env.healthy w requestPayload).2.set t = w.set t := by
    unfold Service.set
    rw [hsets]
  refine ⟨hval ▸ h.apart.values, ?_, ?_⟩
  · rw [hset]
    exact h.apart.media
  · rw [hset]
    exact h.apart.sam

theorem row (h : Agrees w) {key : String} {item : SearchItem} (hr : (s, item) ∈ w.returned key)
    (hf : w.findCategoryIn s item.category = some p) :
    ∃ row, w.db.category.lookup item.category = some row ∧
      row.enabled = (w.category p).enabled := by
  obtain ⟨t, ht, hi⟩ := List.mem_flatMap.1 hr
  obtain ⟨item', -, he⟩ := List.mem_map.1 hi
  obtain ⟨rfl, rfl⟩ := Prod.mk.inj he
  have hheld : w.Holds t item'.category p := ⟨ht, hf⟩
  obtain ⟨row, hl, hen⟩ := h.consistent t _ p hheld
  rw [h.registered.holds_id hheld] at hl
  exact ⟨row, hl, hen⟩

end Agrees

namespace Service

variable {w : Service} {cate : Category} {id : String} {source : Db → String → List SearchItem}

theorem registered_newSet (env : Env) (hr : w.Registered) (hc : w.Consistent)
    (hen : cate.enabled = true) : (w.newSet env.healthy cate id source).Registered ∧
      (w.newSet env.healthy cate id source).Consistent := by
  have hr1 := registered_newSearchSet (registered_newCategory hr cate hen) id source
  have hc1 := consistent_newSearchSet (registered_newCategory hr cate hen)
    (consistent_newCategory hr hc cate) { id, source }
  have hset : { w with
      categories := (w.categories.alloc cate).2
      sets := (w.sets.alloc { id, source }).2 }.set w.sets.next = { id, source } := if_pos rfl
  obtain ⟨hr2, hc2⟩ := addCategory_spec (c := w.categories.next) (s := w.sets.next)
    (by rw [hset]; rfl) env hr1 (Nat.lt_succ_self _)
  refine ⟨hr2, (hc2 hc1).2 fun hs => ?_⟩
  exact absurd (hr.attached _ hs).1 (lt_irrefl _)

theorem consistent_attachNew (env : Env) (hr : w.Registered) (hc : w.Consistent)
    (hen : cate.enabled = true) (hnul : NulFree cate.id) (hfree : w.searchSets.find id = none) :
    ((w.newSet env.healthy cate id source).addSearchSet env.healthy w.sets.next).2.Registered ∧
      ((w.newSet env.healthy cate id source).addSearchSet env.healthy
        w.sets.next).2.Consistent := by
  obtain ⟨hr1, hc1⟩ := @registered_newSet w cate id source env hr hc hen
  have hnew := @find_newSet env.healthy w cate id source hfree
  have hlt : w.sets.next < (w.newSet env.healthy cate id source).sets.next := by
    rw [newSet_eq]
    exact Nat.lt_succ_self _
  obtain ⟨hr2, hc2⟩ := addSearchSet_spec hnew env hr1 hlt
  exact ⟨hr2, (hc2 hc1).2 fun p hp => by rw [category_of_newSet hp]; exact hnul⟩

end Service

namespace System

theorem agrees_plugin (env : Env) {w : Service} (hr : w.Registered) (hc : w.Consistent)
    (hval : w.searchSets = OrdMap.empty.insert "SAM" 0) (hnext : w.sets.next = 1)
    (hsam : (w.set 0).categories.find audioId = none) :
    Agrees ((w.newSet env.healthy audioCategory "Media" fun _ _ => []).addSearchSet env.healthy
      w.sets.next).2 := by
  have hfree : w.searchSets.find "Media" = none := by rw [hval]; decide
  obtain ⟨hr1, hc1⟩ := @consistent_attachNew w audioCategory "Media" (fun _ _ => []) env hr hc rfl
    (by decide) hfree
  have hreg := @registry_attachNew w audioCategory "Media" (fun _ _ => []) env.healthy hfree
  refine ⟨hr1, hc1, ?_, fun k p hp => ?_, ?_⟩
  · rw [(hreg 0).1, hval, hnext]
    decide
  · rw [(hreg 1).2.2, if_pos hnext.symm, OrdMap.find_insert rfl] at hp
    split_ifs at hp with hk
    · exact hk
    · cases hp
  · rw [categories_plugin env.healthy hval hnext]
    exact hsam

theorem agrees_initial (env : Env) (db : Db) : Agrees (initial env.healthy db).service := by
  rw [service_initial]
  generalize (Applications.removeFromDatabase env.healthy db).2 = db'
  have hr := registered_start db' ""
  have hc : (start db' "").Consistent := fun _ _ _ h => by cases h.1
  obtain ⟨hr1, hc1⟩ := @consistent_attachNew (start db' "") samCategory "SAM"
    (Database.search env.healthy) env hr hc rfl (by decide) rfl
  have hreg := @registry_attachNew (start db' "") samCategory "SAM" (Database.search env.healthy)
    env.healthy rfl
  have hsam := (hreg 0).2.2.trans (if_pos rfl)
  refine agrees_plugin env hr1 hc1 (hreg 0).1 (hreg 0).2.1 ?_
  have hfind : (OrdMap.empty.insert Applications.categoryId 0).find audioId = none := by decide
  exact (congrArg (fun m : OrdMap String CategoryPtr => m.find audioId) hsam).trans hfind

theorem agrees_step {env : Env} {s : System} (h : Agrees s.service) (hsam : s.sam = ⟨0, 0⟩)
    (event : SystemEvent) (hp : ∀ handle payload, event = .message handle payload →
      ∀ app ∈ Sam.messageApps payload, Proper app) :
    Agrees (s.step env.healthy event).service := by
  obtain ⟨-, -, _, heq⟩ | ⟨handle, payload, he, -, heq⟩ | ⟨requestPayload, -, heq⟩ :=
    service_step env.healthy s event
  · rw [heq]
    exact h.frame rfl rfl rfl (fun _ => ⟨rfl, rfl⟩) (fun _ r hl => ⟨r, hl, rfl⟩) fun _ hk => hk
  · rw [heq]
    exact h.onListApps (env.reading s.files) (congrArg Sam.searchSet hsam) (hp handle payload he)
  · rw [heq]
    exact h.updateCategory env requestPayload

theorem sam_step (env : Env) (s : System) (event : SystemEvent) :
    (s.step env event).sam = s.sam := by
  cases event with
  | serverStatus client payload =>
    show (s.onServerStatus env client payload).sam = s.sam
    rw [onServerStatus_eq]
    cases connectedOf payload <;> rfl
  | message handle payload =>
    show (s.deliver env handle payload).sam = s.sam
    rw [deliver_eq]
    split_ifs <;> rfl
  | timeout =>
    show (s.timeout env).sam = s.sam
    unfold timeout reloadAppsByLocaleChange
    split_ifs <;> rfl
  | updateCategory requestPayload => rfl
  | files files => rfl

theorem sam_run (env : Env) (db : Db) (events : List SystemEvent) :
    (run (step env) (initial env db) events).sam = ⟨0, 0⟩ :=
  run_invariant (P := fun s : System => s.sam = ⟨0, 0⟩)
    (fun s event h => (sam_step env s event).trans h) rfl events

end System

theorem agrees_reachable (env : Env) (db : Db) (events : List SystemEvent)
    (hp : ∀ handle payload, .message handle payload ∈ events →
      ∀ app ∈ Sam.messageApps payload, Proper app) :
    Agrees (run (System.step env.healthy) (System.initial env.healthy db) events).service :=
  (run_invariant_of (P := fun s : System => Agrees s.service ∧ s.sam = ⟨0, 0⟩)
    (fun s event hgood h => ⟨System.agrees_step h.1 h.2 event hgood,
      (System.sam_step _ s event).trans h.2⟩)
    ⟨System.agrees_initial env db, rfl⟩
    fun _ hmem handle payload he => hp handle payload (he ▸ hmem)).1

/-- **The two copies of each flag agree in every state of a running service**, so a search accepts
exactly the items of the registered categories whose rows are enabled, for every run in which the
ids of the apps have no single quote and no content is filed under an id with a NUL or under the one
of the plugin. -/
theorem consistent_reachable (env : Env) (db : Db) (events : List SystemEvent)
    (hp : ∀ handle payload, .message handle payload ∈ events →
      ∀ app ∈ Sam.messageApps payload, Proper app) :
    let w := (run (System.step env.healthy) (System.initial env.healthy db) events).service
    w.Consistent ∧ ∀ key p item, (p, item) ∈ w.accepted key ↔
      ∃ s row, (s, item) ∈ w.returned key ∧ w.findCategoryIn s item.category = some p ∧
        w.db.category.lookup item.category = some row ∧ row.enabled = true := by
  intro w
  have h : Agrees w := agrees_reachable env db events hp
  refine ⟨h.consistent, fun key p item => ?_⟩
  unfold accepted
  rw [List.mem_filterMap]
  constructor
  · rintro ⟨⟨s, item'⟩, hr, ha⟩
    obtain ⟨q, hq, he⟩ := Option.map_eq_some_iff.1 ha
    obtain ⟨rfl, rfl⟩ := Prod.mk.inj he
    obtain ⟨hf, hen⟩ := Option.filter_eq_some_iff.1 hq
    obtain ⟨row, hl, hrow⟩ := h.row hr hf
    exact ⟨s, row, hr, hf, hl, hrow.trans hen⟩
  · rintro ⟨s, row, hr, hf, hl, hen⟩
    obtain ⟨row', hl', hrow⟩ := h.row hr hf
    have hsame : row = row' := Option.some.inj (hl.symm.trans hl')
    refine ⟨(s, item), hr, Option.map_eq_some_iff.2 ⟨p, Option.filter_eq_some_iff.2 ⟨hf, ?_⟩, rfl⟩⟩
    rw [← hrow, ← hsame]
    exact hen

/-- Two applications are listed, and the user disables one. -/
def listedEvents : List SystemEvent := [
  .serverStatus .sam (System.statusPayload true),
  .message 0 (Sam.listPayload [Sam.webApp "a", Sam.webApp "b"]),
  .updateCategory Bus.disableRequest]

theorem consistent_reachable_sample :
    (run (System.step Env.sample.healthy) (System.initial Env.sample.healthy .fresh)
      listedEvents).service.Consistent := by
  refine (consistent_reachable .sample .fresh listedEvents fun handle payload hmem app happ => ?_).1
  simp only [listedEvents, List.mem_cons, SystemEvent.message.injEq, List.not_mem_nil, or_false,
    reduceCtorEq, false_or] at hmem
  obtain ⟨rfl, rfl⟩ := hmem
  rcases List.mem_cons.1 happ with rfl | happ
  · exact ⟨by decide, fun _ => ⟨by decide, by decide⟩⟩
  · rw [List.mem_singleton.1 happ]
    exact ⟨by decide, fun _ => ⟨by decide, by decide⟩⟩

end UnifiedSearch
