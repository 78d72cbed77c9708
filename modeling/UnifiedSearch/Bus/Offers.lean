import UnifiedSearch.Bus.ContentSearch

/-!
# Where the items come from

Items are deleted and inserted by statements that may fail, so after a failure
the table no longer tells what is installed. What it never does is invent: it is
a part of what the start has left and of what the messages have offered since,
in that order, and a search accepts nothing else (`items_run`). The items of a
category are deleted only when content is offered for it. `Stores` says so of
two databases; every write is one, and they compose.
-/

namespace UnifiedSearch

open Lib Service Database

/-- Between the two, at most `new` has been stored, and no rows have been deleted but those of the
applications and of the categories `keys`. -/
structure Stores (new : List ItemRow) (keys : List String) (db db' : Db) : Prop where
  items : db'.items.Sublist (db.items ++ new)
  rows : ∀ k, k ≠ Applications.categoryId → k ∉ keys → categoryRows db' k = categoryRows db k

namespace Stores

variable {new new' : List ItemRow} {keys keys' : List String} {db db' db'' : Db}

theorem of_items (h : db'.items = db.items) : Stores [] [] db db' :=
  ⟨by rw [h, List.append_nil], fun k _ _ => congrArg (List.filter _) h⟩

theorem trans (h : Stores new keys db db') (h' : Stores new' keys' db' db'') :
    Stores (new ++ new') (keys ++ keys') db db'' := by
  refine ⟨?_, fun k hk hnot => ?_⟩
  · rw [← List.append_assoc]
    exact h'.items.trans (h.items.append_right new')
  · obtain ⟨hnot, hnot'⟩ := not_or.1 (mt List.mem_append.2 hnot)
    exact (h'.rows k hk hnot').trans (h.rows k hk hnot)

theorem mono (h : Stores new keys db db') (hnew : new.Sublist new') (hkeys : keys ⊆ keys') :
    Stores new' keys' db db' :=
  ⟨h.items.trans (hnew.append_left db.items), fun k hk hnot => h.rows k hk (mt (@hkeys k) hnot)⟩

theorem append (h : Stores new keys db db') (new' : List ItemRow) (keys' : List String) :
    Stores (new ++ new') (keys ++ keys') db db' :=
  h.mono (List.sublist_append_left ..) (List.subset_append_left ..)

end Stores

theorem categoryRows_of_nul {db : Db} {k : String} (hn : ¬NulFree k) : categoryRows db k = [] :=
  List.filter_eq_nil_iff.2 fun r _ he => hn (of_decide_eq_true he ▸ r.category.nulFree)

namespace Sam

variable {env : Env} {sam : Sam} {w : Service} {app : JValue} {apps : List JValue}
  {payload : JValue}

/-! ## Offers -/

/-- The apps that a message asks to store. -/
def offered (payload : JValue) : List JValue :=
  match fullList payload with
  | some apps => apps
  | none =>
    match changeOf payload with
    | some (change, app) => if change = "added" then [app] else []
    | none => []

/-- The rows of the items of an application. -/
def contentRows (env : Env) (app : JValue) : List ItemRow :=
  if isContent app then (AppContents.indexedItems env (appId app) app).map (itemRow env) else []

/-- The category of these rows. -/
def contentKeys (app : JValue) : List String := if isContent app then [appKey app] else []

/-- The rows of an application: its own, if it is visible, and then those of its items. -/
def offers (env : Env) (app : JValue) : List ItemRow := listRows env [app] ++ contentRows env app

/-- The rows that a message asks to store, handled over the files. -/
def messageRows (env : Env) (message : Files × JValue) : List ItemRow :=
  (offered message.2).flatMap (offers (env.reading message.1))

/-- The categories that a message has content for. -/
def messageKeys (payload : JValue) : List String := (offered payload).flatMap contentKeys

/-- No single quote in the id. -/
def QuoteFree (app : JValue) : Prop := '\'' ∉ (appId app).toList

instance : Decidable (QuoteFree app) := inferInstanceAs (Decidable (¬_))

theorem QuoteFree.ofCStr (h : QuoteFree app) : '\'' ∉ (Text.ofCStr (appId app)).val.toList :=
  fun hmem => h (Text.mem_ofCStr hmem)

/-! ## One write -/

theorem stores_removeFromDatabase (env : Env) (db : Db) {id : String} (hq : '\'' ∉ id.toList) :
    Stores [] [] db (Applications.removeFromDatabase env db id).2 := by
  have hc : '\'' ∉ (Text.ofCStr Applications.categoryId).val.toList := by decide
  refine ⟨?_, fun k hk _ => categoryRows_removeFromDatabase env db hk hq⟩
  rw [List.append_nil]
  unfold Applications.removeFromDatabase
  obtain h | ⟨key, h⟩ := removeItem_items env db hc fun hmem => hq (Text.mem_ofCStr hmem)
  · rw [h]
  · rw [h]
    exact List.filter_sublist

theorem stores_addItem (env : Env) (w : Service) (app : JValue) :
    Stores (listRows env [app]) [] w.db (addItem env w app).db := by
  refine ⟨?_, fun k hk _ => categoryRows_addItem env w app hk⟩
  unfold addItem Applications.addToDatabase listRows
  cases hv : Applications.visible app with
  | false => simp [hv]
  | true =>
    rw [List.filter_cons_of_pos hv]
    obtain h | h := insertItem_items env w.db (Applications.item app)
    · exact h ▸ List.sublist_append_left ..
    · exact h ▸ List.Sublist.refl _

/-- The constructor: the items of the category go, then those of the application come, and each of
these statements may fail. -/
theorem stores_make (env : Env) (w : Service) (name : String) (hq : QuoteFree app) :
    Stores ((AppContents.indexedItems env (appId app) app).map (itemRow env)) [appKey app] w.db
      (AppContents.make env w (appId app) name app).2.db := by
  have hempty : '\'' ∉ (Text.ofCStr "").val.toList := by decide
  have hold := removeItem_items env w.db hq.ofCStr hempty
  have hcreate := AppContents.createIndexes_eq env
    (AppContents.eraseCategory env w.db (appId app)) (appId app) app
  obtain ⟨stored, hsub, -, hstored⟩ := AppContents.insertItems_stored env
    (AppContents.eraseCategory env w.db (appId app)) id
    (AppContents.indexedItems env (appId app) app)
  rw [List.map_id, ← hcreate] at hstored
  have hmake : (AppContents.make env w (appId app) name app).2.db.items =
      (removeItem env w.db (appId app)).2.items ++ stored.map (itemRow env) := hstored
  refine ⟨?_, fun k _ hk => ?_⟩
  · have hold : (removeItem env w.db (appId app)).2.items.Sublist w.db.items := by
      obtain h | ⟨key, h⟩ := hold
      · rw [h]
      · rw [h]
        exact List.filter_sublist
    rw [hmake]
    exact hold.append (hsub.map _)
  · by_cases hn : NulFree k
    · have hkey : appKey app ≠ k := fun e => hk (List.mem_singleton.2 e.symm)
      have hid : appId app ≠ k := by
        rintro rfl
        exact hkey (Text.ofCStr_of_nulFree hn)
      have hnone : (stored.map (itemRow env)).filter (·.category.val = k) = [] := by
        refine List.filter_eq_nil_iff.2 fun r hr => ?_
        obtain ⟨item, hitem, rfl⟩ := List.mem_map.1 hr
        obtain ⟨_, -, rfl⟩ := List.mem_map.1 (hsub.subset hitem)
        exact fun he => hkey (of_decide_eq_true he)
      rw [← categoryRows_removeItem env w.db hid hq.ofCStr hempty]
      unfold categoryRows
      rw [hmake, List.filter_append, hnone, List.append_nil]
    · rw [categoryRows_of_nul hn, categoryRows_of_nul hn]

theorem stores_addAppContents (env : Env) (w : Service) (hq : QuoteFree app) :
    Stores (contentRows env app) (contentKeys app) w.db
      (addAppContents env sam w app).2.db := by
  unfold contentRows contentKeys
  cases hc : isContent app with
  | false =>
    rw [addAppContents_other hc]
    exact .of_items rfl
  | true =>
    have hadd := Stores.of_items (addCategory_db env
      (AppContents.make env w (appId app) (appTitle app) app).2 sam.searchSet
      (AppContents.make env w (appId app) (appTitle app) app).1).1
    have h := (stores_make env w (appTitle app) hq).trans hadd
    rw [List.append_nil, List.append_nil] at h
    rw [addAppContents_content hc]
    exact h

/-! ## One message -/

theorem stores_listApp (env : Env) (w : Service) (hq : QuoteFree app) :
    Stores (offers env app) (contentKeys app) w.db (listApp env sam w app).db := by
  have hitem := stores_addItem env w app
  cases hf : w.findCategoryIn sam.searchSet (appId app) with
  | none =>
    rw [listApp_new hf]
    exact hitem.trans (stores_addAppContents env (addItem env w app) hq)
  | some p =>
    have hrefresh : Stores [] [] (addItem env w app).db
      (refresh env (addItem env w app) p app).db := .of_items (items_updateCategory _ _)
    have h := hitem.trans hrefresh
    rw [List.append_nil] at h
    rw [listApp_refresh hf]
    exact h.append (contentRows env app) (contentKeys app)

theorem stores_foldl_listApp (env : Env) (w : Service) (hq : ∀ app ∈ apps, QuoteFree app) :
    Stores (apps.flatMap (offers env)) (apps.flatMap contentKeys) w.db
      (apps.foldl (listApp env sam) w).db := by
  induction apps generalizing w with
  | nil => exact .of_items rfl
  | cons app apps ih =>
    exact (stores_listApp env w (hq app List.mem_cons_self)).trans
      (ih _ fun a ha => hq a (List.mem_cons_of_mem _ ha))

theorem stores_onListApps (env : Env) (files : Files) (sam : Sam) (w : Service)
    (hq : ∀ app ∈ messageApps payload, QuoteFree app) :
    Stores (messageRows env (files, payload)) (messageKeys payload) w.db
      (onListApps (env.reading files) sam w payload).db := by
  unfold messageApps at hq
  unfold messageRows messageKeys offered
  generalize env.reading files = env
  cases hl : fullList payload with
  | some apps =>
    rw [hl] at hq
    dsimp only at hq ⊢
    have hempty : '\'' ∉ ("" : String).toList := by decide
    have hlist := @stores_foldl_listApp sam apps env
      { w with db := (Applications.removeFromDatabase env w.db).2 } hq
    rw [onListApps_full hl]
    exact (stores_removeFromDatabase env w.db hempty).trans hlist
  | none =>
    unfold onListApps
    rw [hl] at hq ⊢
    dsimp only at hq ⊢
    cases hc : changeOf payload with
    | none => exact .of_items rfl
    | some c =>
      obtain ⟨change, app⟩ := c
      rw [hc] at hq
      have happ : QuoteFree app := hq app (by simp)
      dsimp only
      split_ifs
      · rw [List.flatMap_singleton, List.flatMap_singleton]
        exact (stores_addItem env w app).trans (stores_addAppContents env (addItem env w app) happ)
      · rw [db_removeCategory]
        exact stores_removeFromDatabase env w.db happ
      · exact .of_items rfl

end Sam

/-! ## Runs -/

namespace System

theorem stores_step (env : Env) (s : System) (event : SystemEvent)
    (hq : ∀ message ∈ reads s event, ∀ app ∈ Sam.messageApps message.2, Sam.QuoteFree app) :
    Stores ((reads s event).flatMap (Sam.messageRows env))
      ((reads s event).flatMap fun message => Sam.messageKeys message.2) s.service.db
      (s.step env event).service.db := by
  unfold reads at hq ⊢
  obtain ⟨-, hheard, _, heq⟩ | ⟨_, payload, -, hheard, heq⟩ | ⟨requestPayload, rfl, heq⟩ :=
    service_step env s event
  · rw [heq, hheard]
    exact .of_items rfl
  · rw [hheard] at hq ⊢
    rw [heq, List.map_singleton, List.flatMap_singleton, List.flatMap_singleton]
    exact Sam.stores_onListApps env s.files s.sam s.service (hq _ List.mem_cons_self)
  · rw [heq]
    exact .of_items (items_updateCategory_request env s.service requestPayload)

theorem items_initial (env : Env) (db : Db) :
    (initial env db).service.db.items = (Applications.removeFromDatabase env db).2.items := by
  rw [service_initial]
  generalize (Applications.removeFromDatabase env db).2 = db'
  dsimp only
  rw [items_addSearchSet, newSet_eq]
  dsimp only
  rw [items_addSearchSet, newSet_eq]
  rfl

/-- A run stores what the messages in it ask for. -/
theorem stores_run (env : Env) (db : Db) (events : List SystemEvent)
    (hq : ∀ message ∈ readings env db events, ∀ app ∈ Sam.messageApps message.2,
      Sam.QuoteFree app) :
    Stores ((readings env db events).flatMap (Sam.messageRows env))
      ((readings env db events).flatMap fun message => Sam.messageKeys message.2)
      (Applications.removeFromDatabase env db).2
      (run (step env) (initial env db) events).service.db := by
  have htrans : ∀ (l l' : List (Files × JValue)) (s s' s'' : System),
      Stores (l.flatMap (Sam.messageRows env)) (l.flatMap fun message => Sam.messageKeys message.2)
        s.service.db s'.service.db →
      Stores (l'.flatMap (Sam.messageRows env))
        (l'.flatMap fun message => Sam.messageKeys message.2) s'.service.db s''.service.db →
      Stores ((l ++ l').flatMap (Sam.messageRows env))
        ((l ++ l').flatMap fun message => Sam.messageKeys message.2)
        s.service.db s''.service.db := by
    intro l l' s s' s'' h h'
    rw [List.flatMap_append, List.flatMap_append]
    exact h.trans h'
  have hinitial : Stores [] [] (Applications.removeFromDatabase env db).2
      (initial env db).service.db := .of_items (items_initial env db)
  exact hinitial.trans
    (run_accumulates (fun _ => .of_items rfl) htrans (stores_step env) hq)

end System

/-- What is accepted is a part of what the database returns. -/
theorem Wired.accepted_sublist {env : Env} {w : Service} (h : Wired env w) (key : String) :
    ((w.accepted key).map (·.2)).Sublist (Database.search env w.db key) := by
  unfold accepted
  rw [h.returned]
  generalize Database.search env w.db key = items
  induction items with
  | nil => exact List.Sublist.refl _
  | cons item items ih =>
    rw [List.map_cons, List.filterMap_cons]
    dsimp only
    cases w.acceptor 0 item with
    | none => exact ih.cons item
    | some p => exact ih.cons_cons item

/-- **No item is invented**: in every state of a running service, whatever statements fail, the
items are a part of what the start has left and of what the messages have offered, as the files were
when each was handled, in that order, and a search accepts nothing else. In a category no content
has been offered for, the rows are those of the start. -/
theorem items_run (env : Env) (db : Db) (events : List SystemEvent)
    (hq : ∀ message ∈ System.readings env db events, ∀ app ∈ Sam.messageApps message.2,
      Sam.QuoteFree app) :
    let w := (run (System.step env) (System.initial env db) events).service
    let rows := (Applications.removeFromDatabase env db).2.items ++
      (System.readings env db events).flatMap (Sam.messageRows env)
    w.db.items.Sublist rows ∧
      (∀ key, ((w.accepted key).map (·.2)).Sublist
        ((rows.filter fun row => env.ftsMatch row (.ofCStr (key ++ "*"))).map (readItem env))) ∧
      ∀ k, k ≠ Applications.categoryId →
        (∀ message ∈ System.readings env db events, k ∉ Sam.messageKeys message.2) →
        categoryRows w.db k = categoryRows db k := by
  intro w rows
  obtain ⟨hitems, hrows⟩ := System.stores_run env db events hq
  have hw : Wired env w := System.wired_reachable env db events
  refine ⟨hitems, fun key => ?_, fun k hk hnot => ?_⟩
  · exact (hw.accepted_sublist key).trans ((hitems.filter _).map _)
  · refine (hrows k hk fun hmem => ?_).trans
      (Sam.categoryRows_removeFromDatabase env db hk (by decide))
    obtain ⟨message, hmessage, hkey⟩ := List.mem_flatMap.1 hmem
    exact hnot message hmessage hkey

/-- The delete of the second list fails. -/
def Env.failing : Env := { Env.files with fault := (· == 8) }

theorem items_run_sample :
    ((run (System.step Env.failing) (System.initial .failing .fresh)
      helloEvents).service.db.items.map (·.key.val)).Sublist
        ["a", "app://a?p", "a"] := by
  have hquote : ∀ message ∈ System.readings .failing .fresh helloEvents,
      ∀ app ∈ Sam.messageApps message.2, Sam.QuoteFree app := by decide +kernel
  have hrows : (((Applications.removeFromDatabase .failing .fresh).2.items ++
      (System.readings .failing .fresh helloEvents).flatMap (Sam.messageRows .failing)).map
        (·.key.val)) = ["a", "app://a?p", "a"] := by decide +kernel
  rw [← hrows]
  exact (items_run .failing .fresh helloEvents hquote).1.map _

/-- The application is listed twice, and once too often in the table. -/
example : (run (System.step Env.failing) (System.initial .failing .fresh)
    helloEvents).service.db.items.map (·.key.val) = ["a", "app://a?p", "a"] := by decide +kernel

end UnifiedSearch
