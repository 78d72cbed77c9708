import UnifiedSearch.Base.Menu
import UnifiedSearch.Base.RegistrationRuns
import UnifiedSearch.Bus.AppSearch
import UnifiedSearch.Bus.UpdateRequest

/-!
# The menu of a running service

A `Board` is what the user and the application manager have to do with the
menu: its categories, and the rank the object of each application remembers
from the day it was registered. The service is this board: every message, every
request and every response is the board's (`menu_refines`).

It shows what the objects do to the menu. A full list writes the categories it
knows with the ranks that are remembered, one after another in the order of the
list: what the user has moved is moved again, and each write shifts the ones
before it (`Board.list`).
-/

namespace UnifiedSearch

open Lib Service CategoryTable Database

/-! ## The board -/

inductive MenuEvent where
  | message (payload : JValue)
  | updateCategory (requestPayload : JValue)

structure Board where
  menu : Menu
  /-- The rank the category of an id was registered at, where SAM has one. -/
  place : String → Option ℤ

namespace Board

variable (b : Board)

/-- Content is indexed; a category is made unless SAM has one. -/
def meet (app : JValue) : Board :=
  if Sam.isContent app = true ∧ b.place (Sam.appId app) = none then
    let menu := b.menu.register (Sam.appId app) (Sam.appTitle app)
    { menu
      place := Function.update b.place (Sam.appId app) (some (menu.rank (Sam.appId app))) }
  else b

/-- A category is written back to its place. -/
def back (k : String) (rank : ℤ) (name : String) : Board :=
  { b with menu := b.menu.put k rank (k ∈ b.menu.shown) name }

/-- An app of a full list. -/
def list (app : JValue) : Board :=
  match b.place (Sam.appId app) with
  | some rank => b.back (Sam.appId app) rank (Sam.appTitle app)
  | none => b.meet app

/-- The category of an id is taken out of the set of SAM; the menu keeps it. -/
def forget (k : String) : Board := { b with place := Function.update b.place k none }

theorem place_forget (k x : String) :
    (b.forget k).place x = if x = k then none else b.place x := Function.update_apply ..

def hear (payload : JValue) : Board :=
  match Sam.fullList payload with
  | some apps => apps.foldl list b
  | none =>
    match Sam.changeOf payload with
    | some (change, app) =>
      if change = "added" then b.meet app
      else if change = "removed" then b.forget (Sam.appId app)
      else b
    | none => b

def request (requestPayload : JValue) : Board :=
  match Bus.readUpdate requestPayload with
  | .error _ => b
  | .ok cate =>
    if b.menu.Knows cate.id then
      { b with menu := b.menu.put cate.id cate.rank cate.enabled cate.name }
    else b

def step : MenuEvent → Board
  | .message payload => b.hear payload
  | .updateCategory requestPayload => b.request requestPayload

/-- A request puts nothing back to a place that is taken. -/
def Allows : MenuEvent → Prop
  | .message _ => True
  | .updateCategory requestPayload => ∀ cate ∈ (Bus.readUpdate requestPayload).toOption,
    b.menu.Knows cate.id → b.menu.Allowed cate.id cate.rank cate.enabled

instance (event : MenuEvent) : Decidable (b.Allows event) :=
  match event with
  | .message _ => inferInstanceAs (Decidable True)
  | .updateCategory requestPayload => inferInstanceAs (Decidable
    (∀ cate ∈ (Bus.readUpdate requestPayload).toOption,
      b.menu.Knows cate.id → b.menu.Allowed cate.id cate.rank cate.enabled))

/-- The response to `updateCategory`. -/
def updateResponse (requestPayload : JValue) : JValue :=
  match Bus.readUpdate requestPayload with
  | .error responsePayload => responsePayload
  | .ok cate =>
    if ¬b.menu.Knows cate.id then Bus.failed 205 "Internal database error."
    else if (b.place cate.id).isSome ∨ cate.id = audioId then
      JValue.object.put "returnValue" (.bool true)
    else .object

def entry (k : String) : JValue :=
  (JValue.object.put "id" (.str k)).put "name" (.str (b.menu.name k))

/-- The response to `getCategories`, with the hidden categories in some order. -/
def page (hidden : List String) : JValue :=
  ((JValue.object.put "enabled" (.arr (b.menu.shown.map b.entry))).put
    "disabled" (.arr (hidden.map b.entry))).put "returnValue" (.bool true)

/-- The board of a service that starts on a menu. -/
def restart (m : Menu) : Board :=
  let menu := m.register Applications.categoryId "Applications"
  { menu := menu.register audioId "Audio Files"
    place := Function.update (fun _ => none) Applications.categoryId
      (some (menu.rank Applications.categoryId)) }

/-- The board of a service that starts over a database. -/
def start (db : Db) : Board := .restart db.category.menu

end Board

/-! ## The service -/

/-- The service stands for the board. -/
structure Serves (w : Service) (b : Board) : Prop where
  table : w.db.category.StandsFor b.menu
  place : ∀ k, ((w.set 0).categories.find k).map (fun p => (w.category p).rank) = b.place k
  media : ((w.set 1).categories.find audioId).isSome = true

/-- Registering an object registers its id on the menu, and gives it the rank there. -/
theorem standsFor_adjust {w : Service} {m : Menu} (env : Env) (p : CategoryPtr)
    (h : w.db.category.StandsFor m) (hn : NulFree (w.category p).id) :
    (w.adjustOrCreateCategory env.healthy p).db.category.StandsFor
        (m.register (w.category p).id (w.category p).name) ∧
      ((w.adjustOrCreateCategory env.healthy p).category p).rank =
        (m.register (w.category p).id (w.category p).name).rank (w.category p).id := by
  have htable : (w.adjustOrCreateCategory env.healthy p).db.category.StandsFor
      (m.register (w.category p).id (w.category p).name) := by
    cases hf : w.db.category.find (.ofCStr (w.category p).id) with
    | some row =>
      have hknown : m.Knows (w.category p).id := by
        rw [h.knows_iff, lookup_eq_find hn, hf]
        rfl
      rw [adjustOrCreateCategory_known _ hf]
      unfold Menu.register
      rw [dif_pos hknown]
      exact h
    | none =>
      obtain ⟨t, ht, heq⟩ := adjustOrCreateCategory_unknown env hf
      rw [heq]
      exact h.inserted hn ht
  obtain ⟨row, hrow, hrank, -⟩ := adjusted_self env w p
  refine ⟨htable, hrank.trans (htable.rank ?_)⟩
  rw [lookup_eq_find hn]
  exact hrow

namespace Serves

variable {env : Env} {w w' : Service} {b : Board} {sam : Sam} {app : JValue} {p c : CategoryPtr}
  {k : String}

theorem congr (h : Serves w b) (hcat : w'.db.category = w.db.category)
    (hset : ∀ t, w'.set t = w.set t)
    (hobj : ∀ k p, (w.set 0).categories.find k = some p →
      (w'.category p).rank = (w.category p).rank) : Serves w' b := by
  refine ⟨hcat ▸ h.table, fun k => ?_, by rw [hset]; exact h.media⟩
  rw [hset, ← h.place k]
  exact Option.map_congr fun p hp => hobj k p hp

theorem with_db (h : Serves w b) {db : Db} (hcat : db.category = w.db.category) :
    Serves { w with db } b := ⟨hcat ▸ h.table, h.place, h.media⟩

theorem flag (h : Serves w b) (ha : Agrees w) (hf : (w.set 0).categories.find k = some p) :
    ∃ row, w.db.category.lookup k = some row ∧ (w.category p).id = k ∧
      (w.category p).enabled = decide (k ∈ b.menu.shown) := by
  have hheld : w.Holds 0 k p := by
    refine ⟨?_, hf⟩
    rw [ha.apart.values]
    exact List.mem_cons_of_mem _ (List.mem_singleton_self 0)
  have hid := ha.registered.holds_id hheld
  obtain ⟨row, hrow, hen⟩ := ha.consistent 0 k p hheld
  rw [hid] at hrow
  refine ⟨row, hrow, hid, ?_⟩
  rw [← hen, Bool.eq_iff_iff, h.table.enabled_iff hrow, decide_eq_true_iff]

/-- A category that SAM has is written back to its place. -/
theorem refresh (h : Serves w b) (ha : Agrees w) (env : Env) (app : JValue) {rank : ℤ}
    (hf : (w.set 0).categories.find (Sam.appId app) = some p)
    (hplace : b.place (Sam.appId app) = some rank) :
    Serves (Sam.refresh env.healthy w p app)
      (b.back (Sam.appId app) rank (Sam.appTitle app)) := by
  obtain ⟨row, hrow, hid, hen⟩ := h.flag ha hf
  have hrank : (w.category p).rank = rank := by
    have hp := h.place (Sam.appId app)
    rw [hf, hplace] at hp
    exact Option.some.inj hp
  have hl : w.db.category.lookup
      ({ w.category p with name := Sam.appTitle app } : Category).id = some row := by
    show w.db.category.lookup (w.category p).id = some row
    rw [hid]
    exact hrow
  obtain ⟨clock, heq⟩ := updateCategory_eq hl (h.table.rank_nonneg hrow)
  have hdb : (Sam.refresh env.healthy w p app).db.category =
      w.db.category.updated row { w.category p with name := Sam.appTitle app } :=
    congrArg (fun r : Bool × Db => r.2.category) heq
  have hmenu : (b.back (Sam.appId app) rank (Sam.appTitle app)).menu = b.menu.put
      (w.category p).id (w.category p).rank (w.category p).enabled (Sam.appTitle app) := by
    rw [hid, hrank, hen]
    rfl
  have hallowed : b.menu.Allowed (w.category p).id (w.category p).rank (w.category p).enabled := by
    rw [hid, hrank, hen]
    exact b.menu.allowed_keep _ _
  refine ⟨?_, fun k => ?_, h.media⟩
  · rw [hdb, hmenu]
    exact h.table.updated hl hallowed
  · show Option.map _ ((w.set 0).categories.find k) = b.place k
    rw [← h.place k]
    refine Option.map_congr fun q _ => ?_
    show (if q = p then { w.category p with name := Sam.appTitle app } else w.category q).rank = _
    split_ifs with hq
    · rw [hq]
    · rfl

theorem newCategory (h : Serves w b) (hr : w.Registered) (cate : Category) :
    Serves { w with categories := (w.categories.alloc cate).2 } b :=
  h.congr rfl (fun _ => rfl) fun k p hp =>
    congrArg Category.rank (Heap.cell_alloc_of_lt (hr.keys 0 k p hp).2)

theorem addCategory (h : Serves w b) (ha : Agrees w) (env : Env)
    (hf : (w.set 0).categories.find (w.category c).id = none) (hn : NulFree (w.category c).id) :
    let menu := b.menu.register (w.category c).id (w.category c).name
    Serves (w.addCategory env.healthy 0 c).2 {
      menu
      place := Function.update b.place (w.category c).id
        (some (menu.rank (w.category c).id)) } := by
  intro menu
  have hattached : 0 ∈ w.searchSets.values := by rw [ha.apart.values]; decide
  rw [addCategory_eq hf]
  dsimp only
  rw [if_pos (ha.registered.attached 0 hattached).2]
  have hset (t : SearchSetPtr) (k : String) := @find_insert_set w 0 t _ c k hf
  have hadj := adjusted env (w.modifySet 0 fun set => { set with
    categories := set.categories.insert (w.category c).id c }) c
  obtain ⟨htable, hrank⟩ := @standsFor_adjust (w.modifySet 0 fun set => { set with
    categories := set.categories.insert (w.category c).id c }) _ env c h.table hn
  have hset' (t : SearchSetPtr) : ((w.modifySet 0 fun set => { set with
      categories := set.categories.insert (w.category c).id c }).adjustOrCreateCategory
        env.healthy c).set t = (w.modifySet 0 fun set => { set with
      categories := set.categories.insert (w.category c).id c }).set t :=
    congrArg (fun sets : Heap SearchSet => sets.cell t) hadj.sets
  refine ⟨htable, fun k => ?_, ?_⟩
  · dsimp only
    rw [hset', hset]
    by_cases hk : k = (w.category c).id
    · rw [if_pos ⟨rfl, hk⟩, hk, Function.update_self]
      exact congrArg some hrank
    · rw [if_neg fun e => hk e.2, Function.update_of_ne hk, ← h.place k]
      refine Option.map_congr fun p hp => ?_
      have hne : p ≠ c := fun e => hk ((ha.registered.keys 0 k p hp).1.symm.trans (by rw [e]))
      exact congrArg Category.rank (hadj.others p hne)
  · rw [hset', hset, if_neg fun e => by cases e.1]
    exact h.media

theorem meet (h : Serves w b) (ha : Agrees w) (env : Env) (hsam : sam.searchSet = 0)
    (hp : Proper app) : Serves (Sam.addAppContents env.healthy sam w app).2 (b.meet app) := by
  cases hc : Sam.isContent app with
  | false =>
    rw [Sam.addAppContents_other hc]
    unfold Board.meet
    rw [if_neg fun e => by rw [hc] at e; cases e.1]
    exact h
  | true =>
    have hcat : (AppContents.make env.healthy w (Sam.appId app)
        (Sam.appTitle app) app).2.db.category = w.db.category :=
      AppContents.category_make env w _ app fun hmem => hp.quote (Text.mem_ofCStr hmem)
    have hmade : Serves (AppContents.make env.healthy w (Sam.appId app) (Sam.appTitle app) app).2
        b := (h.with_db hcat).newCategory (ha.with_db hcat).registered _
    have hagrees : Agrees (AppContents.make env.healthy w (Sam.appId app)
        (Sam.appTitle app) app).2 := (ha.with_db hcat).newCategory rfl
    obtain ⟨hptr, -, -, hid⟩ :=
      AppContents.make_frame env.healthy w (Sam.appId app) (Sam.appTitle app) app
    have hname : ((AppContents.make env.healthy w (Sam.appId app) (Sam.appTitle app)
        app).2.category w.categories.next).name = Sam.appTitle app :=
      congrArg Category.name (if_pos rfl)
    rw [← hptr] at hid hname
    rw [Sam.addAppContents_content hc, hsam]
    generalize AppContents.make env.healthy w (Sam.appId app) (Sam.appTitle app) app = made at *
    have hplace := hmade.place (Sam.appId app)
    cases hf : (made.2.set 0).categories.find (Sam.appId app) with
    | some p =>
      rw [hf] at hplace
      rw [addCategory_refused (by rw [hid, hf]; rfl)]
      unfold Board.meet
      rw [if_neg fun e => by rw [← hplace] at e; cases e.2]
      exact hmade
    | none =>
      rw [hf] at hplace
      have hadd := hmade.addCategory hagrees env (c := made.1) (by rw [hid]; exact hf)
        (by rw [hid]; exact (hp.content hc).1)
      rw [hid, hname] at hadd
      unfold Board.meet
      rw [if_pos ⟨hc, hplace.symm⟩]
      exact hadd

theorem removeCategory (h : Serves w b) (env : Env) (k : String) :
    Serves (w.removeCategory env 0 k).2 (b.forget k) := by
  rw [removeCategory_snd]
  split_ifs with hf
  · refine ⟨h.table, fun x => ?_, h.media⟩
    rw [Board.place_forget, ← h.place x]
    split_ifs with hx
    · rw [hx, Option.isNone_iff_eq_none.1 hf]
      rfl
    · rfl
  · refine ⟨h.table, fun x => ?_, ?_⟩
    · rw [find_erase_set, Board.place_forget, ← h.place x]
      by_cases hx : x = k
      · rw [if_pos ⟨rfl, hx⟩, if_pos hx]
        rfl
      · rw [if_neg fun e => hx e.2, if_neg hx]
        rfl
    · rw [find_erase_set, if_neg fun e => by cases e.1]
      exact h.media

theorem addItem (h : Serves w b) (env : Env) (app : JValue) :
    Serves (Sam.addItem env.healthy w app) b :=
  h.with_db (Sam.addToDatabase_category env.healthy w.db app)

theorem listApp (h : Serves w b) (ha : Agrees w) (env : Env) (hsam : sam.searchSet = 0)
    (hp : Proper app) : Serves (Sam.listApp env.healthy sam w app) (b.list app) := by
  have hitem := h.addItem env app
  have hagrees : Agrees (Sam.addItem env.healthy w app) :=
    ha.with_db (Sam.addToDatabase_category env.healthy w.db app)
  have hplace := h.place (Sam.appId app)
  unfold Board.list
  cases hf : w.findCategoryIn sam.searchSet (Sam.appId app) with
  | none =>
    have hnone : (w.set 0).categories.find (Sam.appId app) = none := hsam ▸ hf
    rw [hnone] at hplace
    rw [← hplace, Sam.listApp_new hf]
    exact hitem.meet hagrees env hsam hp
  | some p =>
    have hsome : (w.set 0).categories.find (Sam.appId app) = some p := hsam ▸ hf
    rw [hsome] at hplace
    rw [← hplace, Sam.listApp_refresh hf]
    exact hitem.refresh hagrees env app hsome hplace.symm

theorem foldl_listApp {apps : List JValue} (h : Serves w b) (ha : Agrees w) (env : Env)
    (hsam : sam.searchSet = 0) (hp : ∀ app ∈ apps, Proper app) :
    Serves (apps.foldl (Sam.listApp env.healthy sam) w) (apps.foldl Board.list b) := by
  induction apps generalizing w b with
  | nil => exact h
  | cons app apps ih =>
    have hkept : Agrees (Sam.listApp env.healthy sam w app) :=
      (Agrees.kept env hsam hp).listApp List.mem_cons_self ha
    exact ih (h.listApp ha env hsam (hp app List.mem_cons_self)) hkept
      fun app' h' => hp app' (List.mem_cons_of_mem _ h')

theorem onListApps (h : Serves w b) (ha : Agrees w) (env : Env) (hsam : sam.searchSet = 0)
    {payload : JValue} (hp : ∀ app ∈ Sam.messageApps payload, Proper app) :
    Serves (Sam.onListApps env.healthy sam w payload) (b.hear payload) := by
  unfold Sam.messageApps at hp
  unfold Board.hear
  cases hl : Sam.fullList payload with
  | some apps =>
    rw [hl] at hp
    have hcat : (Applications.removeFromDatabase env.healthy w.db).2.category = w.db.category := by
      rw [Sam.removeFromDatabase_eq]
    rw [Sam.onListApps_full hl]
    exact (h.with_db hcat).foldl_listApp (ha.with_db hcat) env hsam hp
  | none =>
    unfold Sam.onListApps
    rw [hl] at hp ⊢
    dsimp only at hp ⊢
    cases hc : Sam.changeOf payload with
    | none => exact h
    | some c =>
      obtain ⟨change, app⟩ := c
      rw [hc] at hp
      have happ : Proper app := hp app (by simp)
      dsimp only
      split_ifs
      · exact (h.addItem env app).meet
          (ha.with_db (Sam.addToDatabase_category env.healthy w.db app)) env hsam happ
      · have hdb := h.with_db (category_removeFromDatabase env w.db happ.quote)
        rw [hsam]
        exact hdb.removeCategory env.healthy _
      · exact h

/-! ## Requests -/

theorem isSome_findCategory (h : Serves w b) (ha : Agrees w) (k : String) :
    (w.findCategory k).isSome = true ↔ (b.place k).isSome = true ∨ k = audioId := by
  have hsam : ((w.set 0).categories.find k).isSome = (b.place k).isSome := by
    rw [← h.place k, Option.isSome_map]
  have hmedia : ((w.set 1).categories.find k).isSome = true ↔ k = audioId := by
    constructor
    · intro hk
      obtain ⟨p, hp⟩ := Option.isSome_iff_exists.1 hk
      exact ha.apart.media k p hp
    · rintro rfl
      exact h.media
  unfold findCategory findCategoryIn
  rw [ha.apart.values, ← hsam, ← hmedia]
  cases h1 : (w.set 1).categories.find k with
  | some p => simp [h1]
  | none => cases h0 : (w.set 0).categories.find k <;> simp [h0, h1]

/-- The response is the board's, and so is what an allowed request leaves. -/
theorem updateCategory (h : Serves w b) (ha : Agrees w) (env : Env) (requestPayload : JValue) :
    (Bus.updateCategory env.healthy w requestPayload).1 = b.updateResponse requestPayload ∧
      (b.Allows (.updateCategory requestPayload) →
        Serves (Bus.updateCategory env.healthy w requestPayload).2 (b.request requestPayload)) := by
  unfold Board.updateResponse Board.request
  cases hread : Bus.readUpdate requestPayload with
  | error responsePayload =>
    rw [Bus.updateCategory_rejected hread]
    exact ⟨rfl, fun _ => h⟩
  | ok cate =>
    dsimp only
    cases hl : w.db.category.lookup cate.id with
    | none =>
      have hunknown : ¬b.menu.Knows cate.id := by rw [h.table.knows_iff, hl]; decide
      have hrefused := @Bus.updateCategory_refused env.healthy w requestPayload cate hread
        fun row hr => by rw [hl] at hr; cases hr
      rw [hrefused, if_pos hunknown, if_neg hunknown]
      exact ⟨rfl, fun _ => h⟩
    | some row =>
      have hknown : b.menu.Knows cate.id := by rw [h.table.knows_iff, hl]; rfl
      have h0 := h.table.rank_nonneg hl
      have htable (hok : b.Allows (.updateCategory requestPayload)) :=
        h.table.updated hl (hok cate (by rw [hread]; rfl) hknown)
      have hfound := h.isSome_findCategory ha cate.id
      rw [if_neg (not_not.2 hknown), if_pos hknown]
      cases horg : w.findCategory cate.id with
      | none =>
        rw [horg] at hfound
        obtain ⟨clock, heq⟩ := Bus.updateCategory_late env hread hl h0 horg
        rw [heq, if_neg fun e => by cases hfound.2 e]
        exact ⟨rfl, fun hok => ⟨htable hok, h.place, h.media⟩⟩
      | some org =>
        rw [horg] at hfound
        obtain ⟨clock, heq⟩ := Bus.updateCategory_done env hread hl h0 horg
        rw [heq, if_pos (hfound.1 rfl)]
        refine ⟨rfl, fun hok => ⟨htable hok, fun k => ?_, h.media⟩⟩
        show Option.map _ ((w.set 0).categories.find k) = b.place k
        rw [← h.place k]
        refine Option.map_congr fun q _ => ?_
        show (if q = org then { w.category org with enabled := cate.enabled }
          else w.category q).rank = _
        split_ifs with hq
        · rw [hq]
        · rfl

/-- The response to `getCategories` is the board's page. -/
theorem getCategories (h : Serves w b) : ∃ hidden : List String, hidden.Nodup ∧
    hidden.toFinset = b.menu.hidden ∧ Bus.getCategories w = b.page hidden := by
  have hrows : Database.getCategories w.db = (w.db.category.orderBy (·.rank)).map fun row =>
      { id := row.id.val, name := row.name.val, rank := row.rank, enabled := row.enabled } := by
    unfold Database.getCategories
    rw [rows_cateRank]
  have hentry (p : Category → Bool) : ((Database.getCategories w.db).filter p).map Bus.cateObj =
      (((Database.getCategories w.db).filter p).map (·.id)).map b.entry := by
    rw [List.map_map]
    refine List.map_congr_left fun category hmem => ?_
    rw [hrows] at hmem
    obtain ⟨row, hrow, rfl⟩ := List.mem_map.1 (List.mem_filter.1 hmem).1
    have hname := h.table.name row.id.val row
      (lookup_eq_some_iff.2 ⟨Table.mem_orderBy.1 hrow, rfl⟩)
    unfold Bus.cateObj
    dsimp only [Function.comp]
    rw [hname]
    rfl
  refine ⟨((Database.getCategories w.db).filter fun category => !category.enabled).map (·.id),
    ?_, ?_, ?_⟩
  · have hids : ((Database.getCategories w.db).map (·.id)).Nodup := by
      rw [hrows, List.map_map]
      have hval : Function.Injective fun x : Text => x.val := fun _ _ => Text.ext
      have hkeys := (w.db.category.nodup_keys_orderBy (·.rank)).map hval
      rw [List.map_map] at hkeys
      exact hkeys
    exact hids.sublist (List.filter_sublist.map _)
  · ext k
    rw [List.mem_toFinset, h.table.hidden, List.mem_map]
    constructor
    · rintro ⟨category, hmem, rfl⟩
      obtain ⟨hcat, hdis⟩ := List.mem_filter.1 hmem
      rw [hrows] at hcat
      obtain ⟨row, hrow, rfl⟩ := List.mem_map.1 hcat
      exact ⟨row, lookup_eq_some_iff.2 ⟨Table.mem_orderBy.1 hrow, rfl⟩, by simpa using hdis⟩
    · rintro ⟨row, hl, hdis⟩
      obtain ⟨hrow, rfl⟩ := lookup_eq_some_iff.1 hl
      refine ⟨{ id := row.id.val, name := row.name.val, rank := row.rank, enabled := row.enabled },
        List.mem_filter.2 ⟨?_, ?_⟩, rfl⟩
      · rw [hrows]
        exact List.mem_map_of_mem (Table.mem_orderBy.2 hrow)
      · simpa using hdis
  · have hshown : ((Database.getCategories w.db).filter fun category => category.enabled).map
        (·.id) = b.menu.shown := map_id_enabledCategories.trans h.table.shown
    unfold Bus.getCategories Board.page
    dsimp only
    rw [hentry, hentry, hshown]

end Serves

/-! ## Runs -/

namespace System

variable {env : Env} {s : System} {b : Board}

/-- What an event is to the menu. -/
def menuEvents (s : System) : SystemEvent → List MenuEvent
  | .updateCategory requestPayload => [.updateCategory requestPayload]
  | event => (heard .sam s event).map .message

theorem menuEvents_of_heard {event : SystemEvent}
    (h : ∀ requestPayload, event ≠ .updateCategory requestPayload) :
    menuEvents s event = (heard .sam s event).map .message := by
  cases event with
  | updateCategory requestPayload => exact (h requestPayload rfl).elim
  | _ => rfl

theorem serves_step (h : Serves s.service b) (ha : Agrees s.service) (hsam : s.sam = ⟨0, 0⟩)
    (event : SystemEvent) (hp : ∀ handle payload, event = .message handle payload →
      ∀ app ∈ Sam.messageApps payload, Proper app)
    (hok : Each Board.step Board.Allows b (menuEvents s event)) :
    Serves (s.step env.healthy event).service (run Board.step b (menuEvents s event)) := by
  obtain ⟨hno, hheard, _, heq⟩ | ⟨handle, payload, rfl, hheard, heq⟩ | ⟨requestPayload, rfl, heq⟩ :=
    service_step env.healthy s event
  · rw [heq, menuEvents_of_heard hno, hheard]
    exact h.congr rfl (fun _ => rfl) fun _ _ _ => rfl
  · have hno : ∀ r, SystemEvent.message handle payload ≠ .updateCategory r := nofun
    rw [heq, menuEvents_of_heard hno, hheard]
    exact h.onListApps ha (env.reading s.files) (congrArg Sam.searchSet hsam)
      (hp handle payload rfl)
  · rw [heq]
    exact (h.updateCategory ha env requestPayload).2 hok.1

theorem standsFor_attachNew {w : Service} {m : Menu} {cate : Category} {id : String}
    {source : Db → String → List SearchItem} (env : Env) (h : w.db.category.StandsFor m)
    (hfree : w.searchSets.find id = none) (hn : NulFree cate.id) :
    let w' := ((w.newSet env.healthy cate id source).addSearchSet env.healthy w.sets.next).2
    w'.db.category.StandsFor (m.register cate.id cate.name) ∧
      (w'.category w.categories.next).rank = (m.register cate.id cate.name).rank cate.id ∧
      w'.categories.next = w.categories.next + 1 ∧
      ∀ p < w.categories.next, w'.category p = w.category p := by
  intro w'
  have hvalues : ((w.newSet env.healthy cate id source).set w.sets.next).categories.values =
      [w.categories.next] := by
    rw [set_newSet, if_pos rfl]
    rfl
  have hw' : w' = ((w.newSet env.healthy cate id source).attach
      w.sets.next).adjustOrCreateCategory env.healthy w.categories.next := by
    show (Service.addSearchSet ..).2 = _
    rw [addSearchSet_eq (@find_newSet env.healthy w cate id source hfree), hvalues]
    rfl
  have hcate : ((w.newSet env.healthy cate id source).attach w.sets.next).category
      w.categories.next = cate := by
    rw [newSet_eq]
    exact if_pos rfl
  have htable : ((w.newSet env.healthy cate id source).attach
      w.sets.next).db.category.StandsFor m := by
    rw [newSet_eq]
    exact h
  have hadj := standsFor_adjust env w.categories.next htable (by rw [hcate]; exact hn)
  have hframe := adjusted env ((w.newSet env.healthy cate id source).attach w.sets.next)
    w.categories.next
  rw [hcate] at hadj
  rw [← hw'] at hadj hframe
  refine ⟨hadj.1, hadj.2, ?_, fun p hp => ?_⟩
  · rw [hframe.next, newSet_eq]
    rfl
  · rw [hframe.others p hp.ne, newSet_eq]
    exact Heap.cell_alloc_of_lt hp

theorem serves_plugin (env : Env) {w : Service} {m : Menu} {rank : ℤ}
    (h : w.db.category.StandsFor m) (hval : w.searchSets = OrdMap.empty.insert "SAM" 0)
    (hnext : w.sets.next = 1)
    (hsam : (w.set 0).categories = OrdMap.empty.insert Applications.categoryId 0)
    (hobj : 0 < w.categories.next) (hrank : (w.category 0).rank = rank) :
    Serves ((w.newSet env.healthy audioCategory "Media" fun _ _ => []).addSearchSet env.healthy
      w.sets.next).2 {
        menu := m.register audioId "Audio Files"
        place := Function.update (fun _ => none) Applications.categoryId (some rank) } := by
  have hfree : w.searchSets.find "Media" = none := by rw [hval]; decide
  obtain ⟨htable, -, -, hkept⟩ := @standsFor_attachNew w m audioCategory "Media" (fun _ _ => [])
    env h hfree (by decide)
  have hreg := @registry_attachNew w audioCategory "Media" (fun _ _ => []) env.healthy hfree 1
  refine ⟨htable, fun k => ?_, ?_⟩
  · rw [categories_plugin env.healthy hval hnext, hsam, OrdMap.find_insert rfl]
    dsimp only
    rw [Function.update_apply]
    split_ifs
    · rw [Option.map_some, hkept 0 hobj, hrank]
    · rfl
  · rw [hreg.2.2, if_pos hnext.symm, OrdMap.find_insert rfl,
      if_pos (show audioId = audioCategory.id from rfl)]
    rfl

theorem serves_restart (env : Env) {db : Db} {m : Menu} (h : db.category.StandsFor m) :
    Serves (initial env.healthy db).service (.restart m) := by
  have hcat : (Applications.removeFromDatabase env.healthy db).2.category = db.category := by
    rw [Sam.removeFromDatabase_eq]
  rw [service_initial]
  generalize (Applications.removeFromDatabase env.healthy db).2 = db' at hcat ⊢
  have hstart : (start db' "").db.category.StandsFor m := by
    show db'.category.StandsFor m
    rw [hcat]
    exact h
  obtain ⟨htable, hrank, hnext, -⟩ := @standsFor_attachNew (start db' "") _ samCategory "SAM"
    (Database.search env.healthy) env hstart rfl (by decide)
  have hreg := @registry_attachNew (start db' "") samCategory "SAM" (Database.search env.healthy)
    env.healthy rfl 0
  exact serves_plugin env htable hreg.1 hreg.2.1 (hreg.2.2.trans (if_pos rfl))
    (Nat.lt_of_lt_of_eq (Nat.succ_pos _) hnext.symm) hrank

end System

/-- **The service is the board.** From a database whose ranks are exact, in every run of the service
whose requests the board allows, whatever lists, changes, reconnections and reloads come between
them, both category methods answer what the board of that run answers. -/
theorem menu_refines (env : Env) (db : Db) (events : List SystemEvent)
    (hx : db.category.RanksExact) (hn : db.category.NonNeg)
    (hp : ∀ handle payload, .message handle payload ∈ events →
      ∀ app ∈ Sam.messageApps payload, Proper app)
    (hok : Each Board.step Board.Allows (.start db) (outputs (System.step env.healthy)
      System.menuEvents (System.initial env.healthy db) events)) :
    let w := (run (System.step env.healthy) (System.initial env.healthy db) events).service
    let b := run Board.step (.start db)
      (outputs (System.step env.healthy) System.menuEvents (System.initial env.healthy db) events)
    (∃ hidden : List String, hidden.Nodup ∧ hidden.toFinset = b.menu.hidden ∧
        Bus.getCategories w = b.page hidden) ∧
      ∀ requestPayload, (Bus.updateCategory env.healthy w requestPayload).1 =
        b.updateResponse requestPayload := by
  intro w b
  have h : Serves w b ∧ Agrees w ∧
      (run (System.step env.healthy) (System.initial env.healthy db) events).sam = ⟨0, 0⟩ :=
    run_related_each (R := fun (s : System) b => Serves s.service b ∧ Agrees s.service ∧
        s.sam = ⟨0, 0⟩)
      (fun s b event hgood hallows h => ⟨System.serves_step h.1 h.2.1 h.2.2 event hgood hallows,
        System.agrees_step h.2.1 h.2.2 event hgood, (System.sam_step _ s event).trans h.2.2⟩)
      ⟨System.serves_restart env (standsFor_menu hx hn), System.agrees_initial env db, rfl⟩
      (fun event hmem handle payload he => hp handle payload (he ▸ hmem)) hok
  exact ⟨h.1.getCategories, fun requestPayload =>
    (h.1.updateCategory h.2.1 env requestPayload).1⟩

/-- Two applications are listed, the user puts `b` first and hides `a`, and they are listed again:
`b` is moved behind the others. -/
def menuRun : List SystemEvent := [
  .serverStatus .sam (System.statusPayload true),
  .message 0 (Sam.listPayload [Sam.webApp "a", Sam.webApp "b"]),
  .updateCategory ((JValue.object.put "id" (.str "b")).put "rank" (.num 1)),
  .updateCategory Bus.disableRequest,
  .message 0 (Sam.listPayload [Sam.webApp "a", Sam.webApp "b"])]

theorem menu_refines_sample :
    let b := run Board.step (.start .fresh) (outputs (System.step Env.sample.healthy)
      System.menuEvents (System.initial Env.sample.healthy .fresh) menuRun)
    b.menu.shown = ["sam.apps", "mediaindexer.audio", "b"] ∧ ∃ hidden : List String,
      hidden.toFinset = {"a"} ∧ Bus.getCategories (run (System.step Env.sample.healthy)
        (System.initial Env.sample.healthy .fresh) menuRun).service = b.page hidden := by
  intro b
  have hproper : ∀ handle payload, .message handle payload ∈ menuRun →
      ∀ app ∈ Sam.messageApps payload, Proper app := by
    intro handle payload hmem app happ
    simp only [menuRun, List.mem_cons, SystemEvent.message.injEq, List.not_mem_nil, or_false,
      reduceCtorEq, false_or, or_self] at hmem
    obtain ⟨-, rfl⟩ := hmem
    rcases List.mem_cons.1 happ with rfl | happ
    · exact ⟨by decide, fun _ => ⟨by decide, by decide⟩⟩
    · rw [List.mem_singleton.1 happ]
      exact ⟨by decide, fun _ => ⟨by decide, by decide⟩⟩
  obtain ⟨hidden, -, hset, hpage⟩ := (menu_refines .sample .fresh menuRun (by decide)
    (fun r hr => by cases hr) hproper (by decide +kernel)).1
  exact ⟨by decide +kernel, hidden, hset.trans (by decide +kernel), hpage⟩

end UnifiedSearch
