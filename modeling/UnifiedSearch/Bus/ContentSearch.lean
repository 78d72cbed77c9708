import UnifiedSearch.Bus.AppSearch
import UnifiedSearch.Clients.Reindexing

/-!
# What a search finds of the content of the applications

Content is indexed when its category is made: at every `added` change, and in a
full list only where SAM has no category yet. Its rows stay when the category
goes. A `Library` is what follows of this: the ids SAM knows, and the
application that was indexed last under each id, with the files it was read
from. `contents_found` says that a running service searches just that, and
nothing an earlier one has left.
-/

namespace UnifiedSearch

open Lib Service Database

namespace Sam

/-- The ids with a category, and the application last indexed under each id, with the files it was
read from. -/
structure Library where
  known : String → Bool
  indexed : String → Option (Files × JValue) := fun _ => none

namespace Library

variable (files : Files) (lib : Library)

/-- Content is indexed. -/
def index (app : JValue) : Library :=
  if isContent app then {
    known := fun k => lib.known k || appId app = k
    indexed := Function.update lib.indexed (appId app) (some (files, app)) }
  else lib

/-- An app of a full list: what is known is not indexed again. -/
def list (app : JValue) : Library := if lib.known (appId app) then lib else lib.index files app

/-- A message, handled over the files. -/
def announce (message : Files × JValue) : Library :=
  match fullList message.2 with
  | some apps => apps.foldl (list message.1) lib
  | none =>
    match changeOf message.2 with
    | some (change, app) =>
      if change = "added" then lib.index message.1 app
      else if change = "removed" then
        { lib with known := fun k => lib.known k && appId app ≠ k }
      else lib
    | none => lib

/-- The items that were indexed last under an id. -/
def items (env : Env) (k : String) : List SearchItem :=
  match lib.indexed k with
  | some (files, app) => AppContents.indexedItems (env.reading files) k app
  | none => []

/-- The rows of a category; `old` are the ones that were there before anything was indexed. -/
def rows (env : Env) (old : String → List ItemRow) (k : String) : List ItemRow :=
  if (lib.indexed k).isSome then (lib.items env k).map (itemRow env) else old k

end Library

variable {env : Env} {sam : Sam} {w w' : Service} {app : JValue} {apps : List JValue} {db : Db}
  {files : Files} {lib : Library} {old : String → List ItemRow} {k id : String} {p : CategoryPtr}

/-! ## Rows -/

theorem categoryRows_removeItem (env : Env) (db : Db) {c : String} (hk : c ≠ k)
    (hc : '\'' ∉ (Text.ofCStr c).val.toList) (hq : '\'' ∉ (Text.ofCStr id).val.toList) :
    categoryRows (Database.removeItem env db c id).2 k = categoryRows db k := by
  unfold categoryRows
  obtain h | ⟨key, h⟩ := removeItem_items env db hc hq
  · rw [h]
  · rw [h, List.filter_filter]
    refine List.filter_congr fun r _ => ?_
    by_cases hr : r.category.val = k <;> simp [ItemRow.meets, hr, hk.symm]

theorem categoryRows_removeFromDatabase (env : Env) (db : Db) (hk : k ≠ Applications.categoryId)
    (hq : '\'' ∉ id.toList) :
    categoryRows (Applications.removeFromDatabase env db id).2 k = categoryRows db k :=
  categoryRows_removeItem env db hk.symm (by decide) fun hmem => hq (Text.mem_ofCStr hmem)

theorem categoryRows_addItem (env : Env) (w : Service) (app : JValue)
    (hk : k ≠ Applications.categoryId) :
    categoryRows (addItem env w app).db k = categoryRows w.db k := by
  have hcat : (itemRow env (Applications.item app)).category.val = Applications.categoryId :=
    Text.ofCStr_of_nulFree (s := Applications.categoryId) (by decide)
  unfold addItem Applications.addToDatabase
  cases Applications.visible app with
  | false => rfl
  | true =>
    simp only [Bool.not_true, Bool.false_eq_true, if_false]
    unfold categoryRows
    obtain h | h := insertItem_items env w.db (Applications.item app)
    · rw [h]
    · rw [h, List.filter_append, List.filter_singleton, hcat]
      simp [hk.symm]

/-- The constructor leaves the items of the application, and the rows of other categories. -/
theorem categoryRows_make (env : Env) (w : Service) (name : String) (app : JValue)
    (hq : '\'' ∉ id.toList) (hn : NulFree id) :
    categoryRows (AppContents.make env.healthy w id name app).2.db k =
      if k = id then (AppContents.indexedItems env id app).map (itemRow env)
      else categoryRows w.db k := by
  have hcat : ∀ r ∈ (AppContents.indexedItems env id app).map (itemRow env),
      r.category.val = id := by
    intro r hr
    obtain ⟨item, hitem, rfl⟩ := List.mem_map.1 hr
    obtain ⟨_, -, rfl⟩ := List.mem_map.1 hitem
    exact Text.ofCStr_of_nulFree hn
  unfold categoryRows
  rw [AppContents.items_make env w name app hq hn, List.filter_append, List.filter_filter]
  split_ifs with hk
  · subst hk
    have hold : w.db.items.filter (fun r => decide (r.category.val = k) &&
        decide (r.category.val ≠ k)) = [] :=
      List.filter_eq_nil_iff.2 fun r _ => by simp
    rw [hold, List.nil_append]
    exact List.filter_eq_self.2 fun r hr => by simpa using hcat r hr
  · have hnew : ((AppContents.indexedItems env id app).map (itemRow env)).filter
        (fun r => r.category.val = k) = [] :=
      List.filter_eq_nil_iff.2 fun r hr => by
        rw [hcat r hr]
        simpa using Ne.symm hk
    rw [hnew, List.append_nil]
    refine List.filter_congr fun r _ => ?_
    by_cases hr : r.category.val = k <;> simp [hr, hk]

/-! ## Messages -/

/-- The categories of SAM and the rows of content are those of the library. -/
structure Stocks (env : Env) (old : String → List ItemRow) (sam : Sam) (w : Service)
    (lib : Library) : Prop where
  knows : Knows sam w lib.known
  rows : ∀ k, k ≠ Applications.categoryId → categoryRows w.db k = lib.rows env old k
  indexed : ∀ k, k ≠ Applications.categoryId → lib.known k = true → (lib.indexed k).isSome = true

namespace Stocks

theorem congr (h : Stocks env old sam w lib) (hset : w'.set sam.searchSet = w.set sam.searchSet)
    (hrows : ∀ k, k ≠ Applications.categoryId → categoryRows w'.db k = categoryRows w.db k) :
    Stocks env old sam w' lib :=
  ⟨h.knows.congr hset, fun k hk => (hrows k hk).trans (h.rows k hk), h.indexed⟩

theorem with_db (h : Stocks env old sam w lib) {db : Db}
    (hrows : ∀ k, k ≠ Applications.categoryId → categoryRows db k = categoryRows w.db k) :
    Stocks env old sam { w with db } lib := h.congr rfl hrows

theorem addItem (h : Stocks env old sam w lib) (env' : Env) (app : JValue) :
    Stocks env old sam (addItem env' w app) lib :=
  h.congr rfl fun _ hk => categoryRows_addItem _ w app hk

theorem refresh (h : Stocks env old sam w lib) (env' : Env) (p : CategoryPtr) (app : JValue) :
    Stocks env old sam (refresh env' w p app) lib := by
  refine h.congr rfl fun k _ => ?_
  unfold categoryRows
  exact congrArg (List.filter _) (items_updateCategory _ _)

/-- Content is indexed, whether SAM has its category or not. -/
theorem index (h : Stocks env old sam w lib) (hp : Proper app) (files : Files) :
    Stocks env old sam (addAppContents (env.reading files).healthy sam w app).2
      (lib.index files app) := by
  unfold Library.index
  cases hc : isContent app with
  | false =>
    rw [addAppContents_other hc]
    exact h
  | true =>
    obtain ⟨hn, -⟩ := hp.content hc
    have hrows (k : String) :
        categoryRows (addAppContents (env.reading files).healthy sam w app).2.db k =
          if k = appId app then
            (AppContents.indexedItems (env.reading files) (appId app) app).map (itemRow env)
          else categoryRows w.db k := by
      refine Eq.trans ?_ (categoryRows_make (env.reading files) w (appTitle app) app hp.quote hn)
      rw [addAppContents_content hc]
      unfold categoryRows
      rw [(addCategory_db _ _ _ _).1]
    rw [if_pos rfl]
    refine ⟨fun k => ?_, fun k hk => ?_, fun k hk hknown => ?_⟩
    · rw [has_addAppContents, h.knows k]
      simp [hc]
    · rw [hrows]
      unfold Library.rows Library.items
      by_cases he : k = appId app
      · subst he
        simp only [Function.update_self, Option.isSome_some, if_true]
      · simp only [if_neg he, Function.update_of_ne he]
        exact h.rows k hk
    · by_cases he : k = appId app
      · subst he
        simp only [Function.update_self]
        rfl
      · simp only [Function.update_of_ne he]
        refine h.indexed k hk ?_
        simpa [Ne.symm he] using hknown

theorem listApp (h : Stocks env old sam w lib) (hp : Proper app) (files : Files) :
    Stocks env old sam (listApp (env.reading files).healthy sam w app) (lib.list files app) := by
  have hknown : lib.known (appId app) =
      (w.findCategoryIn sam.searchSet (appId app)).isSome :=
    Bool.eq_iff_iff.2 (h.knows (appId app)).symm
  unfold Library.list
  cases hf : w.findCategoryIn sam.searchSet (appId app) with
  | none =>
    rw [hknown, hf, if_neg (by decide), listApp_new hf]
    exact (h.addItem _ app).index hp files
  | some p =>
    rw [hknown, hf, if_pos Option.isSome_some, listApp_refresh hf]
    exact (h.addItem _ app).refresh _ p app

theorem foldl_listApp (h : Stocks env old sam w lib) (hp : ∀ app ∈ apps, Proper app)
    (files : Files) :
    Stocks env old sam (apps.foldl (Sam.listApp (env.reading files).healthy sam) w)
      (apps.foldl (Library.list files) lib) := by
  induction apps generalizing w lib with
  | nil => exact h
  | cons app apps ih =>
    exact ih (h.listApp (hp app List.mem_cons_self) files)
      fun app' h' => hp app' (List.mem_cons_of_mem _ h')

theorem dropApp (h : Stocks env old sam w lib) (env' : Env) (hp : Proper app) :
    Stocks env old sam (dropApp env' sam w app)
      { lib with known := fun k => lib.known k && appId app ≠ k } := by
  have hdb : Stocks env old sam { w with
      db := (Applications.removeFromDatabase env' w.db (appId app)).2 } lib :=
    h.with_db fun _ hk => categoryRows_removeFromDatabase _ w.db hk hp.quote
  unfold Sam.dropApp
  generalize (Applications.removeFromDatabase env' w.db (appId app)).2 = db at hdb ⊢
  refine ⟨fun k => ?_, fun k hk => ?_, fun k hk hknown => h.indexed k hk ?_⟩
  · rw [has_removeCategory, hdb.knows k]
    simp
  · rw [db_removeCategory]
    exact hdb.rows k hk
  · rw [Bool.and_eq_true] at hknown
    exact hknown.1

theorem onListApps (h : Stocks env old sam w lib) {payload : JValue}
    (hp : ∀ app ∈ messageApps payload, Proper app) (files : Files) :
    Stocks env old sam (onListApps (env.reading files).healthy sam w payload)
      (lib.announce (files, payload)) := by
  unfold messageApps at hp
  unfold Library.announce
  dsimp only
  cases hl : fullList payload with
  | some list =>
    rw [hl] at hp
    have hclear : Stocks env old sam
        { w with db := (Applications.removeFromDatabase (env.reading files).healthy w.db).2 } lib :=
      h.with_db fun _ hk => categoryRows_removeFromDatabase _ w.db hk (by decide)
    rw [onListApps_full hl]
    exact hclear.foldl_listApp hp files
  | none =>
    unfold Sam.onListApps
    rw [hl] at hp ⊢
    dsimp only at hp ⊢
    cases hc : changeOf payload with
    | none => exact h
    | some c =>
      obtain ⟨change, app⟩ := c
      rw [hc] at hp
      have happ : Proper app := hp app (by simp)
      dsimp only
      split_ifs
      · exact (h.addItem _ app).index happ files
      · exact h.dropApp _ happ
      · exact h

end Stocks

end Sam

/-! ## Runs -/

namespace System

variable {env : Env} {s : System} {lib : Sam.Library} {old : String → List ItemRow}

/-- The messages SAM has heard up to the end of a run, with the files each was handled over. -/
def readings (env : Env) (db : Db) (events : List SystemEvent) : List (Files × JValue) :=
  outputs (step env) reads (initial env db) events

theorem stocks_step (h : Sam.Stocks env old s.sam s.service lib) (event : SystemEvent)
    (hp : ∀ handle payload, event = .message handle payload →
      ∀ app ∈ Sam.messageApps payload, Proper app) :
    Sam.Stocks env old (s.step env.healthy event).sam (s.step env.healthy event).service
      (run Sam.Library.announce lib (reads s event)) := by
  unfold reads
  rw [sam_step]
  obtain ⟨-, hheard, _, heq⟩ | ⟨handle, payload, he, hheard, heq⟩ | ⟨requestPayload, rfl, heq⟩ :=
    service_step env.healthy s event
  · rw [heq, hheard]
    exact h.congr rfl fun _ _ => rfl
  · rw [heq, hheard]
    exact h.onListApps (hp handle payload he) s.files
  · rw [heq]
    refine h.congr ?_ fun k _ => ?_
    · show (Bus.updateCategory env.healthy s.service requestPayload).2.sets.cell _ = _
      rw [(Bus.registry_updateCategory env.healthy s.service requestPayload).1]
      rfl
    · unfold categoryRows
      exact congrArg (List.filter _) (items_updateCategory_request _ s.service requestPayload)

theorem stocks_initial (env : Env) (db : Db) :
    Sam.Stocks env (categoryRows db) (initial env.healthy db).sam (initial env.healthy db).service
      { known := (· = Applications.categoryId) } := by
  refine ⟨fun k => ?_, fun k hk => ?_, fun k hk hknown => (hk (by simpa using hknown)).elim⟩
  · show Option.isSome (((initial env.healthy db).service.set 0).categories.find k) = true ↔ _
    rw [categories_initial, OrdMap.find_insert rfl]
    by_cases hk : k = Applications.categoryId <;> simp [hk]
  · show categoryRows _ k = categoryRows db k
    have hdb : categoryRows (Applications.removeFromDatabase env.healthy db).2 k =
        categoryRows db k := Sam.categoryRows_removeFromDatabase _ db hk (by decide)
    rw [← hdb, service_initial]
    generalize (Applications.removeFromDatabase env.healthy db).2 = db'
    unfold categoryRows
    dsimp only
    rw [items_addSearchSet, newSet_eq]
    dsimp only
    rw [items_addSearchSet, newSet_eq]
    rfl

end System

/-- **A search finds exactly the content that was indexed last**: in every state of a running
service, under a known id that is enabled, the items of the application last indexed under it, as
they were read from the files then, whose rows match, in the order of its index; under an id that is
not known or not enabled, nothing. The rows are those items too; only where nothing was indexed do
the ones of an earlier service stay. -/
theorem contents_found (env : Env) (db : Db) (events : List SystemEvent) (k : String)
    (hk : k ≠ Applications.categoryId)
    (hp : ∀ handle payload, .message handle payload ∈ events →
      ∀ app ∈ Sam.messageApps payload, Proper app) :
    let w := (run (System.step env.healthy) (System.initial env.healthy db) events).service
    let lib := run Sam.Library.announce { known := (· = Applications.categoryId) }
      (System.readings env.healthy db events)
    categoryRows w.db k = lib.rows env (categoryRows db) k ∧
      ∀ key, ((w.accepted key).filter fun e => e.2.category = k).map (·.2) =
        if lib.known k = true ∧ (w.db.category.lookup k).any (·.enabled) = true then
          (((lib.items env k).map (itemRow env)).filter fun row =>
            env.ftsMatch row (.ofCStr (key ++ "*"))).map (readItem env)
        else [] := by
  intro w lib
  have hw : Wired env w :=
    { System.wired_reachable env.healthy db events with }
  have hagrees : Agrees w := agrees_reachable env db events hp
  have hsam : (run (System.step env.healthy) (System.initial env.healthy db) events).sam = ⟨0, 0⟩ :=
    System.sam_run env.healthy db events
  have hstocks : Sam.Stocks env (categoryRows db) ⟨0, 0⟩ w lib := by
    rw [← hsam]
    exact run_related
      (R := fun (s : System) lib => Sam.Stocks env (categoryRows db) s.sam s.service lib)
      (fun s lib event hgood h => System.stocks_step h event hgood) (System.stocks_initial env db)
      fun event hmem handle payload he => hp handle payload (he ▸ hmem)
  refine ⟨hstocks.rows k hk, fun key => ?_⟩
  have hknown : lib.known k = ((w.set 0).categories.find k).isSome :=
    Bool.eq_iff_iff.2 (hstocks.knows k).symm
  rw [hw.accepted_of_category, hknown]
  cases hf : (w.set 0).categories.find k with
  | none => rfl
  | some p =>
    have hheld : w.Holds 0 k p := by
      refine ⟨?_, hf⟩
      rw [hw.values]
      exact List.mem_cons_of_mem _ (List.mem_singleton_self 0)
    obtain ⟨row, hrow, hen⟩ := hagrees.consistent 0 k p hheld
    rw [hagrees.registered.holds_id hheld] at hrow
    have hrows : categoryRows w.db k = (lib.items env k).map (itemRow env) := by
      rw [hstocks.rows k hk]
      exact if_pos (hstocks.indexed k hk (by rw [hknown, hf]; rfl))
    rw [hrow, Option.filter_some, Option.any_some, hen]
    by_cases he : (w.category p).enabled = true
    · rw [if_pos he, if_pos ⟨rfl, he⟩]
      dsimp only
      rw [List.map_map]
      unfold matchingRows
      rw [hrows]
      rfl
    · rw [if_neg he, if_neg fun h => he h.2]
      rfl

/-- The files of one application, and the match of a single word with a prefix. -/
def Env.files : Env := { AppContents.helloFiles "?p" with
  ftsMatch := fun row key => key.val.toList.dropLast.isPrefixOf row.text.val.toList }

def webHello : JValue := AppContents.helloApp.put "type" (.str "web")

/-- The application is listed twice; the second list does not index it again, and its files have
gone by then. -/
def helloEvents : List SystemEvent := [
  .serverStatus .sam (System.statusPayload true),
  .message 0 (Sam.listPayload [webHello]),
  .files fun _ => none,
  .message 0 (Sam.listPayload [webHello])]

theorem contents_found_sample :
    (((run (System.step Env.files.healthy) (System.initial Env.files.healthy .fresh)
      helloEvents).service.accepted "He").filter fun e => e.2.category = "a").map
        (fun e => e.2.key) = ["app://a?p"] := by
  have hproper : ∀ handle payload, .message handle payload ∈ helloEvents →
      ∀ app ∈ Sam.messageApps payload, Proper app := by
    intro handle payload hmem app happ
    simp only [helloEvents, List.mem_cons, SystemEvent.message.injEq, List.not_mem_nil, or_false,
      reduceCtorEq, false_or, or_self] at hmem
    obtain ⟨-, rfl⟩ := hmem
    rw [List.mem_singleton.1 happ]
    exact ⟨by decide, fun _ => ⟨by decide, by decide⟩⟩
  have h := (contents_found .files .fresh helloEvents "a" (by decide) hproper).2 "He"
  have hkeys := congrArg (List.map SearchItem.key) h
  rw [List.map_map] at hkeys
  refine hkeys.trans ?_
  decide +kernel

end UnifiedSearch
