import UnifiedSearch.Bus.Front
import UnifiedSearch.Media.Answers
import UnifiedSearch.Media.Matches

/-!
# What a search asks the media database

`queries` are the calls a session has made: their methods and their payloads. A
search makes one for each target of each kind of a connected source whose set
has an enabled category, and no other (`sends_searchSet`). So a running service
asks for the titles and for the artists that match, or for nothing
(`queries_run`).
-/

namespace UnifiedSearch

open Lib Service CategoryTable Database

namespace Session

variable {env : Env} {w : Service} {db searchKey : String} {source : DB8Source}
  {sources : SearchSetPtr → Option DB8Source} {s t : SearchSetPtr}

/-- The method and the payload of each find that has been sent. -/
def queries (m : Session) : List (String × String) := m.finds.map Prod.snd

/-! ## Search sets -/

/-- What a pass of the loop sends: nothing of a set that is disabled. -/
theorem sends_searchSet (env : Env) (m : Session) (searchKey : String)
    (hs : sources s = some source) : Sends source.db
      (if anyEnabled w s then source.finds env searchKey m.tasks.next else []) m
      (m.searchSet env w sources searchKey s) := by
  unfold searchSet anyEnabled
  dsimp only
  split_ifs
  · rw [hs]
    have hretain : Sends source.db [] m
        { m with searchSets := (m.searchSets.declare s).2 }.retainManager := .nothing rfl rfl rfl
    have hsearch := hretain.trans (sends_searchDB8 env w _ source searchKey
      { searchSet := (m.searchSets.declare s).1 })
    exact (hsearch.quiet .releaseManager).quiet (.nothing rfl rfl rfl)
  · exact .nothing rfl rfl rfl

/-- A set whose source calls back before it returns sends nothing. -/
theorem sends_searchSet_sync (env : Env) (m : Session) (searchKey : String)
    (hs : sources s = none) : Sends db [] m (m.searchSet env w sources searchKey s) := by
  unfold searchSet
  dsimp only
  split_ifs
  · rw [hs]
    dsimp only
    have hretain : Sends db [] m
        { m with searchSets := (m.searchSets.declare s).2 }.retainManager := .nothing rfl rfl rfl
    exact ((hretain.quiet (.callSearchCB _ _)).quiet .releaseManager).quiet (.nothing rfl rfl rfl)
  · exact .nothing rfl rfl rfl

theorem queries_search (clients : String → LunaClient ResponseCB) (method : Option String)
    (hvalues : w.searchSets.values = [s, t]) (hs : sources s = some source)
    (ht : sources t = none) :
    ((start clients method).search env w sources searchKey).queries =
      if (clients source.db).isConnected = true ∧ anyEnabled w s = true then
        (source.finds env searchKey 0).map fun find =>
          (method.getD (DB8.address source.db), find.2)
      else [] := by
  have hsession : (start clients method).search env w sources searchKey =
      (((start clients method).searchSet env w sources searchKey s).searchSet env w sources
        searchKey t).releaseManager := by
    unfold search
    rw [hvalues]
    rfl
  have hs' : Sends source.db (if anyEnabled w s then source.finds env searchKey 0 else [])
      (start clients method) ((start clients method).searchSet env w sources searchKey s) :=
    sends_searchSet env (start clients method) searchKey hs
  have ht' : Sends source.db [] ((start clients method).searchSet env w sources searchKey s)
      (((start clients method).searchSet env w sources searchKey s).searchSet env w sources
        searchKey t) := sends_searchSet_sync env _ searchKey ht
  have h := (hs'.quiet ht').quiet .releaseManager
  unfold queries
  rw [hsession, h.finds]
  show ([] ++ (if (clients source.db).isConnected = true then _ else [])).map Prod.snd = _
  rw [List.nil_append]
  by_cases hc : (clients source.db).isConnected = true
  · by_cases he : anyEnabled w s = true
    · rw [if_pos hc, if_pos he, if_pos ⟨hc, he⟩, List.map_map]
      rfl
    · rw [if_pos hc, if_neg he, if_neg fun e => he e.2]
      rfl
  · rw [if_neg hc, if_neg fun e => hc e.1]
    rfl

end Session

/-! ## The running service -/

namespace Service

variable {env : Env} {w : Service} {s t : SearchSetPtr} {c : CategoryPtr}

theorem set_addCategory_of_ne (hne : t ≠ s) : (w.addCategory env s c).2.set t = w.set t := by
  cases hf : (w.set s).categories.find (w.category c).id with
  | some q => rw [addCategory_refused (by rw [hf]; rfl)]
  | none =>
    have hset : (w.addCategory env s c).2.set t = (w.modifySet s fun set =>
        { set with categories := set.categories.insert (w.category c).id c }).set t := by
      rw [addCategory_eq hf]
      dsimp only
      split_ifs <;> rfl
    rw [hset, set_modifySet, if_neg hne]

theorem set_removeCategory_of_ne (hne : t ≠ s) (k : String) :
    (w.removeCategory env s k).2.set t = w.set t := by
  rw [removeCategory_snd]
  split_ifs
  · rfl
  · exact set_modifySet.trans (if_neg hne)

end Service

namespace System

variable {env : Env}

theorem set_onListApps {sam : Sam} {t : SearchSetPtr} (hne : t ≠ sam.searchSet) (w : Service)
    (payload : JValue) : (Sam.onListApps env sam w payload).set t = w.set t := by
  refine Sam.onListApps_induct (P := fun w' => w'.set t = w.set t) ⟨?_, ?_, ?_, ?_, ?_⟩ rfl
  · exact fun _ h => h
  · exact fun _ _ _ h => h
  · intro w' app _ hc h
    rw [Sam.addAppContents_content hc, set_addCategory_of_ne hne, AppContents.set_make, h]
  · exact fun _ _ _ _ _ h => h
  · intro w' app _ h
    exact (set_removeCategory_of_ne hne _).trans h

theorem set_step (s : System) (event : SystemEvent) {t : SearchSetPtr} (hne : t ≠ s.sam.searchSet) :
    (s.step env event).service.set t = s.service.set t := by
  obtain ⟨-, -, _, heq⟩ | ⟨_, payload, -, -, heq⟩ | ⟨requestPayload, -, heq⟩ :=
    service_step env s event
  · rw [heq]
    rfl
  · rw [heq, set_onListApps hne]
  · rw [heq]
    exact congrArg (fun sets : Heap SearchSet => sets.cell t)
      (Bus.registry_updateCategory env s.service requestPayload).1

/-- The set of the plugin has its one category in every state. -/
theorem categories_media (env : Env) (db : Db) (events : List SystemEvent) :
    ∃ p, ((run (step env) (initial env db) events).service.set 1).categories =
      OrdMap.empty.insert audioId p := by
  have hinitial : ∃ p, ((initial env db).service.set 1).categories =
      OrdMap.empty.insert audioId p := by
    rw [service_initial]
    generalize (Applications.removeFromDatabase env db).2 = db'
    have hreg := @registry_attachNew (start db' "") samCategory "SAM" (Database.search env) env
      rfl 0
    have hmedia {w : Service} (hval : w.searchSets = OrdMap.empty.insert "SAM" 0)
        (hnext : w.sets.next = 1) : (((w.newSet env audioCategory "Media" fun _ _ =>
          []).addSearchSet env w.sets.next).2.set 1).categories =
            OrdMap.empty.insert audioId w.categories.next := by
      have hfree : w.searchSets.find "Media" = none := by rw [hval]; decide
      rw [(registry_attachNew env hfree 1).2.2, if_pos hnext.symm]
      rfl
    exact ⟨_, hmedia hreg.1 hreg.2.1⟩
  exact (run_invariant (P := fun s : System => s.sam = ⟨0, 0⟩ ∧
      ∃ p, (s.service.set 1).categories = OrdMap.empty.insert audioId p)
    (fun s event h => ⟨(sam_step env s event).trans h.1, by
      rw [set_step s event (by rw [h.1]; decide)]
      exact h.2⟩) ⟨rfl, hinitial⟩ events).2

end System

/-- The plugin's category is enabled iff its row is. -/
theorem Agrees.anyEnabled_media {w : Service} (h : Agrees w) {p : CategoryPtr}
    (hp : (w.set 1).categories = OrdMap.empty.insert audioId p) :
    Session.anyEnabled w 1 = true ↔ audioId ∈ (enabledCategories w.db).map (·.id) := by
  have hheld : w.Holds 1 audioId p := by
    refine ⟨?_, ?_⟩
    · rw [h.apart.values]
      exact List.mem_cons_self
    · rw [hp, OrdMap.find_insert rfl, if_pos rfl]
  obtain ⟨row, hrow, hen⟩ := h.consistent 1 audioId p hheld
  rw [h.registered.holds_id hheld] at hrow
  have hany : Session.anyEnabled w 1 = (w.category p).enabled := by
    unfold Session.anyEnabled
    rw [hp]
    exact Bool.or_false _
  have hmem : audioId ∈ w.db.category.order.map (·.val) ↔ row.enabled = true := by
    rw [← mem_order_of_lookup hrow, ← (lookup_eq_some_iff.1 hrow).2]
    exact List.mem_map_of_injective fun _ _ => Text.ext
  rw [map_id_enabledCategories, hmem, hany, hen]

namespace Bus

variable {w : Service}

theorem queries_onReply (e : LunaResTask × Session) (reply : (String × ℕ) × JValue) :
    (onReply w e reply).2.queries = e.2.queries := by
  obtain ⟨evs, htrace, hreply⟩ := (Session.replied_onResponse e.2 reply).trace
  have hnone : evs.filterMap Event.find? = [] := by
    refine List.filterMap_eq_nil_iff.2 fun e' he => ?_
    have h := hreply e' he
    cases e' with
    | issued context callback method payload => cases h
    | _ => rfl
  show (e.2.onResponse reply).queries = e.2.queries
  unfold Session.queries Session.finds
  rw [htrace, List.filterMap_append, hnone, List.append_nil]

end Bus

/-- **A search asks the media database for the titles and for the artists** that match the key, once
each, iff the database is up and the menu has the plugin's category enabled, and for nothing else;
replies do not make it ask again as long as their handling is defined. -/
theorem queries_run (env : Env) (db : Db) (events : List SystemEvent)
    (hp : ∀ handle payload, .message handle payload ∈ events →
      ∀ app ∈ Sam.messageApps payload, Proper app)
    (clients : String → LunaClient ResponseCB) (method : Option String)
    (requestPayload : JValue) :
    let w := (run (System.step env.healthy) (System.initial env.healthy db) events).service
    let e := Bus.searchTask env.healthy w System.sources (.start clients method) requestPayload
    (e.2.queries =
      match Bus.searchKey requestPayload with
      | some key =>
        if (clients "com.webos.mediadb").isConnected = true ∧
            audioId ∈ (enabledCategories w.db).map (·.id) then
          ["title", "artist"].map fun target => (method.getD "luna://com.webos.mediadb/find",
            env.stringify
              (DB8.findPayload "com.webos.service.mediaindexer.audio:1" target key))
        else []
      | none => []) ∧
    ∀ replies, (run (Bus.onReply w) e replies).2.halted = false →
      (run (Bus.onReply w) e replies).2.queries = e.2.queries := by
  intro w e
  have h : Agrees w := agrees_reachable env db events hp
  obtain ⟨p, hcategories⟩ := System.categories_media env.healthy db events
  refine ⟨?_, fun replies _ =>
    run_invariant (P := fun e' : LunaResTask × Session => e'.2.queries = e.2.queries)
      (fun e' reply h => (Bus.queries_onReply e' reply).trans h) rfl replies⟩
  show (Bus.searchTask env.healthy w System.sources (.start clients method)
    requestPayload).2.queries = _
  rw [Bus.session_searchTask]
  cases Bus.searchKey requestPayload with
  | none => rfl
  | some key =>
    have hsource : System.sources 1 = some MediaPlugin.source := rfl
    dsimp only
    rw [Session.queries_search clients method h.apart.values hsource (if_neg (by decide))]
    exact if_congr (and_congr Iff.rfl (h.anyEnabled_media hcategories)) rfl rfl

/-- The find by title fails, and the search has asked twice. -/
theorem queries_run_sample :
    let w := (run (System.step Env.hello.healthy) (System.initial Env.hello.healthy .fresh)
      frontRun).service
    (run (Bus.onReply w) (Bus.searchTask Env.hello.healthy w System.sources
      (.start Session.connected none) (JValue.object.put "key" (.str "He")))
        [(("com.webos.mediadb", 1), .obj [("returnValue", .bool false)])]).2.queries.length =
      2 := by
  intro w
  have hp : ∀ handle payload, .message handle payload ∈ frontRun →
      ∀ app ∈ Sam.messageApps payload, Proper app := fun handle payload hmem app happ =>
    (frontRun_sound _ hmem handle payload rfl app happ).proper
  have h := queries_run .hello .fresh frontRun hp Session.connected none
    (JValue.object.put "key" (.str "He"))
  rw [h.2 [(("com.webos.mediadb", 1), .obj [("returnValue", .bool false)])] (by decide +kernel),
    h.1]
  decide +kernel

end UnifiedSearch
