import Mathlib.Data.List.Nodup
import UnifiedSearch.Media.Finds
import UnifiedSearch.Media.MediaPlugin

/-!
# The records that a search finds

`DB8Source::search` sends a find for each target of each kind; `finds` are those
a session has sent, with the closures they are given (`sends_searchDB8`). The
closure of a find puts an item into the vector of the task for each record of
the reply, and no part of the program looks at what is there already: in
whatever order the replies come, a file is in the vector once for each reply of
its category that lists it.
-/

namespace UnifiedSearch

open Lib

/-- The closure of a find that is sent, its method and its payload. -/
def Event.find? : Event → Option (DatabaseCB × String × String)
  | .issued _ callback method payload => some (callback, method, payload)
  | .answered .. | .called .. | .filed .. | .finished _ | .undefined => none

namespace DB8Source

/-- The closures of the finds for a kind. -/
def kindCallbacks (task : ℕ) (it : String × JValue) : List DatabaseCB :=
  (it.2.index "targets").items.map fun _ =>
    { category := it.1, task, extraWants := it.2.index "extras" }

def callbacks (source : DB8Source) (task : ℕ) : List DatabaseCB :=
  source.kindMap.entries.flatMap (kindCallbacks task)

/-- The closures and the payloads of the finds for a kind. -/
def kindFinds (env : Env) (searchKey : String) (task : ℕ) (it : String × JValue) :
    List (DatabaseCB × String) :=
  (it.2.index "targets").items.map fun targetObj =>
    ({ category := it.1, task, extraWants := it.2.index "extras" },
      env.stringify
        (DB8.findPayload (it.2.index "kind").asString targetObj.asString searchKey))

def finds (env : Env) (source : DB8Source) (searchKey : String) (task : ℕ) :
    List (DatabaseCB × String) :=
  source.kindMap.entries.flatMap (kindFinds env searchKey task)

theorem map_fst_finds (env : Env) (source : DB8Source) (searchKey : String) (task : ℕ) :
    (source.finds env searchKey task).map Prod.fst = source.callbacks task := by
  unfold finds callbacks kindFinds kindCallbacks
  rw [List.map_flatMap]
  simp only [List.map_map]
  rfl

/-- The paths that a reply lists. -/
def files (results : List JValue) : List String :=
  results.map fun result => (result.index "file_path").asString

/-- What the handler adds for a reply, as categories and paths. -/
def found (reply : DatabaseCB × List JValue) : List (String × String) :=
  (files reply.2).map fun file => (reply.1.category, file)

theorem task_of_mem_callbacks {source : DB8Source} {task : ℕ} {callback : DatabaseCB}
    (h : callback ∈ source.callbacks task) : callback.task = task := by
  obtain ⟨it, -, hit⟩ := List.mem_flatMap.1 h
  obtain ⟨target, -, rfl⟩ := List.mem_map.1 hit
  rfl

theorem item_pair (callback : DatabaseCB) (result : JValue) :
    ((item callback result).category, (item callback result).key) =
      (callback.category, (result.index "file_path").asString) := by
  unfold item
  dsimp only
  split_ifs <;> rfl

end DB8Source

/-- The category and the path of each item. -/
def pairs (items : List SearchItem) : List (String × String) :=
  items.map fun item => (item.category, item.key)

namespace Session

variable {w : Service} {m m' m'' : Session} {task : ℕ} {db searchKey : String}
  {asked asked' : List (DatabaseCB × String)} {source : DB8Source}

/-! ## The finds -/

/-- The finds that have been sent. -/
def finds (m : Session) : List (DatabaseCB × String × String) := m.trace.filterMap Event.find?

/-- The finds with these closures and payloads, which a client sends if it is connected; the first
of all is the one that sets the method. -/
structure Sends (db : String) (asked : List (DatabaseCB × String)) (m m' : Session) : Prop where
  connected : ∀ d, (m'.clients d).isConnected = (m.clients d).isConnected
  method : m'.method.getD (DB8.address db) = m.method.getD (DB8.address db)
  finds : m'.finds = m.finds ++ if (m.clients db).isConnected = true then
    asked.map fun find => (find.1, m.method.getD (DB8.address db), find.2) else []

namespace Sends

theorem nothing (hclients : m'.clients = m.clients) (hmethod : m'.method = m.method)
    (hfinds : m'.finds = m.finds) : Sends db [] m m' :=
  ⟨fun d => by rw [hclients], by rw [hmethod], by
    rw [hfinds, List.map_nil, ite_self, List.append_nil]⟩

theorem refl : Sends db [] m m := nothing rfl rfl rfl

theorem trans (h : Sends db asked m m') (h' : Sends db asked' m' m'') :
    Sends db (asked ++ asked') m m'' := by
  refine ⟨fun d => (h'.connected d).trans (h.connected d), h'.method.trans h.method, ?_⟩
  rw [h'.finds, h.finds, h.connected, h.method, List.append_assoc]
  split_ifs
  · rw [List.map_append]
  · rfl

theorem quiet (h : Sends db asked m m') (h' : Sends db [] m' m'') : Sends db asked m m'' := by
  have ht := h.trans h'
  rwa [List.append_nil] at ht

theorem emit {event : Event} (hclients : m'.clients = m.clients) (hmethod : m'.method = m.method)
    (htrace : m'.trace = m.trace) (h : event.find? = none) : Sends db [] m (m'.emit event) := by
  refine nothing hclients hmethod ?_
  unfold Session.finds Session.emit
  rw [List.filterMap_append, List.filterMap_cons_none h, List.filterMap_nil, List.append_nil,
    htrace]

theorem callSearchCB (cb : SearchCB) (items : List SearchItem) :
    Sends db [] m (m.callSearchCB w cb items) := by
  unfold Session.callSearchCB
  cases m.searchSets.read cb.searchSet with
  | none => exact emit rfl rfl rfl rfl
  | some s => exact emit rfl rfl rfl rfl

theorem releaseManager : Sends db [] m m.releaseManager := by
  unfold Session.releaseManager
  dsimp only
  split_ifs
  · exact emit rfl rfl rfl rfl
  · exact nothing rfl rfl rfl

theorem releaseTask (task : ℕ) : Sends db [] m (m.releaseTask w task) := by
  unfold Session.releaseTask
  dsimp only
  split_ifs
  · refine .quiet ?_ releaseManager
    refine .quiet ?_ (callSearchCB _ _)
    exact emit rfl rfl rfl rfl
  · exact nothing rfl rfl rfl

theorem dropCallback (p : ℕ) (callback : DatabaseCB) :
    Sends db [] m (m.dropCallback w p callback) := by
  have hclose : Sends db [] m { m with callbacks := m.callbacks.close p } := nothing rfl rfl rfl
  exact hclose.quiet (releaseTask callback.task)

end Sends

theorem sends_issue (env : Env) (m : Session) (db kind key value : String) (callback : DatabaseCB)
    (p : ℕ) : Sends db [(callback, env.stringify (DB8.findPayload kind key value))] m
      (m.issue env db kind key value callback p).2 := by
  refine ⟨(issues_issue env m db kind key value callback p).connected, ?_, ?_⟩
  · unfold issue
    split_ifs <;> rfl
  · unfold issue
    by_cases hconn : (m.clients db).isConnected = true
    · rw [if_neg (by rw [hconn]; decide), if_pos hconn]
      unfold finds emit
      rw [List.filterMap_append]
      rfl
    · rw [if_pos (by simpa using hconn), if_neg hconn, List.append_nil]

theorem sends_find (env : Env) (w : Service) (m : Session) (db kind key value : String)
    (callback : DatabaseCB) :
    Sends db [(callback, env.stringify (DB8.findPayload kind key value))] m
      (m.find env w db kind key value callback).2 := by
  have hpass : Sends db [] m (m.passCallback callback).2 := .nothing rfl rfl rfl
  have hissue := sends_issue env (m.passCallback callback).2 db kind key value callback
    (m.passCallback callback).1
  have hfind : Sends db [(callback, env.stringify (DB8.findPayload kind key value))] m
      ((m.passCallback callback).2.issue env db kind key value callback
        (m.passCallback callback).1).2 := hpass.trans hissue
  exact hfind.quiet (.dropCallback (m.passCallback callback).1 callback)

theorem sends_searchKind (env : Env) (w : Service) (m : Session) (source : DB8Source)
    (searchKey : String) (task : ℕ) (it : String × JValue) :
    Sends source.db (DB8Source.kindFinds env searchKey task it) m
      (m.searchKind env w source searchKey task it) := by
  unfold searchKind DB8Source.kindFinds
  dsimp only
  generalize (it.2.index "targets").items = targets
  induction targets generalizing m with
  | nil => exact .refl
  | cons target targets ih =>
    exact (sends_find env w m source.db _ target.asString searchKey _).trans (ih _)

theorem sends_foldl_searchKind (env : Env) (w : Service) (m : Session) (source : DB8Source)
    (searchKey : String) (task : ℕ) (entries : List (String × JValue)) :
    Sends source.db (entries.flatMap (DB8Source.kindFinds env searchKey task)) m
      (entries.foldl (fun m it => m.searchKind env w source searchKey task it) m) := by
  induction entries generalizing m with
  | nil => exact .refl
  | cons it entries ih =>
    exact (sends_searchKind env w m source searchKey task it).trans (ih _)

/-- The session in which a search has made its task, and has sent nothing. -/
def begun (m : Session) (source : DB8Source) (searchKey : String) (cb : SearchCB) : Session :=
  { m.retainManager with
    tasks := (m.tasks.alloc ⟨1, { id := source.id, key := searchKey, callback := cb }⟩).2 }

/-- A search sends a find for each target of each kind. -/
theorem sends_searchDB8 (env : Env) (w : Service) (m : Session) (source : DB8Source)
    (searchKey : String) (cb : SearchCB) :
    Sends source.db (source.finds env searchKey m.tasks.next) m
      (m.searchDB8 env w source searchKey cb).2 := by
  have hbegun : Sends source.db [] m (m.begun source searchKey cb) := .nothing rfl rfl rfl
  exact (hbegun.trans (sends_foldl_searchKind env w (m.begun source searchKey cb) source searchKey
    m.tasks.next source.kindMap.entries)).quiet (.releaseTask m.tasks.next)

/-- The closures it gives to them. -/
theorem callbacks_searchDB8 (env : Env) (w : Service) (m : Session) (source : DB8Source)
    (searchKey : String) (cb : SearchCB) (hconn : (m.clients source.db).isConnected = true) :
    (m.searchDB8 env w source searchKey cb).2.finds.map Prod.fst =
      m.finds.map Prod.fst ++ source.callbacks m.tasks.next := by
  rw [(sends_searchDB8 env w m source searchKey cb).finds, if_pos hconn, List.map_append,
    ← DB8Source.map_fst_finds env source searchKey, List.map_map]
  rfl

/-! ## The replies -/

/-- The closures called with the results of the replies, in the order of the replies. -/
def handle (m : Session) (replies : List (DatabaseCB × List JValue)) : Session :=
  replies.foldl (fun m reply => m.callDatabaseCB reply.1 reply.2) m

def taskItems (m : Session) (task : ℕ) : List SearchItem := (m.tasks.cell task).value.items

variable {replies : List (DatabaseCB × List JValue)}

theorem taskItems_callDatabaseCB (m : Session) (callback : DatabaseCB) (results : List JValue) :
    (m.callDatabaseCB callback results).taskItems callback.task =
      m.taskItems callback.task ++ results.map (DB8Source.item callback) := by
  unfold callDatabaseCB taskItems
  rw [Heap.cell_modify_self]

/-- Each reply adds what it lists. -/
theorem pairs_handle (m : Session) (htask : ∀ reply ∈ replies, reply.1.task = task) :
    pairs ((m.handle replies).taskItems task) =
      pairs (m.taskItems task) ++ replies.flatMap DB8Source.found := by
  induction replies generalizing m with
  | nil => exact (List.append_nil _).symm
  | cons reply replies ih =>
    obtain ⟨hreply, hrest⟩ := List.forall_mem_cons.1 htask
    have hfound : pairs (reply.2.map (DB8Source.item reply.1)) = DB8Source.found reply := by
      unfold pairs DB8Source.found DB8Source.files
      rw [List.map_map, List.map_map]
      exact List.map_congr_left fun result _ => DB8Source.item_pair reply.1 result
    have hfirst : pairs ((m.callDatabaseCB reply.1 reply.2).taskItems task) =
        pairs (m.taskItems task) ++ DB8Source.found reply := by
      rw [← hreply, taskItems_callDatabaseCB, ← hfound]
      exact List.map_append
    refine (ih (m.callDatabaseCB reply.1 reply.2) hrest).trans ?_
    rw [hfirst, List.flatMap_cons, List.append_assoc]

end Session

/-! ## How often a file is found -/

namespace DB8Source

variable {replies : List (DatabaseCB × List JValue)} {reply reply' : DatabaseCB × List JValue}

theorem mem_found {category file : String} :
    (category, file) ∈ found reply ↔ reply.1.category = category ∧ file ∈ files reply.2 := by
  unfold found
  rw [List.mem_map]
  constructor
  · rintro ⟨file', hfile, heq⟩
    obtain ⟨hcategory, rfl⟩ := Prod.mk.inj heq
    exact ⟨hcategory, hfile⟩
  · rintro ⟨rfl, hfile⟩
    exact ⟨file, hfile, rfl⟩

theorem nodup_found (h : (files reply.2).Nodup) : (found reply).Nodup :=
  h.map fun _ _ heq => (Prod.mk.inj heq).2

theorem disjoint_found :
    (found reply).Disjoint (found reply') ↔
      (reply.1.category = reply'.1.category → (files reply.2).Disjoint (files reply'.2)) := by
  constructor
  · intro h hcategory file hfile hfile'
    exact h (mem_found.2 ⟨rfl, hfile⟩) (mem_found.2 ⟨hcategory.symm, hfile'⟩)
  · rintro h ⟨category, file⟩ hpair hpair'
    obtain ⟨hcategory, hfile⟩ := mem_found.1 hpair
    obtain ⟨hcategory', hfile'⟩ := mem_found.1 hpair'
    exact h (hcategory.trans hcategory'.symm) hfile hfile'

theorem count_found (h : ∀ reply ∈ replies, (files reply.2).Nodup) (category file : String) :
    (replies.flatMap found).count (category, file) =
      replies.countP fun reply => reply.1.category = category ∧ file ∈ files reply.2 := by
  induction replies with
  | nil => rfl
  | cons reply replies ih =>
    obtain ⟨hreply, hrest⟩ := List.forall_mem_cons.1 h
    rw [List.flatMap_cons, List.count_append, ih hrest, List.countP_cons, Nat.add_comm,
      (nodup_found hreply).count]
    simp only [mem_found, decide_eq_true_eq]

theorem nodup_flatMap_found (h : ∀ reply ∈ replies, (files reply.2).Nodup) :
    (replies.flatMap found).Nodup ↔ replies.Pairwise fun reply reply' =>
      reply.1.category = reply'.1.category → (files reply.2).Disjoint (files reply'.2) := by
  rw [List.nodup_flatMap]
  refine (and_iff_right fun reply hreply => nodup_found (h reply hreply)).trans ?_
  exact List.Pairwise.iff fun _ _ => disjoint_found

end DB8Source

namespace Session

/-- **Each file of a category is in the items of a search once for each find whose reply lists
it**, so no pair is there twice iff the replies to the finds of one category list different
files. -/
theorem pairs_of_replies (m : Session) (source : DB8Source) (searchKey : String) (cb : SearchCB)
    (replies : List (DatabaseCB × List JValue))
    (hone : (replies.map Prod.fst).Perm (source.callbacks m.tasks.next))
    (hnodup : ∀ reply ∈ replies, (DB8Source.files reply.2).Nodup) :
    let found := pairs (((m.begun source searchKey cb).handle replies).taskItems m.tasks.next)
    (∀ category file, found.count (category, file) =
      replies.countP fun reply =>
        reply.1.category = category ∧ file ∈ DB8Source.files reply.2) ∧
    (found.Nodup ↔ replies.Pairwise fun reply reply' =>
      reply.1.category = reply'.1.category →
        (DB8Source.files reply.2).Disjoint (DB8Source.files reply'.2)) := by
  intro found
  have htask : ∀ reply ∈ replies, reply.1.task = m.tasks.next := fun reply hreply =>
    DB8Source.task_of_mem_callbacks (hone.subset (List.mem_map_of_mem hreply))
  have hempty : (m.begun source searchKey cb).taskItems m.tasks.next = [] := by
    unfold taskItems begun
    dsimp only
    rw [Heap.cell_alloc_self]
  have hfound : found = replies.flatMap DB8Source.found := by
    refine (pairs_handle (m.begun source searchKey cb) htask).trans ?_
    rw [hempty]
    rfl
  rw [hfound]
  exact ⟨DB8Source.count_found hnodup, DB8Source.nodup_flatMap_found hnodup⟩

/-- The reply to each find of the plugin, by title and by artist. -/
def pluginReplies (titles artists : List JValue) : List (DatabaseCB × List JValue) :=
  (MediaPlugin.source.callbacks 0).zip [titles, artists]

def record (file title : String) : JValue :=
  .obj [("file_path", .str file), ("title", .str title)]

def idle : Session := .start (fun _ => { isConnected := true }) none

theorem pairs_of_replies_plugin :
    (pairs (((idle.begun MediaPlugin.source "a" ⟨0⟩).handle
      (pluginReplies [record "/a.mp3" "a"] [record "/b.mp3" "b"])).taskItems 0)).Nodup := by
  have hone : ((pluginReplies [record "/a.mp3" "a"] [record "/b.mp3" "b"]).map Prod.fst).Perm
      (MediaPlugin.source.callbacks 0) := .of_eq rfl
  refine (pairs_of_replies idle MediaPlugin.source "a" ⟨0⟩ _ hone (by decide)).2.2 ?_
  refine .cons (fun reply hreply _ => ?_) (List.pairwise_singleton _ _)
  rw [List.mem_singleton.1 hreply]
  show ["/a.mp3"].Disjoint ["/b.mp3"]
  simp

/-- A record that matches by title and by artist. -/
theorem not_nodup_plugin :
    let replies := pluginReplies [record "/a.mp3" "a"] [record "/a.mp3" "a"]
    (replies.map Prod.fst).Perm (MediaPlugin.source.callbacks 0) ∧
      (∀ reply ∈ replies, (DB8Source.files reply.2).Nodup) ∧
      ¬(pairs (((idle.begun MediaPlugin.source "a" ⟨0⟩).handle replies).taskItems 0)).Nodup :=
  ⟨.of_eq rfl, by decide, by decide⟩

end Session

end UnifiedSearch
