import UnifiedSearch.Media.DB8Source

/-!
# What a search of the media database does

`Issues task n`: nothing but `n` finds for `task`. A search issues its finds,
and then its task, which only the local variable holds by then, calls back
without an item (`searched_searchDB8`). `Advances` is a pass of the loop over the
search sets.
-/

namespace UnifiedSearch

open Lib Service

/-- A find for the task. -/
def Event.IsFind (task : ℕ) : Event → Prop
  | .issued _ callback _ _ => callback.task = task
  | _ => False

/-- An event of a search: its tasks are numbered from `lo` to `hi`, nothing is answered yet, and
every variable is read in its scope. -/
def Event.Within (lo hi : ℕ) : Event → Prop
  | .issued _ callback _ _ => lo ≤ callback.task ∧ callback.task < hi
  | .called task _ => lo ≤ task ∧ task < hi
  | .filed .. => True
  | .answered .. | .finished _ | .undefined => False

theorem Event.Within.mono {lo lo' hi hi' : ℕ} {e : Event} (hlo : lo' ≤ lo) (hhi : hi ≤ hi')
    (h : e.Within lo hi) : e.Within lo' hi' := by
  cases e with
  | issued context callback method payload => exact ⟨hlo.trans h.1, h.2.trans_le hhi⟩
  | called task items => exact ⟨hlo.trans h.1, h.2.trans_le hhi⟩
  | filed s intents intents' => trivial
  | answered context payload => cases h
  | finished intents => cases h
  | undefined => cases h

/-- The number of finds of a source. -/
def DB8Source.targetCount (source : DB8Source) : ℕ :=
  (source.kindMap.entries.map fun it => (it.2.index "targets").items.length).sum

namespace Session

variable {env : Env} {w : Service} {m m' m'' : Session} {task n n' : ℕ} {db searchKey : String}
  {callback : DatabaseCB} {source : DB8Source} {cb : SearchCB} {s : SearchSetPtr}
  {sources : SearchSetPtr → Option DB8Source}

/-- The finds a client lets through. -/
def sent (m : Session) (db : String) (n : ℕ) : ℕ := if (m.clients db).isConnected then n else 0

theorem sent_zero : m.sent db 0 = 0 := by unfold sent; split_ifs <;> rfl

theorem sent_add : m.sent db n + m.sent db n' = m.sent db (n + n') := by
  unfold sent
  split_ifs <;> rfl

/-! ## Finds -/

/-- Nothing but `n` finds for the task. -/
structure Issues (task n : ℕ) (m m' : Session) : Prop where
  tasks : m'.tasks = m.tasks
  manager : m'.manager = m.manager
  searchSets : m'.searchSets = m.searchSets
  connected : ∀ db, (m'.clients db).isConnected = (m.clients db).isConnected
  closed : m.callbacks.Closed → m'.callbacks.Closed
  trace : ∃ finds : List Event, m'.trace = m.trace ++ finds ∧ finds.length = n ∧
    ∀ e ∈ finds, e.IsFind task

namespace Issues

theorem refl : Issues task 0 m m :=
  ⟨rfl, rfl, rfl, fun _ => rfl, fun h => h, [], (List.append_nil _).symm, rfl,
    fun _ he => by cases he⟩

theorem trans (h : Issues task n m m') (h' : Issues task n' m' m'') :
    Issues task (n + n') m m'' := by
  obtain ⟨l, htrace, hlen, hfind⟩ := h.trace
  obtain ⟨l', htrace', hlen', hfind'⟩ := h'.trace
  refine ⟨h'.tasks.trans h.tasks, h'.manager.trans h.manager, h'.searchSets.trans h.searchSets,
    fun db => (h'.connected db).trans (h.connected db), fun hc => h'.closed (h.closed hc),
    l ++ l', ?_, ?_, fun e he => ?_⟩
  · rw [htrace', htrace, List.append_assoc]
  · rw [List.length_append, hlen, hlen']
  · rcases List.mem_append.1 he with he | he
    · exact hfind e he
    · exact hfind' e he

theorem sent_eq (h : Issues task n m m') (k : ℕ) : m'.sent db k = m.sent db k := by
  unfold sent
  rw [h.connected]

end Issues

theorem releaseTask_of_lt (h : 1 < (m.tasks.cell task).holders) :
    m.releaseTask w task = { m with tasks := m.tasks.modify task Counted.release } := by
  unfold releaseTask
  dsimp only
  rw [if_neg (by omega)]

theorem callbacks_issue (db kind key value : String) (p : ℕ) :
    (m.issue env db kind key value callback p).2.callbacks = m.callbacks := by
  unfold issue
  split_ifs <;> rfl

theorem issues_issue (env : Env) (m : Session) (db kind key value : String)
    (callback : DatabaseCB) (p : ℕ) :
    Issues callback.task (m.sent db 1) m (m.issue env db kind key value callback p).2 := by
  by_cases hc : (m.clients db).isConnected = true
  · have hsent : m.sent db 1 = 1 := if_pos hc
    unfold issue
    rw [if_neg (by rw [hc]; decide), hsent]
    refine ⟨rfl, rfl, rfl, fun d => ?_, fun h => h, [_], rfl, rfl, fun e he => ?_⟩
    · show (Function.update m.clients db _ d).isConnected = _
      by_cases hd : d = db
      · subst hd
        rw [Function.update_self]
        exact LunaClient.isConnected_call (m.clients d) _ _ _ false
      · rw [Function.update_of_ne hd]
    · rw [List.mem_singleton.1 he]
      exact rfl
  · have hsent : m.sent db 1 = 0 := if_neg hc
    unfold issue
    rw [if_pos (by simpa using hc), hsent]
    exact .refl

/-- The closure goes with the parameter that holds it. -/
theorem issues_dropCallback (hheld : 0 < (m.tasks.cell callback.task).holders)
    (hi : Issues callback.task n (m.passCallback callback).2 m')
    (hcallbacks : m'.callbacks = (m.passCallback callback).2.callbacks) :
    Issues callback.task n m (m'.dropCallback w (m.passCallback callback).1 callback) := by
  have htasks : m'.tasks = m.tasks.modify callback.task Counted.retain := hi.tasks
  have hlt : 1 < (m'.tasks.cell callback.task).holders := by
    rw [htasks, Heap.cell_modify_self]
    exact Nat.succ_lt_succ hheld
  unfold dropCallback
  rw [releaseTask_of_lt]
  · refine ⟨?_, hi.manager, hi.searchSets, hi.connected, fun hclosed => ?_, hi.trace⟩
    · dsimp only
      rw [htasks, Heap.modify_release_retain]
    · dsimp only
      rw [hcallbacks]
      exact hclosed.close_declare callback
  · exact hlt

theorem issues_find (env : Env) (w : Service) (m : Session) (db kind key value : String)
    (callback : DatabaseCB) (hheld : 0 < (m.tasks.cell callback.task).holders) :
    Issues callback.task (m.sent db 1) m (m.find env w db kind key value callback).2 := by
  have hfind : (m.find env w db kind key value callback).2 =
      ((m.passCallback callback).2.issue env db kind key value callback
        (m.passCallback callback).1).2.dropCallback w (m.passCallback callback).1 callback := rfl
  have hi : Issues callback.task (m.sent db 1) (m.passCallback callback).2
      ((m.passCallback callback).2.issue env db kind key value callback
        (m.passCallback callback).1).2 :=
        issues_issue env (m.passCallback callback).2 db kind key value callback _
  rw [hfind]
  exact issues_dropCallback hheld hi (callbacks_issue db kind key value _)

theorem issues_foldl_find {category : String} {extraWants : JValue} (key kind : String)
    (targets : List JValue) (hheld : 0 < (m.tasks.cell task).holders) :
    Issues task (m.sent db targets.length) m
      (targets.foldl (fun m target =>
        (m.find env w db kind target.asString key { category, task, extraWants }).2) m) := by
  induction targets generalizing m with
  | nil =>
    rw [List.length_nil, sent_zero]
    exact .refl
  | cons target targets ih =>
    have h1 : Issues task (m.sent db 1) m
        (m.find env w db kind target.asString key { category, task, extraWants }).2 :=
      issues_find env w m db kind target.asString key { category, task, extraWants } hheld
    have h2 := h1.trans (ih (by rw [h1.tasks]; exact hheld))
    rwa [h1.sent_eq, sent_add, Nat.add_comm] at h2

theorem issues_foldl_searchKind (entries : List (String × JValue))
    (hheld : 0 < (m.tasks.cell task).holders) :
    Issues task (m.sent source.db
        (entries.map fun it => (it.2.index "targets").items.length).sum) m
      (entries.foldl (fun m it => m.searchKind env w source searchKey task it) m) := by
  induction entries generalizing m with
  | nil =>
    rw [List.map_nil, List.sum_nil, sent_zero]
    exact .refl
  | cons it entries ih =>
    have h1 : Issues task (m.sent source.db (it.2.index "targets").items.length) m
        (m.searchKind env w source searchKey task it) :=
      issues_foldl_find searchKey _ _ hheld
    have h2 := h1.trans (ih (by rw [h1.tasks]; exact hheld))
    rwa [h1.sent_eq, sent_add] at h2

/-! ## The search -/

/-- The closure of `SearchManager::search`, called while its variable is in scope. -/
theorem callSearchCB_eq (hset : m.searchSets.read cb.searchSet = some s) (items : List SearchItem) :
    m.callSearchCB w cb items =
      { m with
        manager := { m.manager with value := items.foldl (w.fileItem s) m.manager.value }
        trace := m.trace ++
          [.filed s m.manager.value (items.foldl (w.fileItem s) m.manager.value)] } := by
  unfold callSearchCB
  rw [hset]
  rfl

theorem releaseManager_of_lt (h : 1 < m.manager.holders) :
    m.releaseManager = { m with manager := m.manager.release } := by
  unfold releaseManager
  dsimp only
  rw [if_neg (by omega)]

theorem releaseManager_last (h : m.manager.holders = 1) :
    m.releaseManager.trace = m.trace ++ [.finished m.manager.value] := by
  unfold releaseManager
  dsimp only
  rw [if_pos h]
  rfl

/-- The last pointer to a search task: it calls back, and the closure it had goes. -/
theorem releaseTask_last (hlast : (m.tasks.cell task).holders = 1)
    (hset : m.searchSets.read (m.tasks.cell task).value.callback.searchSet = some s)
    (hheld : 1 < m.manager.holders) :
    m.releaseTask w task =
      { m with
        tasks := m.tasks.modify task Counted.release
        manager := ⟨m.manager.holders - 1,
          (m.tasks.cell task).value.items.foldl (w.fileItem s) m.manager.value⟩
        trace := m.trace ++ [.called task (m.tasks.cell task).value.items,
          .filed s m.manager.value
            ((m.tasks.cell task).value.items.foldl (w.fileItem s) m.manager.value)] } := by
  unfold releaseTask
  dsimp only
  rw [if_pos hlast, callSearchCB_eq (s := s), releaseManager_of_lt]
  · simp only [emit, Counted.release, List.append_assoc, List.cons_append, List.nil_append]
  · exact hheld
  · exact hset

/-- What a search of the media database does: its finds are sent, and then its task ends, with no
item in it. -/
structure Searched (s : SearchSetPtr) (count : ℕ) (m m' : Session) : Prop where
  trace : ∃ finds : List Event, finds.length = count ∧ (∀ e ∈ finds, e.IsFind m.tasks.next) ∧
    m'.trace = m.trace ++ (finds ++
      [.called m.tasks.next [], .filed s m.manager.value m.manager.value])
  next : m'.tasks.next = m.tasks.next + 1
  manager : m'.manager = m.manager
  connected : ∀ db, (m'.clients db).isConnected = (m.clients db).isConnected
  closed : m.callbacks.Closed → m'.callbacks.Closed

theorem searched_searchDB8 (hheld : 0 < m.manager.holders)
    (hset : m.searchSets.read cb.searchSet = some s) :
    Searched s (m.sent source.db source.targetCount) m
      (m.searchDB8 env w source searchKey cb).2 := by
  let m1 : Session := { m.retainManager with
    tasks := (m.tasks.alloc ⟨1, { id := source.id, key := searchKey, callback := cb }⟩).2 }
  have hcell : m1.tasks.cell m.tasks.next =
      ⟨1, { id := source.id, key := searchKey, callback := cb }⟩ := if_pos rfl
  have hi : Issues m.tasks.next (m.sent source.db source.targetCount) m1
      (source.kindMap.entries.foldl
        (fun m' it => m'.searchKind env w source searchKey m.tasks.next it) m1) :=
    issues_foldl_searchKind source.kindMap.entries (by rw [hcell]; exact Nat.one_pos)
  have hsearch : (m.searchDB8 env w source searchKey cb).2 =
      (source.kindMap.entries.foldl
        (fun m' it => m'.searchKind env w source searchKey m.tasks.next it) m1).releaseTask w
          m.tasks.next := rfl
  rw [hsearch]
  generalize source.kindMap.entries.foldl
    (fun m' it => m'.searchKind env w source searchKey m.tasks.next it) m1 = m2 at hi
  obtain ⟨finds, htrace, hlen, hfind⟩ := hi.trace
  -- only the local variable holds the task when the loop is over
  have hlast : m2.tasks.cell m.tasks.next =
      ⟨1, { id := source.id, key := searchKey, callback := cb }⟩ := by rw [hi.tasks, hcell]
  have hmanager : m2.manager = m.manager.retain := hi.manager
  rw [releaseTask_last (s := s) (by rw [hlast])]
  · refine ⟨⟨finds, hlen, hfind, ?_⟩, ?_, ?_, hi.connected, hi.closed⟩
    · dsimp only
      rw [htrace, hlast, hmanager, List.append_assoc]
      rfl
    · dsimp only
      rw [hi.tasks]
      rfl
    · dsimp only
      rw [hmanager, hlast]
      rfl
  · rw [hlast, hi.searchSets]
    exact hset
  · rw [hmanager]
    exact Nat.succ_lt_succ hheld

/-! ## The loop over the search sets -/

/-- Whether the set has an enabled category. -/
def anyEnabled (w : Service) (s : SearchSetPtr) : Bool :=
  (w.set s).categories.values.any fun p => (w.category p).enabled

theorem searchSet_disabled (he : anyEnabled w s = false) :
    m.searchSet env w sources searchKey s =
      { m with searchSets := (m.searchSets.declare s).2.close (m.searchSets.declare s).1 } := by
  unfold anyEnabled at he
  unfold searchSet
  dsimp only
  rw [if_neg (by rw [he]; decide)]

theorem searchSet_sync (he : anyEnabled w s = true) (hs : sources s = none)
    (hheld : 0 < m.manager.holders) :
    m.searchSet env w sources searchKey s =
      { m with
        searchSets := (m.searchSets.declare s).2.close (m.searchSets.declare s).1
        manager := ⟨m.manager.holders,
          ((w.set s).source w.db searchKey).foldl (w.fileItem s) m.manager.value⟩
        trace := m.trace ++ [.filed s m.manager.value
          (((w.set s).source w.db searchKey).foldl (w.fileItem s) m.manager.value)] } := by
  unfold anyEnabled at he
  unfold searchSet
  dsimp only
  rw [if_pos he, hs]
  dsimp only
  rw [callSearchCB_eq (s := s) Scope.read_declare, releaseManager_of_lt]
  · rfl
  · exact Nat.succ_lt_succ hheld

theorem searched_searchSet (he : anyEnabled w s = true) (hs : sources s = some source)
    (hheld : 0 < m.manager.holders) :
    Searched s (m.sent source.db source.targetCount) m (m.searchSet env w sources searchKey s) := by
  let m1 : Session := { m with searchSets := (m.searchSets.declare s).2 }.retainManager
  have h : Searched s (m.sent source.db source.targetCount) m1
      (m1.searchDB8 env w source searchKey { searchSet := (m.searchSets.declare s).1 }).2 :=
    searched_searchDB8 (m := m1) (Nat.succ_pos _) Scope.read_declare
  unfold anyEnabled at he
  unfold searchSet
  dsimp only
  rw [if_pos he, hs]
  dsimp only
  rw [releaseManager_of_lt]
  · exact ⟨h.trace, h.next, congrArg Counted.release h.manager, h.connected, h.closed⟩
  · exact (congrArg Counted.holders h.manager).symm ▸ Nat.succ_lt_succ hheld

/-- What the loop does to the session. -/
structure Advances (m m' : Session) : Prop where
  trace : ∃ evs : List Event, m'.trace = m.trace ++ evs ∧
    ∀ e ∈ evs, e.Within m.tasks.next m'.tasks.next
  next : m.tasks.next ≤ m'.tasks.next
  holders : m'.manager.holders = m.manager.holders
  connected : ∀ db, (m'.clients db).isConnected = (m.clients db).isConnected
  closed : m.callbacks.Closed → m'.callbacks.Closed

namespace Advances

theorem refl : Advances m m :=
  ⟨⟨[], (List.append_nil _).symm, fun _ he => by cases he⟩, le_rfl, rfl, fun _ => rfl, fun h => h⟩

theorem trans (h : Advances m m') (h' : Advances m' m'') : Advances m m'' := by
  obtain ⟨l, htrace, hin⟩ := h.trace
  obtain ⟨l', htrace', hin'⟩ := h'.trace
  refine ⟨⟨l ++ l', ?_, fun e he => ?_⟩, h.next.trans h'.next, h'.holders.trans h.holders,
    fun db => (h'.connected db).trans (h.connected db), fun hc => h'.closed (h.closed hc)⟩
  · rw [htrace', htrace, List.append_assoc]
  · rcases List.mem_append.1 he with he | he
    · exact (hin e he).mono le_rfl h'.next
    · exact (hin' e he).mono h.next le_rfl

end Advances

theorem Searched.advances {count : ℕ} (h : Searched s count m m') : Advances m m' := by
  obtain ⟨finds, -, hfind, htrace⟩ := h.trace
  refine ⟨⟨_, htrace, fun e he => ?_⟩, by rw [h.next]; omega, by rw [h.manager], h.connected,
    h.closed⟩
  rw [h.next]
  rcases List.mem_append.1 he with he | he
  · have hf := hfind e he
    cases e with
    | issued context callback method payload =>
      have hf : callback.task = m.tasks.next := hf
      exact ⟨hf.ge, by omega⟩
    | _ => exact hf.elim
  · simp only [List.mem_cons, List.not_mem_nil, or_false] at he
    rcases he with rfl | rfl
    · exact ⟨le_rfl, Nat.lt_succ_self _⟩
    · trivial

theorem advances_searchSet (env : Env) (w : Service) (sources : SearchSetPtr → Option DB8Source)
    (searchKey : String) (s : SearchSetPtr) (hheld : 0 < m.manager.holders) :
    Advances m (m.searchSet env w sources searchKey s) := by
  cases he : anyEnabled w s with
  | false =>
    rw [searchSet_disabled he]
    exact { (Advances.refl : Advances m m) with }
  | true =>
    cases hs : sources s with
    | some source => exact (searched_searchSet he hs hheld).advances
    | none =>
      rw [searchSet_sync he hs hheld]
      refine ⟨⟨[_], rfl, fun e hmem => ?_⟩, le_rfl, rfl, fun _ => rfl, fun h => h⟩
      rw [List.mem_singleton.1 hmem]
      trivial

theorem advances_foldl_searchSet (env : Env) (w : Service)
    (sources : SearchSetPtr → Option DB8Source) (searchKey : String) (l : List SearchSetPtr)
    (hheld : 0 < m.manager.holders) :
    Advances m (l.foldl (fun m s => m.searchSet env w sources searchKey s) m) := by
  induction l generalizing m with
  | nil => exact .refl
  | cons s l ih =>
    have h := advances_searchSet env w sources searchKey s hheld
    exact h.trans (ih (by rw [h.holders]; exact hheld))

/-! ## The answer -/

/-- No media database calls back with an item before it returns. -/
def Silent (w : Service) (sources : SearchSetPtr → Option DB8Source) : Prop :=
  ∀ s, (sources s).isSome = true → ∀ key, (w.set s).source w.db key = []

/-- What the manager's task has after the loop. -/
theorem manager_foldl_searchSet (env : Env) (searchKey : String) (hsilent : Silent w sources)
    (l : List SearchSetPtr)
    (hheld : 0 < m.manager.holders) :
    (l.foldl (fun m s => m.searchSet env w sources searchKey s) m).manager =
      ⟨m.manager.holders, l.foldl (fun task s =>
        if anyEnabled w s then ((w.set s).source w.db searchKey).foldl (w.fileItem s) task
        else task) m.manager.value⟩ := by
  induction l generalizing m with
  | nil => rfl
  | cons s l ih =>
    have h := advances_searchSet env w sources searchKey s hheld
    have hvalue : (m.searchSet env w sources searchKey s).manager.value =
        if anyEnabled w s then
          ((w.set s).source w.db searchKey).foldl (w.fileItem s) m.manager.value
        else m.manager.value := by
      cases he : anyEnabled w s with
      | false => rw [searchSet_disabled he]; rfl
      | true =>
        cases hs : sources s with
        | some source =>
          rw [(searched_searchSet he hs hheld).manager, hsilent s (by rw [hs]; rfl)]
          rfl
        | none => rw [searchSet_sync he hs hheld]; rfl
    rw [List.foldl_cons, List.foldl_cons, ih (by rw [h.holders]; exact hheld), h.holders, hvalue]

/-- **The answer of a search** is the one of the sources that call back before they return; it is
given before any reply. -/
theorem search_eq (clients : String → LunaClient ResponseCB) (method : Option String)
    (hsilent : Silent w sources) :
    ∃ evs hi, ((start clients method).search env w sources searchKey).trace =
        evs ++ [.finished (w.search searchKey)] ∧ ∀ e ∈ evs, e.Within 0 hi := by
  have hadv := advances_foldl_searchSet env w sources searchKey w.searchSets.values
    (m := start clients method) Nat.one_pos
  have hm := manager_foldl_searchSet (m := start clients method) env searchKey hsilent
    w.searchSets.values Nat.one_pos
  obtain ⟨evs, htrace, hin⟩ := hadv.trace
  refine ⟨evs, _, ?_, hin⟩
  unfold search
  rw [releaseManager_last hadv.holders, htrace, hm]
  rfl

end Session

end UnifiedSearch
