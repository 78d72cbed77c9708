import UnifiedSearch.Bus.AppSearch
import UnifiedSearch.Media.LostResults

/-!
# The response to a search

`UnifiedSearch::search` shares a task, which responds when the last pointer to
it goes, with the closure that appends the results, and that closure goes when
the task of the manager ends. `Bus.search` says what the response is;
`respondsOnce` says that a running service sends that response, once, before any
reply of the media database, and how far replies are harmless.
-/

namespace UnifiedSearch

open Lib Service

/-- `UnifiedSearch::LunaResTask`, with the payloads it has responded with. The response payload is
`none` where a null intent has been followed. -/
structure LunaResTask where
  response : Counted (Option JValue) := ⟨1, some .object⟩
  sent : List JValue := []

namespace LunaResTask

variable (task : LunaResTask)

def put (key : String) (v : JValue) : LunaResTask :=
  { task with response := { task.response with
      value := task.response.value.map fun payload => payload.put key v } }

def retain : LunaResTask := { task with response := task.response.retain }

/-- Drop a pointer to the task; its destructor responds. -/
def release : LunaResTask :=
  { response := task.response.release
    sent := if task.response.holders = 1 then task.sent ++ task.response.value.toList
      else task.sent }

/-- Three puts and a return. -/
def fail (errorCode : ℚ) (errorText : String) : LunaResTask :=
  (((task.put "errorCode" (.num errorCode)).put "errorText" (.str errorText)).put
    "returnValue" (.bool false)).release

variable (w : Service)

/-- The closure given to `SearchManager::search`; it is dropped after its call. -/
def callResultCB (allIntents : Intents) : LunaResTask :=
  { task with response := { task.response with
      value := task.response.value.bind fun payload =>
        (Bus.appendResults w.db allIntents (payload.index "results")).map
          fun results => payload.put "results" results } }.release

/-- What an event of the session does to the task. -/
def onEvent : Event → LunaResTask
  | .finished allIntents => task.callResultCB w allIntents
  | _ => task

/-- What a session adds to its trace, done to the task. -/
def follow (m m' : Session) : LunaResTask :=
  (m'.trace.drop m.trace.length).foldl (fun task event => task.onEvent w event) task

end LunaResTask

namespace Bus

/-- `UnifiedSearch::search`, when it returns: its task, and the session of the search. -/
def searchTask (env : Env) (w : Service) (sources : SearchSetPtr → Option DB8Source) (m : Session)
    (requestPayload : JValue) : LunaResTask × Session :=
  let task : LunaResTask := {}
  match JValueUtil.getString requestPayload "key" "" with
  | (false, _) => (task.fail 101 "The 'key' isn't specified.", m)
  | (true, key) =>
    if key = "" ∨ key.utf8ByteSize < 2 then
      (task.fail 102 "The 'key' is empty or too short. (needs >= 2 bytes)", m)
    else
      -- the parameter `callback` of the manager, and the copy in its task
      let task := (task.put "results" .array).retain.retain
      let m' := m.search env w sources key
      let task := (task.follow w m m').release
      ((task.put "returnValue" (.bool true)).release, m')

/-- A reply of the media database, after the method has returned. -/
def onReply (w : Service) (e : LunaResTask × Session) (reply : (String × ℕ) × JValue) :
    LunaResTask × Session :=
  let m' := e.2.onResponse reply
  (e.1.follow w e.2 m', m')

end Bus

/-! ## The task -/

namespace LunaResTask

variable {task : LunaResTask} {w : Service} {m m' : Session} {evs : List Event}

/-- Nothing but the end of the manager's task touches the task. -/
theorem foldl_onEvent (h : ∀ e ∈ evs, ∀ intents, e ≠ .finished intents) :
    evs.foldl (fun task event => task.onEvent w event) task = task := by
  induction evs with
  | nil => rfl
  | cons e evs ih =>
    have he : task.onEvent w e = task := by
      cases e with
      | finished intents => exact (h _ List.mem_cons_self intents rfl).elim
      | _ => rfl
    rw [List.foldl_cons, he]
    exact ih fun e' he' => h e' (List.mem_cons_of_mem _ he')

theorem follow_eq (htrace : m'.trace = m.trace ++ evs) :
    task.follow w m m' = evs.foldl (fun task event => task.onEvent w event) task := by
  unfold follow
  rw [htrace, List.drop_left]

theorem fail_eq (errorCode : ℚ) (errorText : String) :
    (({} : LunaResTask).fail errorCode errorText) =
      ⟨⟨0, some (Bus.failed errorCode errorText)⟩, [Bus.failed errorCode errorText]⟩ := rfl

theorem response_callResultCB (allIntents : Intents) :
    ((({} : LunaResTask).put "results" .array).retain.retain.callResultCB w
        allIntents).response.value =
      (Bus.appendResults w.db allIntents .array).map (JValue.object.put "results") := by
  have hput : (JValue.object.put "results" .array).put "results" = JValue.object.put "results" :=
    funext fun results => JValue.put_put _ _ _ _
  show (Bus.appendResults w.db allIntents
      ((JValue.object.put "results" .array).index "results")).map
    ((JValue.object.put "results" .array).put "results") = _
  rw [hput]
  rfl

/-- The callback comes before the method goes on: the last pointer is the local variable. -/
theorem callResultCB_eq (allIntents : Intents) :
    ((((({} : LunaResTask).put "results" .array).retain.retain.callResultCB w
        allIntents).release).put "returnValue" (.bool true)).release =
      let response := (Bus.appendResults w.db allIntents .array).map fun results =>
        (JValue.object.put "results" results).put "returnValue" (.bool true)
      ⟨⟨0, response⟩, response.toList⟩ := by
  have hresponse := response_callResultCB (w := w) allIntents
  generalize hcalled :
    ((({} : LunaResTask).put "results" .array).retain.retain.callResultCB w allIntents) = called
    at hresponse
  have hholders : called.response.holders = 2 := by rw [← hcalled]; rfl
  have hsent : called.sent = [] := by rw [← hcalled]; rfl
  have hparameter : called.release = ⟨⟨1, called.response.value⟩, []⟩ := by
    unfold release Counted.release
    rw [hholders, hsent, if_neg (by decide)]
  rw [hparameter]
  unfold put release Counted.release
  dsimp only
  rw [hresponse, Option.map_map, if_pos rfl, List.nil_append]
  rfl

end LunaResTask

/-! ## The method -/

namespace Bus

variable {env : Env} {w : Service} {sources : SearchSetPtr → Option DB8Source}
  {requestPayload : JValue} {task : LunaResTask} {m : Session}

/-- When the method returns, its task has gone and has sent the response. -/
theorem searchTask_eq (clients : String → LunaClient ResponseCB) (method : Option String)
    (hsilent : Session.Silent w sources) :
    (searchTask env w sources (.start clients method) requestPayload).1 =
      ⟨⟨0, search w requestPayload⟩, (search w requestPayload).toList⟩ := by
  unfold searchTask search
  dsimp only
  rcases JValueUtil.getString requestPayload "key" "" with ⟨_ | _, key⟩
  · exact LunaResTask.fail_eq _ _
  · dsimp only
    split_ifs with hkey
    · exact LunaResTask.fail_eq _ _
    · obtain ⟨evs, hi, htrace, hin⟩ :=
        @Session.search_eq env w key sources clients method hsilent
      have hfollow : ((Session.start clients method).search env w sources key).trace =
        (Session.start clients method).trace ++ (evs ++ [.finished (w.search key)]) := htrace
      have hevs : ∀ e ∈ evs, ∀ intents, e ≠ .finished intents := fun e he intents heq => by
        have h := hin e he
        rw [heq] at h
        exact h
      dsimp only
      rw [LunaResTask.follow_eq hfollow, List.foldl_append, LunaResTask.foldl_onEvent hevs]
      have hresponse := @LunaResTask.callResultCB_eq w (w.search key)
      generalize appendResults w.db (w.search key) .array = results at hresponse ⊢
      rw [List.foldl_cons, List.foldl_nil]
      refine hresponse.trans ?_
      cases results <;> rfl

/-- The key of a request, where it is searched for. -/
def searchKey (requestPayload : JValue) : Option String :=
  match JValueUtil.getString requestPayload "key" "" with
  | (true, key) => if key = "" ∨ key.utf8ByteSize < 2 then none else some key
  | (false, _) => none

theorem session_searchTask (sources : SearchSetPtr → Option DB8Source) (requestPayload : JValue) :
    (searchTask env w sources m requestPayload).2 =
      match searchKey requestPayload with
      | some key => m.search env w sources key
      | none => m := by
  unfold searchTask searchKey
  rcases JValueUtil.getString requestPayload "key" "" with ⟨_ | _, key⟩
  · rfl
  · dsimp only
    split_ifs <;> rfl

theorem closed_searchTask (clients : String → LunaClient ResponseCB) (method : Option String) :
    let m := (searchTask env w sources (.start clients method) requestPayload).2
    m.callbacks.Closed ∧ m.halted = false := by
  rw [session_searchTask]
  cases searchKey requestPayload with
  | none => exact ⟨Scope.closed_empty, rfl⟩
  | some key => exact Session.closed_search env w sources clients method key

theorem session_run (e : LunaResTask × Session) (replies : List ((String × ℕ) × JValue)) :
    (run (onReply w) e replies).2 = run Session.onResponse e.2 replies := by
  induction replies generalizing e with
  | nil => rfl
  | cons reply replies ih => exact ih (onReply w e reply)

theorem onReply_fst (e : LunaResTask × Session) (reply : (String × ℕ) × JValue) :
    (onReply w e reply).1 = e.1 := by
  obtain ⟨evs, htrace, hreply⟩ := (Session.replied_onResponse e.2 reply).trace
  show e.1.follow w e.2 (e.2.onResponse reply) = e.1
  rw [LunaResTask.follow_eq htrace]
  refine LunaResTask.foldl_onEvent fun e' he intents heq => ?_
  have h := hreply e' he
  rw [heq] at h
  exact h

end Bus

/-! ## The running service -/

/-- The data sources that are media databases: the one of the plugin. -/
def System.sources (s : SearchSetPtr) : Option DB8Source :=
  if s = 1 then some MediaPlugin.source else none

theorem Wired.silent {env : Env} {w : Service} (h : Wired env w) :
    Session.Silent w System.sources := by
  intro s hs key
  obtain rfl : s = 1 := by
    by_contra hne
    unfold System.sources at hs
    rw [if_neg hne] at hs
    cases hs
  rw [h.media]

/-- **A running service responds once to each search**: in every state, whatever statements have
failed, the method has sent the response of `Bus.search` when it returns and has let its task go.
Replies of the media database send nothing more as long as their handling is defined: up to the
first one with results to a find that is waited for. -/
theorem respondsOnce (env : Env) (db : Db) (events : List SystemEvent)
    (clients : String → LunaClient ResponseCB) (method : Option String)
    (requestPayload : JValue) :
    let w := (run (System.step env) (System.initial env db) events).service
    let e := Bus.searchTask env w System.sources (.start clients method) requestPayload
    (∃ response, Bus.search w requestPayload = some response ∧
      e.1 = ⟨⟨0, some response⟩, [response]⟩ ∧ e.2.halted = false) ∧
    ∀ replies,
      ((run (Bus.onReply w) e replies).2.halted = false ↔
        Each Session.onResponse (fun m reply => ¬m.Awaits reply) e.2 replies) ∧
      ((run (Bus.onReply w) e replies).2.halted = false →
        (run (Bus.onReply w) e replies).1 = e.1) := by
  intro w e
  have hsilent : Session.Silent w System.sources :=
    (System.wired_reachable env db events).silent
  have hintact : Intact w := intact_reachable env db events
  obtain ⟨response, hresponse⟩ :=
    Option.isSome_iff_exists.1 (Bus.isSome_search hintact.nonNullIntents requestPayload)
  have htask : e.1 = ⟨⟨0, some response⟩, [response]⟩ := by
    show (Bus.searchTask env w System.sources (.start clients method) requestPayload).1 = _
    rw [Bus.searchTask_eq clients method hsilent, hresponse]
    rfl
  obtain ⟨hclosed, hhalted⟩ := @Bus.closed_searchTask env w System.sources requestPayload clients
    method
  refine ⟨⟨response, hresponse, htask, hhalted⟩, fun replies => ⟨?_, fun _ => ?_⟩⟩
  · rw [Bus.session_run]
    exact (Session.halted_run hclosed replies).trans (and_iff_right hhalted)
  · exact run_invariant (P := fun e' : LunaResTask × Session => e'.1 = e.1)
      (fun e' reply h => (Bus.onReply_fst e' reply).trans h) rfl replies

/-- The find by artist fails, and then a reply comes to no find. -/
theorem respondsOnce_sample :
    let w := (run (System.step .sample) (System.initial .sample .fresh) []).service
    let e := Bus.searchTask .sample w System.sources (.start Session.connected none)
      (JValue.object.put "key" (.str "ab"))
    (run (Bus.onReply w) e [(("com.webos.mediadb", 2), .obj [("returnValue", .bool false)]),
      (("com.webos.mediadb", 2), .obj [("returnValue", .bool true), ("results", .arr [])])]).1 =
        e.1 := by
  intro w e
  have h := (respondsOnce .sample .fresh [] Session.connected none
    (JValue.object.put "key" (.str "ab"))).2
      [(("com.webos.mediadb", 2), .obj [("returnValue", .bool false)]),
        (("com.webos.mediadb", 2), .obj [("returnValue", .bool true), ("results", .arr [])])]
  exact h.2 (h.1.2 (by decide +kernel))

end UnifiedSearch
