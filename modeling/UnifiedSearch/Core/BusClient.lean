import UnifiedSearch.Core.LunaClient
import UnifiedSearch.Lib.Lifetime

/-!
# A client and its calls at the bus

`LunaClient` with what it shares with the bus: the handles in `m_callMap`, the
task objects behind the pointers in `m_taskMap`, and the raw pointer that the
bus keeps of each call as the context of its replies. A callback that calls the
client again does so between the two halves of `_onResponse`, so everything the
program and the bus can do is an event of one run. `journal` is what has
happened, in order.
-/

namespace UnifiedSearch

open Lib

/-- A call as the bus keeps it. Nothing is delivered for one that is not live. -/
structure BusEntry where
  request : BusCall
  context : ℕ
  live : Bool

instance : Inhabited BusEntry := ⟨⟨⟨"", "", false⟩, 0, false⟩⟩

def BusEntry.kill (entry : BusEntry) : BusEntry := { entry with live := false }

/-- A request: the id that `call` returned, the handle of its bus call and the pointer to its
task. -/
structure Issued where
  id : ℕ
  handle : ℕ
  task : ℕ
  isSubscribe : Bool
deriving DecidableEq

inductive Entry where
  | called (q : Issued)
  | cancelled (handle : ℕ)
  /-- The callback of a task runs. -/
  | ran (task : ℕ)
  /-- `_onResponse` gives up the request, whose one reply has been handled. -/
  | closed (handle : ℕ)
  | status (connected : Bool)
  /-- A task is read after it has gone. -/
  | dangling
deriving DecidableEq

/-- `κ` is the type of the closures; a callback may be null. -/
structure BusClient (κ : Type) where
  isConnected : Bool := false
  callId : ℕ := 0
  callMap : OrdMap ℕ ℕ := .empty
  taskMap : OrdMap ℕ ℕ := .empty
  tasks : Scope (LunaReqTask (Option κ)) := .empty
  calls : Heap BusEntry := .empty
  /-- The context whose callback is running. -/
  running : Option ℕ := none
  journal : List Entry := []

namespace BusClient

variable {κ : Type} (s : BusClient κ)

def note (e : Entry) : BusClient κ := { s with journal := s.journal ++ [e] }

/-! ## The two maps

A `Call` that is destroyed is cancelled at the bus; a task is held by its entry alone. -/

def destroyCall (handle : ℕ) : BusClient κ :=
  { s with calls := s.calls.modify handle BusEntry.kill }

def destroyTask (task : ℕ) : BusClient κ := { s with tasks := s.tasks.close task }

def insertCall (id handle : ℕ) : BusClient κ :=
  if (s.callMap.find id).isSome then s.destroyCall handle
  else { s with callMap := s.callMap.insert id handle }

def insertTask (id task : ℕ) : BusClient κ :=
  if (s.taskMap.find id).isSome then s.destroyTask task
  else { s with taskMap := s.taskMap.insert id task }

def eraseCall (id : ℕ) : BusClient κ :=
  match s.callMap.find id with
  | none => s
  | some handle => { s with callMap := s.callMap.erase id }.destroyCall handle

def eraseTask (id : ℕ) : BusClient κ :=
  match s.taskMap.find id with
  | none => s
  | some task => { s with taskMap := s.taskMap.erase id }.destroyTask task

theorem journal_insertCall (id handle : ℕ) : (s.insertCall id handle).journal = s.journal := by
  unfold insertCall
  split_ifs <;> rfl

theorem journal_insertTask (id task : ℕ) : (s.insertTask id task).journal = s.journal := by
  unfold insertTask
  split_ifs <;> rfl

/-- A call that is destroyed is still known by what it asked for. -/
theorem request_insertCall (id handle h : ℕ) :
    ((s.insertCall id handle).calls.cell h).request = (s.calls.cell h).request := by
  unfold insertCall
  split_ifs
  · unfold destroyCall
    dsimp only
    rw [Heap.cell_modify]
    split_ifs with hh
    · rw [hh]; rfl
    · rfl
  · rfl

theorem calls_insertTask (id task : ℕ) : (s.insertTask id task).calls = s.calls := by
  unfold insertTask
  split_ifs <;> rfl

def clearCalls : BusClient κ :=
  { s with
    calls := s.callMap.values.foldl (fun calls handle => calls.modify handle BusEntry.kill) s.calls
    callMap := .empty }

def clearTasks : BusClient κ :=
  { s with tasks := s.taskMap.values.foldl Scope.close s.tasks, taskMap := .empty }

/-! ## The methods -/

/-- `LunaClient::call` -/
def call (method payload : String) (callback : Option κ) (subscribe : Bool := false) :
    ℕ × BusClient κ :=
  if !s.isConnected then (0, s) else
  let id := (s.callId + 1) % 2 ^ 64
  let (task, tasks) := s.tasks.declare { id, callback, isSubscribe := subscribe }
  -- `callMultiReply` or `callOneReply`, with `task.get()`
  let (handle, calls) := s.calls.alloc
    { request := { method, payload, multiReply := subscribe }, context := task, live := true }
  let s := { s with callId := id, tasks, calls }
  (id, ((s.insertCall id handle).insertTask id task).note
    (.called { id, handle, task, isSubscribe := subscribe }))

theorem request_call (hconn : s.isConnected = true) (method payload : String)
    (callback : Option κ) (subscribe : Bool) :
    ((s.call method payload callback subscribe).2.calls.cell s.calls.next).request =
      { method, payload, multiReply := subscribe } := by
  unfold call
  rw [if_neg (by rw [hconn]; decide)]
  dsimp only [note]
  rw [calls_insertTask, request_insertCall, Heap.cell_alloc_self]

/-- `LunaClient::cancel` -/
def cancel (id : ℕ) : Bool × BusClient κ :=
  match s.callMap.find id with
  | none => (false, s)
  | some handle =>
    (true, (((s.destroyCall handle).eraseCall id).eraseTask id).note (.cancelled handle))

/-- `LunaClient::_onResponse` once the callback has returned. -/
def responded (context : ℕ) : BusClient κ :=
  match s.tasks.read context with
  | none => s.note .dangling
  | some task =>
    if !task.isSubscribe then
      match s.callMap.find task.id with
      | none => s.eraseTask task.id
      | some handle => ((s.eraseCall task.id).eraseTask task.id).note (.closed handle)
    else s

/-- `LunaClient::_onResponse` up to the callback, which runs on until it returns. -/
def onResponse (context : ℕ) : BusClient κ :=
  match s.tasks.read context with
  | none => s.note .dangling
  | some task =>
    match task.callback with
    | none => s.responded context
    | some _ => { s with running := some context }.note (.ran context)

/-- `LunaClient::_onServerStatus`, up to the hook `onServerStatusChanged`. -/
def onServerStatus (payload : JValue) : BusClient κ :=
  match payload.get "connected" with
  | some (.bool connected) =>
    { { s with isConnected := connected }.clearCalls.clearTasks with callId := 0 }.note
      (.status connected)
  | _ => s

end BusClient

/-! ## Runs -/

inductive BusEvent (κ : Type) where
  | call (method payload : String) (callback : Option κ) (subscribe : Bool)
  | cancel (id : ℕ)
  /-- The bus delivers a reply of a call. -/
  | reply (handle : ℕ)
  /-- The running callback returns. -/
  | returned
  | serverStatus (payload : JValue)

namespace BusClient

variable {κ : Type}

/-- The bus delivers for live calls alone, one reply for a call that wants one. -/
def deliver (s : BusClient κ) (handle : ℕ) : BusClient κ :=
  let entry := s.calls.cell handle
  if !entry.live then s else
  (if entry.request.multiReply then s else s.destroyCall handle).onResponse entry.context

/-- While a callback runs, the program may call the client, and the bus has to wait. -/
def step (s : BusClient κ) : BusEvent κ → BusClient κ
  | .call method payload callback subscribe => (s.call method payload callback subscribe).2
  | .cancel id => (s.cancel id).2
  | .reply handle => if s.running.isSome then s else s.deliver handle
  | .returned =>
    match s.running with
    | none => s
    | some context => { s with running := none }.responded context
  | .serverStatus payload => if s.running.isSome then s else s.onServerStatus payload

end BusClient

end UnifiedSearch
