import Mathlib.Logic.Function.Basic
import UnifiedSearch.Core.JValue
import UnifiedSearch.Lib.OrdMap

/-!
# `LunaClient`

The requests of one client of the bus. A callback is a value of type `κ`, the
closure that was passed; the bus answers a call with the context it was given,
which is the task stored under the call's id.
-/

namespace UnifiedSearch

open Lib

/-- `LunaClient::LunaReqTask` -/
structure LunaReqTask (κ : Type) where
  id : ℕ
  callback : κ
  isSubscribe : Bool

/-- What the bus is given for a call. -/
structure BusCall where
  method : String
  payload : String
  multiReply : Bool

structure LunaClient (κ : Type) where
  isConnected : Bool
  callId : ℕ := 0
  callMap : OrdMap ℕ BusCall := .empty
  taskMap : OrdMap ℕ (LunaReqTask κ) := .empty

namespace LunaClient

variable {κ : Type}

/-- `LunaClient::call` -/
def call (client : LunaClient κ) (method payload : String) (callback : κ)
    (subscribe : Bool := false) : ℕ × LunaClient κ :=
  if !client.isConnected then (0, client) else
  let id := (client.callId + 1) % 2 ^ 64
  let task := { id, callback, isSubscribe := subscribe }
  let busCall := { method, payload, multiReply := subscribe }
  (id, { client with
    callId := id
    callMap := client.callMap.insert id busCall
    taskMap := client.taskMap.insert id task })

/-- What `LunaClient::_onResponse` does after the callback. -/
def responded (client : LunaClient κ) (task : LunaReqTask κ) : LunaClient κ :=
  if !task.isSubscribe then
    { client with
      callMap := client.callMap.erase task.id
      taskMap := client.taskMap.erase task.id }
  else client

theorem isConnected_call (client : LunaClient κ) (method payload : String) (callback : κ)
    (subscribe : Bool) :
    (client.call method payload callback subscribe).2.isConnected = client.isConnected := by
  unfold call
  split_ifs <;> rfl

end LunaClient

end UnifiedSearch
