import UnifiedSearch.Lib.Lifetime
import UnifiedSearch.Base.SearchManager
import UnifiedSearch.Core.LunaClient

/-!
# One search and its replies

The objects one `SearchManager::search` makes, with their lifetimes: the search
tasks are counted objects, the parameters `callback` of `DB8::find` and the
loop variables `searchSet` are scoped. A closure is the record of what it
captures: a pointer where it captures by value, the number of a variable where
it captures by reference. `trace` is what happens, in order.
-/

namespace UnifiedSearch

open Lib Service

/-- The closure `SearchManager::search` gives to a source; it captures its own task by value
and the loop variable `searchSet` by reference. -/
structure SearchCB where
  searchSet : ℕ

/-- `DB8Source::SearchTask` -/
structure SearchTask where
  id : String
  key : String
  callback : SearchCB
  items : List SearchItem := []

instance : Inhabited SearchTask := ⟨{ id := "", key := "", callback := ⟨0⟩ }⟩

/-- The closure `DB8Source::search` gives to `find`; it captures all of these by value. -/
structure DatabaseCB where
  category : String
  task : ℕ
  extraWants : JValue

/-- The closure `DB8::find` gives to `call`; it captures the parameter `callback` by reference. -/
structure ResponseCB where
  callback : ℕ

inductive Event where
  /-- A find is sent, for `callback`. -/
  | issued (context : String × ℕ) (callback : DatabaseCB) (method payload : String)
  /-- The reply to it is handled. -/
  | answered (context : String × ℕ) (payload : JValue)
  /-- A search task of a source ends and calls back. -/
  | called (task : ℕ) (items : List SearchItem)
  /-- The items are filed by the categories of a set: the task of the manager before and after. -/
  | filed (searchSet : SearchSetPtr) (intents intents' : Intents)
  /-- The task of the manager ends and calls back. -/
  | finished (intents : Intents)
  /-- A variable is read after its scope. -/
  | undefined

def Event.isUndefined : Event → Bool
  | .undefined => true
  | .issued .. | .answered .. | .called .. | .filed .. | .finished _ => false

structure Session where
  /-- `DB8::getDB`: the client of each service. -/
  clients : String → LunaClient ResponseCB
  /-- The static variable of `DB8::find`. -/
  method : Option String
  callbacks : Scope DatabaseCB := .empty
  searchSets : Scope SearchSetPtr := .empty
  tasks : Heap (Counted SearchTask) := .empty
  /-- The task of `SearchManager::search`, first held by its local variable. -/
  manager : Counted Intents := ⟨1, .empty⟩
  trace : List Event := []

namespace Session

variable (w : Service) (m : Session)

def emit (event : Event) : Session := { m with trace := m.trace ++ [event] }

/-- A variable has been read after its scope: nothing is said about the process from there on. -/
def halted : Bool := m.trace.any Event.isUndefined

def retainManager : Session := { m with manager := m.manager.retain }

/-- Drop a pointer to the task of the manager; its destructor calls back. -/
def releaseManager : Session :=
  let m' := { m with manager := m.manager.release }
  if m.manager.holders = 1 then m'.emit (.finished m.manager.value) else m'

/-- The call of the closure of `SearchManager::search`. -/
def callSearchCB (callback : SearchCB) (items : List SearchItem) : Session :=
  match m.searchSets.read callback.searchSet with
  | none => m.emit .undefined
  | some s =>
    let intents := items.foldl (w.fileItem s) m.manager.value
    { m with manager := { m.manager with value := intents } }.emit
      (.filed s m.manager.value intents)

def retainTask (task : ℕ) : Session := { m with tasks := m.tasks.modify task Counted.retain }

/-- Drop a pointer to a search task; its destructor calls back, and then its closure goes. -/
def releaseTask (task : ℕ) : Session :=
  let last := (m.tasks.cell task).holders = 1
  let ended := (m.tasks.cell task).value
  let m := { m with tasks := m.tasks.modify task Counted.release }
  if last then
    ((m.emit (.called task ended.items)).callSearchCB w ended.callback ended.items).releaseManager
  else m

end Session

end UnifiedSearch
