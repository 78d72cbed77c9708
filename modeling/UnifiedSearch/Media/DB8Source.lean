import UnifiedSearch.Media.Session

/-!
# `DB8` and `DB8Source`

A search of the media database: one find for each target of each kind, and a
reply for each find some time later.
-/

namespace UnifiedSearch

open Lib

/-! ## `DB8` -/

namespace DB8

/-- Where the queries for a service belong. -/
def address (service : String) : String := "luna://" ++ service ++ "/find"

def findPayload (kind key value : String) : JValue :=
  let «where» := (((JValue.object.put "prop" (.str key)).put "op" (.str "%")).put
    "val" (.str value)).put "collate" (.str "primary")
  JValue.object.put "query"
    ((JValue.object.put "from" (.str kind)).put "where" (JValue.array.append «where»))

/-- The results of a reply; `none` where the callback is not called. -/
def results (responsePayload : JValue) : Option (List JValue) :=
  match responsePayload.get "returnValue", responsePayload.index "results" with
  | some (.bool true), .arr results => some results
  | _, _ => none

end DB8

namespace Session

variable (env : Env) (w : Service) (m : Session)

/-- The body of `DB8::find`; `p` is its parameter `callback`. -/
def issue (db kind key value : String) (callback : DatabaseCB) (p : ℕ) : Bool × Session :=
  if !(m.clients db).isConnected then (false, m) else
  let method := m.method.getD (DB8.address db)
  let payload := env.stringify (DB8.findPayload kind key value)
  let (id, client) := (m.clients db).call method payload { callback := p }
  let m := { m with method := some method, clients := Function.update m.clients db client }
  (true, m.emit (.issued (db, id) callback method payload))

/-- Pass a closure by value: the parameter holds what it captures. -/
def passCallback (callback : DatabaseCB) : ℕ × Session :=
  let (p, callbacks) := m.callbacks.declare callback
  (p, { m.retainTask callback.task with callbacks })

/-- The end of the parameter. -/
def dropCallback (p : ℕ) (callback : DatabaseCB) : Session :=
  { m with callbacks := m.callbacks.close p }.releaseTask w callback.task

/-- `DB8::find` -/
def find (db kind key value : String) (callback : DatabaseCB) : Bool × Session :=
  let (p, m) := m.passCallback callback
  let (ok, m) := m.issue env db kind key value callback p
  (ok, m.dropCallback w p callback)

end Session

/-! ## `DB8Source` -/

structure DB8Source where
  id : String
  db : String
  kindMap : OrdMap String JValue := .empty

namespace DB8Source

def addKind (source : DB8Source) (id : String) (kind : JValue) : Bool × DB8Source :=
  if (source.kindMap.find id).isSome then (false, source) else
  if (kind.get "kind").isNone || (kind.get "targets").isNone then (false, source) else
  (true, { source with kindMap := source.kindMap.insert id kind })

/-- The item of a record. -/
def item (callback : DatabaseCB) (result : JValue) : SearchItem :=
  let file := (result.index "file_path").asString
  let title := (result.index "title").asString
  let display := JValue.object.put "title" (.str title)
  let display := match result.get "artist" with
    | some artist => display.put "artist" artist
    | none => display
  let display := match result.get "thumbnail" with
    | some thumbnail => display.put "icon" thumbnail
    | none => display
  if callback.extraWants.isArray && callback.extraWants.items.length > 0 then
    let extra := callback.extraWants.items.foldl
      (fun extra wantObj => extra.put wantObj.asString (result.index wantObj.asString)) .object
    { category := callback.category, key := file, value := title, display, extra }
  else { category := callback.category, key := file, value := title, display }

end DB8Source

namespace Session

variable (env : Env) (w : Service) (m : Session)

/-- The call of the closure of `DB8Source::search`. -/
def callDatabaseCB (callback : DatabaseCB) (results : List JValue) : Session :=
  { m with tasks := m.tasks.modify callback.task fun c =>
      { c with value := { c.value with
          items := c.value.items ++ results.map (DB8Source.item callback) } } }

/-- The call of the closure of `DB8::find`. -/
def callResponseCB (callback : ResponseCB) (responsePayload : JValue) : Session :=
  match DB8.results responsePayload with
  | none => m
  | some results =>
    match m.callbacks.read callback.callback with
    | some callback => m.callDatabaseCB callback results
    | none => m.emit .undefined

/-- `LunaClient::_onResponse`, with the context of a call and its reply. -/
def onResponse (reply : (String × ℕ) × JValue) : Session :=
  if m.halted then m else
  let ((db, id), payload) := reply
  match (m.clients db).taskMap.find id with
  | none => m
  | some task =>
    let m := (m.emit (.answered (db, id) payload)).callResponseCB task.callback payload
    if m.halted then m else
    { m with clients := Function.update m.clients db ((m.clients db).responded task) }

/-- A reply with results, to a find that is waited for. -/
def Awaits (reply : (String × ℕ) × JValue) : Prop :=
  ((m.clients reply.1.1).taskMap.find reply.1.2).isSome ∧ (DB8.results reply.2).isSome

instance (reply : (String × ℕ) × JValue) : Decidable (m.Awaits reply) :=
  inferInstanceAs (Decidable (_ ∧ _))

/-- One pass of the loop over the kinds. -/
def searchKind (source : DB8Source) (searchKey : String) (task : ℕ) (it : String × JValue) :
    Session :=
  let (category, kind) := it
  let kindStr := (kind.index "kind").asString
  let targetObjs := kind.index "targets"
  let extraWants := kind.index "extras"
  targetObjs.items.foldl (fun m targetObj =>
    (m.find env w source.db kindStr targetObj.asString searchKey
      { category, task, extraWants }).2) m

/-- `DB8Source::search` -/
def searchDB8 (source : DB8Source) (searchKey : String) (cb : SearchCB) : Bool × Session :=
  -- the closure is copied into the task, which the local variable holds
  let m := m.retainManager
  let (task, tasks) := m.tasks.alloc ⟨1, { id := source.id, key := searchKey, callback := cb }⟩
  let m := source.kindMap.entries.foldl
    (fun m it => m.searchKind env w source searchKey task it) { m with tasks }
  (true, m.releaseTask w task)

/-! ## `SearchManager::search` -/

variable (sources : SearchSetPtr → Option DB8Source) (searchKey : String)

/-- One pass of the loop over the search sets; `sources` are the data sources that are media
databases, the others call back before they return. -/
def searchSet (s : SearchSetPtr) : Session :=
  let (p, searchSets) := m.searchSets.declare s
  let m := { m with searchSets }
  let m :=
    if (w.set s).categories.values.any fun p => (w.category p).enabled then
      let m := m.retainManager
      let m := match sources s with
        | some source => (m.searchDB8 env w source searchKey { searchSet := p }).2
        | none => m.callSearchCB w { searchSet := p } ((w.set s).source w.db searchKey)
      m.releaseManager
    else m
  { m with searchSets := m.searchSets.close p }

/-- The session of a search whose task has been made. -/
def start (clients : String → LunaClient ResponseCB) (method : Option String) : Session :=
  { clients, method }

/-- `SearchManager::search`, whose task has been made. -/
def search : Session :=
  (w.searchSets.values.foldl (fun m s => m.searchSet env w sources searchKey s) m).releaseManager

end Session

end UnifiedSearch
