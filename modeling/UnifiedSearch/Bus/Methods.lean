import UnifiedSearch.Base.SearchManager

/-!
# The methods of the Luna service

`search`, `getCategories` and `updateCategory` of the class `UnifiedSearch`:
the response to a request payload, and the state afterwards where the method
writes.
-/

namespace UnifiedSearch.Bus

open Lib

def failed (errorCode : ℚ) (errorText : String) : JValue :=
  ((JValue.object.put "errorCode" (.num errorCode)).put "errorText" (.str errorText)).put
    "returnValue" (.bool false)

/-! ## `search` -/

/-- One pass of the loop over the categories: `none` is a null intent that is followed. -/
def appendCategory (allIntents : Service.Intents) (results : JValue) (category : Category) :
    Option JValue :=
  if category.enabled then
    match allIntents.find category.id with
    | none => some results
    | some intents => do
      let intentArr ← intents.foldlM
        (fun arr intent => intent.map fun intent => arr.append intent.toJson) JValue.array
      let cateObj := (JValue.object.put "categoryId" (.str category.id)).put "items" intentArr
      return results.append cateObj
  else some results

/-- The callback given to `SearchManager::search`, as a function of the array it appends to. -/
def appendResults (db : Db) (allIntents : Service.Intents) (results : JValue) : Option JValue :=
  (Database.getCategories db).foldlM (appendCategory allIntents) results

def search (w : Service) (requestPayload : JValue) : Option JValue :=
  match JValueUtil.getString requestPayload "key" "" with
  | (false, _) => some (failed 101 "The 'key' isn't specified.")
  | (true, key) =>
    if key = "" ∨ key.utf8ByteSize < 2 then
      some (failed 102 "The 'key' is empty or too short. (needs >= 2 bytes)")
    else do
      let results ← appendResults w.db (w.search key) JValue.array
      return (JValue.object.put "results" results).put "returnValue" (.bool true)

/-! ## `getCategories` -/

def cateObj (category : Category) : JValue :=
  (JValue.object.put "id" (.str category.id)).put "name" (.str category.name)

def getCategories (w : Service) : JValue :=
  let categories := Database.getCategories w.db
  let cateEnabled := categories.filter fun category => category.enabled
  let cateDisabled := categories.filter fun category => !category.enabled
  ((JValue.object.put "enabled" (.arr (cateEnabled.map cateObj))).put
    "disabled" (.arr (cateDisabled.map cateObj))).put "returnValue" (.bool true)

/-! ## `updateCategory` -/

/-- The checks of the request: the category to write, or the response. -/
def readUpdate (requestPayload : JValue) : Except JValue Category :=
  let (retId, id) := JValueUtil.getString requestPayload "id" ""
  if !retId || id = "" then .error (failed 201 "The 'id' isn't specified.") else
  let (retEna, enabled) := JValueUtil.getBool requestPayload "enabled" true
  let (retRank, rank) := JValueUtil.getInt requestPayload "rank" RANK_MAX
  let (retName, name) := JValueUtil.getString requestPayload "name" ""
  if !retEna && !retRank then
    .error (failed 202 "Needs to add at least one of 'rank' or 'enabled'.")
  else if enabled && !retRank then
    .error (failed 203 "Needs 'rank' if its enabled.")
  else if !enabled && retRank then
    .error (failed 204 "Shouldn't insert 'rank' when its disabled.")
  else .ok { id, name := if retName then name else "", rank, enabled }

def updateCategory (env : Env) (w : Service) (requestPayload : JValue) : JValue × Service :=
  match readUpdate requestPayload with
  | .error responsePayload => (responsePayload, w)
  | .ok category =>
    match Database.updateCategory env.fault w.db category with
    | (false, db) => (failed 205 "Internal database error.", { w with db })
    | (true, db) =>
      let w := { w with db }
      -- apply enabled (For now, the rank is only for getCategories from sqlite3, directly)
      match w.findCategory category.id with
      | none => (.object, w)
      | some org =>
        (JValue.object.put "returnValue" (.bool true), w.setEnabled org category.enabled)

end UnifiedSearch.Bus
