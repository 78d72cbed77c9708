import UnifiedSearch.Base.Items

/-!
# `Applications`

The category `sam.apps`: one item for each visible application.
-/

namespace UnifiedSearch

open Lib

/-- `File::join`; on an empty `a`, `a.back()` is taken not to be a slash. -/
def File.join (a b : String) : String :=
  if a.toList.getLast? = some '/' then
    if b.toList.head? = some '/' then a ++ (b.drop 1).toString else a ++ b
  else if b.toList.head? = some '/' then a ++ b
  else a ++ "/" ++ b

namespace Applications

def categoryId : String := "sam.apps"

def generateIntent (_language _name : String) (item : SearchItem) : Option Intent :=
  some {
    category := categoryId
    base := JValue.object.put "name" (.str item.key)
    display := item.display }

def removeFromDatabase (env : Env) (db : Db) (id : String := "") : Bool × Db :=
  Database.removeItem env db categoryId id

/-- Whether the app is taken: only `visible: false` is ignored. -/
def visible (app : JValue) : Bool :=
  let (known, visible) := JValueUtil.getBool app "visible" false
  !(known && !visible)

def item (app : JValue) : SearchItem :=
  let (_, id) := JValueUtil.getString app "id" ""
  let (_, title) := JValueUtil.getString app "title" ""
  let (_, folderPath) := JValueUtil.getString app "folderPath" ""
  let (_, icon) := JValueUtil.getString app "icon" ""
  let display := (JValue.object.put "title" (.str title)).put
    "icon" (.str (File.join folderPath icon))
  { category := categoryId, key := id, value := title, display }

def addToDatabase (env : Env) (db : Db) (app : JValue) : Bool × Db :=
  if !visible app then (false, db) else Database.insertItem env db (item app)

end Applications

end UnifiedSearch
