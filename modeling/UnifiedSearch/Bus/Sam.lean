import UnifiedSearch.Clients.AppContents

/-!
# `SAM`

The client of the application manager: what it does with the messages of its
`listApps` subscription.
-/

namespace UnifiedSearch

open Lib

/-- `m_applications` and `m_searchSet`. -/
structure Sam where
  applications : CategoryPtr
  searchSet : SearchSetPtr

namespace Sam

/-- `SAM::onInitialzed` -/
def onInitialized (env : Env) (w : Service) : Sam × Service :=
  let w := { w with db := (Applications.removeFromDatabase env w.db).2 }
  let (applications, categories) := w.categories.alloc {
    id := Applications.categoryId
    name := "Applications"
    generateIntent := Applications.generateIntent }
  let (searchSet, sets) := w.sets.alloc { id := "SAM", source := Database.search env }
  let w := { w with categories, sets }
  let (_, w) := w.addCategory env searchSet applications
  let (_, w) := w.addSearchSet env searchSet
  ({ applications, searchSet }, w)

/-- `SAM::addAppContents` -/
def addAppContents (env : Env) (sam : Sam) (w : Service) (app : JValue) : Bool × Service :=
  let (hasIndex, searchIndex) := JValueUtil.getString app "searchIndex" ""
  if hasIndex ∧ searchIndex ≠ "" then
    let (_, type) := JValueUtil.getString app "type" ""
    let (_, id) := JValueUtil.getString app "id" ""
    let (_, title) := JValueUtil.getString app "title" ""
    if type ≠ "web" then (false, w) else
    let (appContent, w) := AppContents.make env w id title app
    (true, (w.addCategory env sam.searchSet appContent).2)
  else (false, w)

/-- One pass of the loop over a full list. -/
def listApp (env : Env) (sam : Sam) (w : Service) (app : JValue) : Service :=
  let w := { w with db := (Applications.addToDatabase env w.db app).2 }
  let (_, id) := JValueUtil.getString app "id" ""
  let (_, title) := JValueUtil.getString app "title" ""
  match w.findCategoryIn sam.searchSet id with
  | some category =>
    let w := w.setCategoryName category title
    { w with db := (Database.updateCategory env.fault w.db (w.category category)).2 }
  | none => (addAppContents env sam w app).2

/-- The apps of a full list: the payload has an `apps` array. -/
def fullList (payload : JValue) : Option (List JValue) :=
  match JValueUtil.getJValue payload "apps" .object with
  | (true, .arr apps) => some apps
  | _ => none

/-- The kind and the app of a change message. -/
def changeOf (payload : JValue) : Option (String × JValue) :=
  match JValueUtil.getString payload "change" "", JValueUtil.getJValue payload "app" .object with
  | (true, change), (true, app) => some (change, app)
  | _, _ => none

/-- `SAM::onListApps`; a payload that is neither does nothing. -/
def onListApps (env : Env) (sam : Sam) (w : Service) (payload : JValue) : Service :=
  match fullList payload with
  | some apps =>
    -- when app list comes, remove first
    let w := { w with db := (Applications.removeFromDatabase env w.db).2 }
    apps.foldl (listApp env sam) w
  | none =>
    match changeOf payload with
    | some (change, app) =>
      if change = "added" then
        let w := { w with db := (Applications.addToDatabase env w.db app).2 }
        (addAppContents env sam w app).2
      else if change = "removed" then
        let (_, id) := JValueUtil.getString app "id" ""
        let w := { w with db := (Applications.removeFromDatabase env w.db id).2 }
        (w.removeCategory env sam.searchSet id).2
      else w
    | none => w

end Sam

end UnifiedSearch
