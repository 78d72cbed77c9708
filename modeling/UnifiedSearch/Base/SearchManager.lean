import UnifiedSearch.Lib.Heap
import UnifiedSearch.Lib.OrdMap
import UnifiedSearch.Base.Database

/-!
# `SearchSet` and `SearchManager`

Categories and search sets are shared objects: an attached set is reached by
the manager and by whoever made it, a category by every set it was added to,
and a write through one pointer is seen through the others. `Service` is all
the state there is; the methods give their result and the state after them.
-/

namespace UnifiedSearch

open Lib Database

instance : Inhabited Category := ⟨{ id := "" }⟩

abbrev CategoryPtr := ℕ

abbrev SearchSetPtr := ℕ

/-- A search set; `source` is what its data source calls back with, given the database and
the key, when it calls back once before its `search` returns. -/
structure SearchSet where
  id : String
  source : Db → String → List SearchItem
  categories : OrdMap String CategoryPtr := .empty
  /-- Whether `m_client` is set. -/
  client : Bool := false

instance : Inhabited SearchSet := ⟨{ id := "", source := fun _ _ => [] }⟩

/-- The state of the service. -/
structure Service where
  db : Db
  categories : Heap Category
  sets : Heap SearchSet
  /-- `SearchManager::m_searchSets` -/
  searchSets : OrdMap String SearchSetPtr
  /-- `SettingService::language()` -/
  language : String

namespace Service

/-- The service over an open database, before anything is made. -/
def start (db : Db) (language : String) : Service :=
  { db, categories := .empty, sets := .empty, searchSets := .empty, language }

variable (env : Env) (w : Service)

def category (p : CategoryPtr) : Category := w.categories.cell p

def set (s : SearchSetPtr) : SearchSet := w.sets.cell s

/-- Write a search set. -/
def modifySet (s : SearchSetPtr) (f : SearchSet → SearchSet) : Service :=
  { w with sets := w.sets.modify s f }

/-- Write a category object. -/
def write (p : CategoryPtr) (cate : Category) : Service :=
  { w with categories := w.categories.modify p fun _ => cate }

/-- `Category::setEnabled` -/
def setEnabled (p : CategoryPtr) (enabled : Bool) : Service :=
  w.write p { w.category p with enabled }

/-- `Category::setCategoryName` -/
def setCategoryName (p : CategoryPtr) (name : String) : Service :=
  w.write p { w.category p with name }

/-- `Database::adjustOrCreateCategory` on a shared category. -/
def adjustOrCreateCategory (p : CategoryPtr) : Service :=
  let (_, db, cate) := Database.adjustOrCreateCategory env.fault w.db (w.category p)
  { w.write p cate with db }

theorem category_write {w : Service} {p q : CategoryPtr} {cate : Category} :
    (w.write p cate).category q = if q = p then cate else w.category q := rfl

theorem set_modifySet {w : Service} {s t : SearchSetPtr} {f : SearchSet → SearchSet} :
    (w.modifySet s f).set t = if t = s then f (w.set s) else w.set t := rfl

/-! ## `SearchManager`: callbacks -/

def categoryAdded (category : CategoryPtr) : Service := w.adjustOrCreateCategory env category

def categoryRemoved (cateId : String) : Service :=
  { w with db := (removeCategory env w.db cateId).2 }

/-! ## `SearchSet` -/

/-- `SearchSet::addCategory` -/
def addCategory (s : SearchSetPtr) (category : CategoryPtr) : Bool × Service :=
  let id := (w.category category).id
  if ((w.set s).categories.find id).isSome then (false, w) else
  let w := w.modifySet s fun set => { set with categories := set.categories.insert id category }
  (true, if (w.set s).client then w.categoryAdded env category else w)

/-- `SearchSet::removeCategory` -/
def removeCategory (s : SearchSetPtr) (id : String) : Bool × Service :=
  if ((w.set s).categories.find id).isNone then (false, w) else
  let w := w.modifySet s fun set => { set with categories := set.categories.erase id }
  (true, if (w.set s).client then w.categoryRemoved env id else w)

/-- `SearchSet::findCategory` -/
def findCategoryIn (s : SearchSetPtr) (id : String) : Option CategoryPtr :=
  (w.set s).categories.find id

/-! ## `SearchManager` -/

/-- The two writes of `addSearchSet` that attach the set. -/
def attach (s : SearchSetPtr) : Service :=
  { w.modifySet s fun set => { set with client := true } with
    searchSets := w.searchSets.insert (w.set s).id s }

theorem set_attach {w : Service} {s t : SearchSetPtr} :
    (w.attach s).set t = if t = s then { w.set s with client := true } else w.set t := rfl

/-- `SearchManager::addSearchSet` -/
def addSearchSet (s : SearchSetPtr) : Bool × Service :=
  if (w.searchSets.find (w.set s).id).isSome then (false, w) else
  let w := w.attach s
  (true, (w.set s).categories.values.foldl (adjustOrCreateCategory env) w)

/-- `SearchManager::findCategory` -/
def findCategory (id : String) : Option CategoryPtr :=
  w.searchSets.values.findSome? fun s => w.findCategoryIn s id

/-- `SearchTask::m_intents`; a null pointer is `none`. -/
abbrev Intents := OrdMap String (List (Option Intent))

/-- The body of the loop over the items a source calls back with. -/
def fileItem (s : SearchSetPtr) (task : Intents) (item : SearchItem) : Intents :=
  match w.findCategoryIn s item.category with
  | none => task
  | some category =>
    if (w.category category).enabled then
      let intent := (w.category category).intent w.language item
      task.push item.category intent
    else task

/-- `SearchManager::search` over sources that call back once before they return: what the task
calls back with when it is released. -/
def search (searchKey : String) : Intents :=
  w.searchSets.values.foldl
    (fun task s =>
      -- all its categories are disabled: don't search the source
      if (w.set s).categories.values.any fun p => (w.category p).enabled then
        ((w.set s).source w.db searchKey).foldl (w.fileItem s) task
      else task)
    .empty

end Service

end UnifiedSearch
