import UnifiedSearch.Base.Tables
import UnifiedSearch.Core.Category

/-!
# `Database`

The methods of `Database`, as the code computes them: each gives its result and
the database after it. `adjustOrCreateCategory` also gives the category object
it was handed, which it writes to. Log lines are left out where all they do is log;
the one of a failed `updateRanks` is undefined behaviour, which
`updateCategory?` has and `updateCategory` goes on from.
-/

namespace UnifiedSearch.Database

open Lib

def adjustOrCreateCategory (fault : ℕ → Bool) (db : Db) (cate : Category) : Bool × Db × Category :=
  let id := cate.id
  let name := cate.name
  match db.rows "CATE_SELECT" [.cstr id] with
  | row :: _ =>
    (true, db, { cate with name := row.name.val, rank := row.rank, enabled := row.enabled })
  | [] =>
    let rank := match db.maxRank with
      | column :: _ => column.getD 0 + 1
      | [] => RANK_MAX
    let cate := { cate with rank }
    match db.step fault "CATE_INSERT" [.cstr id, .cstr name, .int rank] with
    | (true, db) => (true, db, cate)
    | (false, db) => (false, db, cate)

def normalQuery (category key : String) : String :=
  deleteHead ++ category ++ (if key ≠ "" then deleteKey ++ key else "") ++ deleteTail

def removeItem (env : Env) (db : Db) (category : String) (key : String := "") : Bool × Db :=
  db.exec env (normalQuery category key)

def removeCategory (env : Env) (db : Db) (cateId : String) : Bool × Db :=
  if cateId = "" then (false, db) else
  match db.step env.fault "CATE_REMOVE" [.cstr cateId] with
  | (false, db) => (false, db)
  | (true, db) =>
    let (_, db) := removeItem env db cateId
    (true, db)

/-- The statement of `updateRanks`; what its log line does is in `updateRanks?`. -/
def updateRanks (fault : ℕ → Bool) (db : Db) (value start stop : ℤ) : Bool × Db :=
  db.step fault "CATE_CHANGERANK" [.int value, .int start, .int stop]

/-- `updateRanks` with its log lines. `none` is undefined behaviour: the log line of a failure
formats the `int` it is given as `start` with `%s`. -/
def updateRanks? (fault : ℕ → Bool) (db : Db) (value start stop : ℤ) : Option (Bool × Db) :=
  match updateRanks fault db value start stop with
  | (false, _) => none
  | (true, db) => some (true, db)

/-- The variables the loop of `updateCategory` writes. -/
structure Scan where
  name : String
  oldRank : ℤ
  oldEnabled : Bool
  countEnabledCate : ℤ

/-- One pass of the loop over `CATE_RANK`. -/
def scanRow (cate : Category) (s : Scan) (row : CategoryRow) : Scan :=
  let s := if row.enabled then { s with countEnabledCate := s.countEnabledCate + 1 } else s
  if cate.id = row.id.val then
    let s := { s with oldRank := row.rank, oldEnabled := row.enabled }
    let s := if s.name = "" then { s with name := row.name.val } else s
    -- if disable => enable case, it should be cared enabled one for count
    if !s.oldEnabled && cate.enabled then { s with countEnabledCate := s.countEnabledCate + 1 }
    else s
  else s

/-- The body of `updateCategory`, over what a call of `updateRanks` does. -/
def updateCategoryM {m : Type → Type} [Monad m] (updateRanks : Db → ℤ → ℤ → ℤ → m (Bool × Db))
    (fault : ℕ → Bool) (db : Db) (cate : Category) : m (Bool × Db) :=
  let s := (db.rows "CATE_RANK" []).foldl (scanRow cate)
    { name := cate.name, oldRank := -1, oldEnabled := false, countEnabledCate := 0 }
  if s.oldRank < 0 then pure (false, db) else do
  -- re-range the rank (correct user mistake)
  let rank := min (max cate.rank 1) s.countEnabledCate
  let enabled := cate.enabled
  let (rank, db) ←
    if s.oldEnabled ≠ enabled ∨ (enabled = true ∧ s.oldRank ≠ cate.rank) then
      if enabled then
        if s.oldRank < rank then (rank, ·.2) <$> updateRanks db (-1) (s.oldRank + 1) rank
        else (rank, ·.2) <$> updateRanks db 1 rank (s.oldRank - 1)
      else (RANK_MAX, ·.2) <$> updateRanks db (-1) s.oldRank RANK_MAX
    else pure (rank, db)
  return db.step fault "CATE_UPDATE" [.int rank, .bool enabled, .cstr s.name, .cstr cate.id]

/-- `updateCategory` where the log lines do nothing but log: a run goes on after a shift that
fails. -/
def updateCategory (fault : ℕ → Bool) (db : Db) (cate : Category) : Bool × Db :=
  (updateCategoryM (fun db value start stop => pure (updateRanks fault db value start stop))
    fault db cate : Id (Bool × Db)).run

/-- `updateCategory` with the log line of `updateRanks`: `none` is undefined behaviour. -/
def updateCategory? (fault : ℕ → Bool) (db : Db) (cate : Category) : Option (Bool × Db) :=
  updateCategoryM (updateRanks? fault) fault db cate

def getCategories (db : Db) : List Category :=
  (db.rows "CATE_RANK" []).map fun row =>
    { id := row.id.val, name := row.name.val, rank := row.rank, enabled := row.enabled }

def insertItem (env : Env) (db : Db) (item : SearchItem) : Bool × Db :=
  let display := env.stringify item.display
  let extra := env.stringify item.extra
  db.step env.fault "ITEM_INSERT"
    [.cstr item.category, .cstr item.key, .cstr item.value, .cstr display, .cstr extra]

/-- The item a row of `ITEM_SELECT` is read back as. -/
def readItem (env : Env) (row : ItemRow) : SearchItem :=
  let dispObj := env.fromString row.display.val
  if row.extra.val.utf8ByteSize ≥ 2 then
    { category := row.category.val, key := row.key.val, value := row.text.val,
      display := dispObj, extra := env.fromString row.extra.val }
  else
    { category := row.category.val, key := row.key.val, value := row.text.val, display := dispObj }

/-- `Database::search`: what the callback is called with, once, before it returns. -/
def search (env : Env) (db : Db) (searchKey : String) : List SearchItem :=
  let key := searchKey ++ "*"
  (db.items.filter fun row => env.ftsMatch row (.ofCStr key)).map (readItem env)

end UnifiedSearch.Database
