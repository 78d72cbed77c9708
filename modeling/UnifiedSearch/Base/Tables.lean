import UnifiedSearch.Lib.Table
import UnifiedSearch.Lib.Text
import UnifiedSearch.Core.JValue

/-!
# The database file and its statements

The two tables, the prepared statements by name (`statementQueries`) and what
SQLite does with each. `Db.step` is `sqlite3_step` of a writing statement found
by its name: a name that was never prepared gives a null statement, which fails
and changes nothing. `fault` says which of the writing statements of a run fail;
a statement that fails leaves the tables as they were.
-/

namespace UnifiedSearch

open Lib

/-- `#define RANK_MAX 999999` -/
def RANK_MAX : ℤ := 999999

/-- `Category(id TEXT PRIMARY KEY, name TEXT, rank INTEGER, enabled INTEGER)`; the
statements only ever write 0 or 1 to `enabled`. -/
structure CategoryRow where
  id : Text
  name : Text
  rank : ℤ
  enabled : Bool
  deriving DecidableEq

abbrev CategoryTable := Table CategoryRow.id

/-- `Items USING FTS3(category, key, text, display, extra)` -/
structure ItemRow where
  category : Text
  key : Text
  text : Text
  display : Text
  extra : Text
  deriving DecidableEq

structure Tables where
  category : CategoryTable
  items : List ItemRow

/-- The open database; `clock` counts the writing statements stepped so far. -/
structure Db extends Tables where
  clock : ℕ

/-- A value bound to a statement parameter. -/
inductive SqlValue where
  | int (n : ℤ)
  | text (t : Text)

/-- `sqlite3_bind_text` with length -1. -/
abbrev SqlValue.cstr (s : String) : SqlValue := .text (.ofCStr s)

/-- `sqlite3_bind_int` of a `bool`. -/
abbrev SqlValue.bool (b : Bool) : SqlValue := .int (if b then 1 else 0)

inductive Query where
  | itemInsert
  | itemSelect
  | cateInsert
  | cateUpdate
  | cateDelete
  | cateSelect
  | cateRank
  | cateMaxrank
  | cateChangerank

def statementQueries : List (String × Query) := [
  ("ITEM_INSERT", .itemInsert),
  ("ITEM_SELECT", .itemSelect),
  ("CATE_INSERT", .cateInsert),
  ("CATE_UPDATE", .cateUpdate),
  ("CATE_DELETE", .cateDelete),
  ("CATE_SELECT", .cateSelect),
  ("CATE_RANK", .cateRank),
  ("CATE_MAXRANK", .cateMaxrank),
  ("CATE_CHANGERANK", .cateChangerank)]

namespace CategoryTable

/-- `UPDATE Category set rank = ?, enabled = ?, name = ? where id = ?` -/
def setRow (t : CategoryTable) (rank : ℤ) (enabled : Bool) (name id : Text) : CategoryTable :=
  t.update (fun r => r.id = id) (fun r => { r with rank, enabled, name }) fun _ => rfl

/-- `UPDATE Category SET rank = rank + ? WHERE enabled = 1 AND rank >= ? AND rank <= ?` -/
def shiftRanks (t : CategoryTable) (value start stop : ℤ) : CategoryTable :=
  t.update (fun r => r.enabled && start ≤ r.rank && r.rank ≤ stop)
    (fun r => { r with rank := r.rank + value }) fun _ => rfl

/-- `SELECT max(rank) FROM Category WHERE enabled = 1`: `none` is NULL. -/
def maxRank (t : CategoryTable) : Option ℤ := ((t.rows.filter (·.enabled)).map (·.rank)).max?

end CategoryTable

/-- A writing statement with its parameters; `none` is a failed step. -/
def Query.exec : Query → List SqlValue → Tables → Option Tables
  | .itemInsert, [.text category, .text key, .text text, .text display, .text extra], t =>
    some { t with items := t.items ++ [{ category, key, text, display, extra }] }
  | .cateInsert, [.text id, .text name, .int rank], t =>
    (t.category.insert { id, name, rank, enabled := true }).map ({ t with category := · })
  | .cateUpdate, [.int rank, .int enabled, .text name, .text id], t =>
    some { t with category := t.category.setRow rank (enabled = 1) name id }
  | .cateDelete, [.text id], t => some { t with category := t.category.delete (·.id = id) }
  | .cateChangerank, [.int value, .int start, .int stop], t =>
    some { t with category := t.category.shiftRanks value start stop }
  | _, _, _ => none

namespace Db

/-- The database file of a first start. -/
def fresh : Db := ⟨⟨.empty, []⟩, 0⟩

/-- `sqlite3_step(m_statements[name])` of a writing statement: whether it gives `SQLITE_DONE`,
and the database after it. -/
def step (fault : ℕ → Bool) (db : Db) (name : String) (args : List SqlValue) : Bool × Db :=
  match statementQueries.lookup name with
  | none => (false, db)
  | some q =>
    match if fault db.clock then none else q.exec args db.toTables with
    | some t => (true, ⟨t, db.clock + 1⟩)
    | none => (false, ⟨db.toTables, db.clock + 1⟩)

/-- The rows of `m_statements[name]`, for the statements that read whole rows of `Category`. -/
def rows (db : Db) (name : String) (args : List SqlValue) : List CategoryRow :=
  match statementQueries.lookup name, args with
  | some .cateSelect, [.text id] => db.category.rows.filter fun r => r.id = id
  | some .cateRank, [] => db.category.orderBy (·.rank)
  | _, _ => []

/-- The one row of the aggregate `CATE_MAXRANK`. -/
def maxRank (db : Db) : List (Option ℤ) := [db.category.maxRank]

end Db

/-- No statement fails. -/
def noFault : ℕ → Bool := fun _ => false

/-- What can be read from the files, by their paths. -/
abbrev Files := String → Option JValue

/-- What the service takes from code outside its repository. -/
structure Env where
  /-- Whether the `n`-th writing statement of the run fails. -/
  fault : ℕ → Bool
  stringify : JValue → String
  fromString : String → JValue
  /-- `JDomParser::fromFile`: `none` is an invalid value. -/
  fromFile : Files
  /-- `text MATCH ?` of a row of `Items`: the FTS3 query may name the other columns as well. -/
  ftsMatch : ItemRow → Text → Bool
  /-- `sqlite3_exec` of a text other than the ones `readDelete` knows. -/
  execOther : String → Tables → Bool × Tables
  /-- Whether assigning to the `LS::Call` that holds the `n`-th call of the bus ends that call. -/
  assignEnds : ℕ → Bool

/-- The same environment where no statement fails. -/
def Env.healthy (env : Env) : Env := { env with fault := noFault }

/-- The same environment over other files. -/
def Env.reading (env : Env) (files : Files) : Env := { env with fromFile := files }

/-- Assigning to an `LS::Call` ends the call it held. -/
def Env.AssignEnds (env : Env) : Prop := ∀ n, env.assignEnds n = true

/-- An environment in which every statement the model knows succeeds. -/
def Env.sample : Env where
  fault := noFault
  stringify _ := ""
  fromString _ := .null
  fromFile _ := none
  ftsMatch _ _ := false
  execOther _ t := (false, t)
  assignEnds _ := true

@[simp] theorem Env.fault_healthy (env : Env) : env.healthy.fault = noFault := rfl

theorem Env.healthy_reading (env : Env) (files : Files) :
    env.healthy.reading files = (env.reading files).healthy := rfl

/-! ## Reading a delete -/

/-- What SQLite reads in the text of a delete. -/
inductive Reading where
  /-- One `DELETE FROM Items` comparing `category`, and `key` where it is given. -/
  | delete (category : String) (key : Option String)
  /-- A string literal of the first statement is not closed: a syntax error. -/
  | unclosed
  | other

def deleteHead : String := "DELETE FROM Items WHERE category = '"

def deleteKey : String := "' AND key = '"

def deleteTail : String := "';"

/-- What follows `pre` in `l`. -/
def after? (pre l : List Char) : Option (List Char) :=
  if pre.isPrefixOf l then some (l.drop pre.length) else none

/-- What follows the literal of the category: the end, or the condition on the key. -/
def readRest (category rest : List Char) : Reading :=
  if rest = [';'] then .delete (String.ofList category) none else
  match after? (deleteKey.toList.drop 1) rest with
  | none => .other
  | some q =>
    match readLiteral q with
    | none => .unclosed
    | some (key, rest) =>
      if rest = [';'] then .delete (String.ofList category) (some (String.ofList key)) else .other

def readDelete (query : String) : Reading :=
  match after? deleteHead.toList query.toList with
  | none => .other
  | some q =>
    match readLiteral q with
    | none => .unclosed
    | some (category, rest) => readRest category rest

/-- Whether a delete meets a row. -/
def ItemRow.meets (r : ItemRow) (category : String) (key : Option String) : Bool :=
  r.category.val = category && key.all (r.key.val = ·)

/-- `sqlite3_exec` of a statement text, which is read up to its first NUL. -/
def Db.exec (env : Env) (db : Db) (query : String) : Bool × Db :=
  let query := (Text.ofCStr query).val
  if env.fault db.clock then (false, ⟨db.toTables, db.clock + 1⟩) else
  match readDelete query with
  | .delete category key =>
    (true, ⟨{ db.toTables with
      items := db.items.filter fun r => !r.meets category key }, db.clock + 1⟩)
  | .unclosed => (false, ⟨db.toTables, db.clock + 1⟩)
  | .other =>
    let (ok, t) := env.execOther query db.toTables
    (ok, ⟨t, db.clock + 1⟩)

end UnifiedSearch
