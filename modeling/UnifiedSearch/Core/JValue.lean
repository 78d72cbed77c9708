import Mathlib.Algebra.Group.Int.Defs
import Mathlib.Data.Rat.Init

/-!
# JSON values

`JValue` and the part of its interface the service uses: `hasKey` and
`operator[]` as `get`, `put`, `append`, `items`, `asString`. The four
`JValueUtil::getValue` overloads take the output variable's value and give
back what it holds afterwards, since a failed conversion to `int` overwrites it.
-/

namespace UnifiedSearch

/-- A parsed JSON document. -/
inductive JValue where
  | null
  | bool (b : Bool)
  | num (q : ℚ)
  | str (s : String)
  | arr (items : List JValue)
  | obj (fields : List (String × JValue))

namespace JValue

def putField (key : String) (v : JValue) : List (String × JValue) → List (String × JValue)
  | [] => [(key, v)]
  | (k, w) :: fs => if k = key then (k, v) :: fs else (k, w) :: putField key v fs

/-- `Object()` -/
def object : JValue := obj []

/-- `Array()` -/
def array : JValue := arr []

/-- `json[key]`, where `hasKey(key)`. -/
def get : JValue → String → Option JValue
  | obj fs, key => fs.lookup key
  | _, _ => none

/-- `json[key]`: null where there is no such key. -/
def index (json : JValue) (key : String) : JValue := (json.get key).getD null

def put : JValue → String → JValue → JValue
  | obj fs, key, v => obj (putField key v fs)
  | json, _, _ => json

def append : JValue → JValue → JValue
  | arr l, v => arr (l ++ [v])
  | json, _ => json

def items : JValue → List JValue
  | arr l => l
  | _ => []

def children : JValue → List (String × JValue)
  | obj fs => fs
  | _ => []

/-- `asString()`: empty where the value is not a string. -/
def asString : JValue → String
  | str s => s
  | _ => ""

def isNull : JValue → Bool
  | null => true
  | _ => false

def isArray : JValue → Bool
  | arr _ => true
  | _ => false

def isObject : JValue → Bool
  | obj _ => true
  | _ => false

/-- `asNumber<int>`: `none` where the conversion is not `CONV_OK`. -/
def toInt (q : ℚ) : Option ℤ :=
  if q.den = 1 ∧ -2 ^ 31 ≤ q.num ∧ q.num < 2 ^ 31 then some q.num else none

theorem items_of_not_isArray {json : JValue} (h : ¬json.isArray = true) : json.items = [] := by
  cases json with
  | arr _ => exact absurd rfl h
  | _ => rfl

theorem lookup_putField (key x : String) (v : JValue) (fs : List (String × JValue)) :
    (putField key v fs).lookup x = if x = key then some v else fs.lookup x := by
  induction fs with
  | nil =>
    by_cases hx : x = key
    · subst hx; simp [putField]
    · simp [putField, List.lookup_cons, beq_eq_false_iff_ne.2 hx, hx]
  | cons e fs ih =>
    obtain ⟨k, w⟩ := e
    unfold putField
    by_cases hk : k = key
    · subst hk
      rw [if_pos rfl]
      by_cases hx : x = k
      · subst hx; simp
      · simp [List.lookup_cons, beq_eq_false_iff_ne.2 hx, hx]
    · rw [if_neg hk]
      by_cases hx : x = k
      · subst hx; simp [hk]
      · simp only [List.lookup_cons, beq_eq_false_iff_ne.2 hx, ih]

theorem get_put {json : JValue} (h : json.isObject = true) (key x : String) (v : JValue) :
    (json.put key v).get x = if x = key then some v else json.get x := by
  cases json with
  | obj fs => exact lookup_putField key x v fs
  | _ => cases h

theorem isObject_put {json : JValue} (key : String) (v : JValue) :
    (json.put key v).isObject = json.isObject := by
  cases json <;> rfl

theorem putField_putField (key : String) (v w : JValue) (fs : List (String × JValue)) :
    putField key w (putField key v fs) = putField key w fs := by
  induction fs with
  | nil => simp [putField]
  | cons e fs ih =>
    obtain ⟨k, u⟩ := e
    by_cases hk : k = key
    · simp [putField, hk]
    · simp [putField, hk, ih]

theorem put_put (json : JValue) (key : String) (v w : JValue) :
    (json.put key v).put key w = json.put key w := by
  cases json with
  | obj fs => exact congrArg obj (putField_putField key v w fs)
  | _ => rfl

end JValue

namespace JValueUtil

/-- `getValue(json, key, JValue&)` -/
def getJValue (json : JValue) (key : String) (value : JValue) : Bool × JValue :=
  match json.get key with
  | some v => (true, v)
  | none => (false, value)

theorem getJValue_eq (json : JValue) (key : String) :
    getJValue json key .null = ((json.get key).isSome, json.index key) := by
  unfold getJValue JValue.index
  cases json.get key <;> rfl

/-- `getValue(json, key, string&)` -/
def getString (json : JValue) (key : String) (value : String) : Bool × String :=
  match json.get key with
  | some (.str s) => (true, s)
  | _ => (false, value)

/-- `getValue(json, firstKey, …, key, string&)`: through objects, past empty keys. -/
def getStringIn (json : JValue) (path : List String) (key : String) (value : String) :
    Bool × String :=
  match path with
  | [] => getString json key value
  | k :: path =>
    if k = "" then getStringIn json path key value else
    match json.get k with
    | some v => if v.isObject then getStringIn v path key value else (false, value)
    | none => (false, value)

/-- `getValue(json, key, int&)`: a number that does not fit leaves `0` behind. -/
def getInt (json : JValue) (key : String) (value : ℤ) : Bool × ℤ :=
  match json.get key with
  | some (.num q) =>
    match JValue.toInt q with
    | some n => (true, n)
    | none => (false, 0)
  | _ => (false, value)

/-- `getValue(json, key, bool&)` -/
def getBool (json : JValue) (key : String) (value : Bool) : Bool × Bool :=
  match json.get key with
  | some (.bool b) => (true, b)
  | _ => (false, value)

end JValueUtil

end UnifiedSearch
