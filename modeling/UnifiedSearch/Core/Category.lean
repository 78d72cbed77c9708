import UnifiedSearch.Core.JValue

/-!
# Search items, intents and categories

A `Category` is the object behind a `CategoryPtr`; its virtual method
`generateIntent` is a field. The method may read the current UI language of
`SettingService` and the name of the object, its first two arguments.
-/

namespace UnifiedSearch

structure SearchItem where
  category : String
  key : String
  value : String
  display : JValue
  extra : JValue := .null

structure Intent where
  category : String
  base : JValue := .object
  action : String := ""
  uri : String := ""
  display : JValue := .null
  extra : JValue := .null

/-- `Intent::toJson` -/
def Intent.toJson (i : Intent) : JValue :=
  let intent := i.base
  let intent := if i.action ≠ "" then intent.put "action" (.str i.action) else intent
  let intent := if i.uri ≠ "" then intent.put "uri" (.str i.uri) else intent
  let intent := if i.extra.isNull then intent else intent.put "extra" i.extra
  (JValue.object.put "intent" intent).put "display" i.display

/-- A category object; `Category::Category` sets rank 0 and enabled. -/
structure Category where
  id : String
  name : String := ""
  rank : ℤ := 0
  enabled : Bool := true
  /-- The base class gives a null pointer. -/
  generateIntent : String → String → SearchItem → Option Intent := fun _ _ _ => none

/-- The call `generateIntent(item)`. -/
def Category.intent (cate : Category) (language : String) (item : SearchItem) : Option Intent :=
  cate.generateIntent language cate.name item

end UnifiedSearch
