import Mathlib.Data.List.Infix
import UnifiedSearch.Base.SearchManager
import UnifiedSearch.Clients.Applications

/-!
# `AppContents`

The category of one web application: its items are read from the index file
the application names, and their texts from its label files.
-/

namespace UnifiedSearch.AppContents

open Lib

/-- Label key, language, value. -/
abbrev Labels := OrdMap String (OrdMap String String)

def fromFile (env : Env) (path : String) : Option JValue := env.fromFile (Text.ofCStr path).val

/-- One label of a label file. -/
def addLabel (language : String) (allLabels : Labels) (label : String × JValue) : Labels :=
  allLabels.alter label.1 fun langs => (langs.getD .empty).set language label.2.asString

/-- One entry of the manifest. -/
def addLabelFile (env : Env) (resourceFolder : String) (allLabels : Labels)
    (labelFileObj : JValue) : Labels :=
  let labelFile := labelFileObj.asString
  if labelFile = "" ∨ ¬"strings".toList <:+: labelFile.toList then allLabels else
  let language :=
    if '/' ∈ labelFile.toList then String.ofList (labelFile.toList.takeWhile (· ≠ '/')) else "en"
  match fromFile env (File.join resourceFolder labelFile) with
  | some labels =>
    if labels.isObject then labels.children.foldl (addLabel language) allLabels else allLabels
  | none => allLabels

def getLabels (env : Env) (appInfo : JValue) : Labels :=
  let (_, folderPath) := JValueUtil.getString appInfo "folderPath" ""
  let resourceFolder := File.join folderPath "resources"
  match fromFile env (File.join resourceFolder "ilibmanifest.json") with
  | none => .empty
  | some manifest =>
    let (ok, labelFiles) := JValueUtil.getJValue manifest "files" .null
    if !ok || !labelFiles.isArray then .empty
    else labelFiles.items.foldl (addLabelFile env resourceFolder) .empty

/-- The variables the loop over the labels of an item writes. -/
structure Collected where
  titles : JValue := .null
  display : JValue
  searchValue : String := ""

/-- One label key of an item. -/
def collectLabel (allLabels : Labels) (s : Collected) (labelKeyObj : JValue) : Collected :=
  let labelKey := labelKeyObj.asString
  match allLabels.find labelKey with
  | none => s
  | some labelLangs =>
    -- If there is no explicit 'en' value, use labelKey as 'en' value.
    let labelLangs := labelLangs.insert "en" labelKey
    let s := if s.titles.isNull then
        let titles := labelLangs.entries.foldl (fun t label => t.put label.1 (.str label.2)) .object
        { s with titles, display := s.display.put "title" titles }
      else s
    labelLangs.values.foldl
      (fun s value =>
        let searchValue := if s.searchValue ≠ "" then s.searchValue ++ ", " else s.searchValue
        { s with searchValue := searchValue ++ value }) s

/-- One item of the index file; the display object is shared by all of them. -/
def indexItem (env : Env) (id categoryId : String) (allLabels : Labels) (s : JValue × Db)
    (item : JValue) : JValue × Db :=
  let (display, db) := s
  let (hasPath, path) := JValueUtil.getString item "path" ""
  let (hasExtra, extra) := JValueUtil.getJValue item "extra" .null
  if !hasPath && !hasExtra then (display, db) else
  let (hasLabels, labelKeys) := JValueUtil.getJValue item "labels" .null
  if !hasLabels || !labelKeys.isArray then (display, db) else
  let c := labelKeys.items.foldl (collectLabel allLabels) { display }
  if c.searchValue = "" then (c.display, db) else
  let key := "app://" ++ id ++ path
  (c.display, (Database.insertItem env db
    { category := categoryId, key, value := c.searchValue, display := c.display, extra }).2)

def createIndexes (env : Env) (db : Db) (categoryId : String) (appInfo : JValue) : Bool × Db :=
  let (_, id) := JValueUtil.getString appInfo "id" ""
  let (_, folderPath) := JValueUtil.getString appInfo "folderPath" ""
  let (_, searchIndex) := JValueUtil.getString appInfo "searchIndex" ""
  let (_, icon) := JValueUtil.getString appInfo "icon" ""
  match fromFile env (File.join folderPath searchIndex) with
  | none => (false, db)
  | some indexJson =>
    let (hasItems, items) := JValueUtil.getJValue indexJson "items" .null
    if !hasItems || !items.isArray then (false, db) else
    let allLabels := getLabels env appInfo
    if allLabels.entries = [] then (false, db) else
    let display := JValue.object.put "icon" (.str (File.join folderPath icon))
    (true, (items.items.foldl (indexItem env id categoryId allLabels) (display, db)).2)

def generateIntent (categoryId : String) (language _name : String) (item : SearchItem) :
    Option Intent :=
  let display := item.display
  let (hasTitle, title) := JValueUtil.getJValue display "title" .null
  let curTitle :=
    if hasTitle && title.isObject then
      match JValueUtil.getString title language "" with
      | (true, curTitle) => curTitle
      | (false, curTitle) => (JValueUtil.getString title "en" curTitle).2
    else ""
  some {
    category := categoryId
    action := "view"
    uri := item.key
    extra := item.extra
    display := display.put "title" (.str curTitle) }

def eraseCategory (env : Env) (db : Db) (categoryId : String) : Db :=
  (Database.removeItem env db categoryId).2

/-- The constructor: the new object, after its items have been indexed again. -/
def make (env : Env) (w : Service) (id name : String) (app : JValue) : CategoryPtr × Service :=
  let db := eraseCategory env w.db id
  let (_, db) := createIndexes env db id app
  let (p, categories) := w.categories.alloc { id, name, generateIntent := generateIntent id }
  (p, { w with db, categories })

end UnifiedSearch.AppContents
