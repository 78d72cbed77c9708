import UnifiedSearch.Base.ItemText
import UnifiedSearch.Bus.SettingService
import UnifiedSearch.Clients.Reindexing
import UnifiedSearch.Lib.Runs

/-!
# The title of an item in the language of the user interface

`valueIn` reads a label of an application off its files: the last file of the
language that has it. `getLabels` collects just these values (`collected_getLabels`),
indexing adds the default for `en`, and what `generateIntent` makes of a stored
row is the value in the language of the settings service (`title_shown`).
-/

namespace UnifiedSearch.AppContents

open Lib

variable {env : Env} {app item : JValue} {allLabels : Labels}

/-! ## The labels of an application -/

def resourceFolder (app : JValue) : String :=
  File.join (JValueUtil.getString app "folderPath" "").2 "resources"

/-- The files the manifest lists. -/
def labelFiles (env : Env) (app : JValue) : List String :=
  match fromFile env (File.join (resourceFolder app) "ilibmanifest.json") with
  | some manifest => (manifest.index "files").items.map (·.asString)
  | none => []

/-- The language of a file: its top directory. -/
def topDirectory (file : String) : String :=
  if '/' ∈ file.toList then String.ofList (file.toList.takeWhile (· ≠ '/')) else "en"

/-- The labels of a file, if its name says that it is a strings file. -/
def labelsOf (env : Env) (app : JValue) (file : String) : List (String × JValue) :=
  if file = "" ∨ ¬"strings".toList <:+: file.toList then [] else
  match fromFile env (File.join (resourceFolder app) file) with
  | some labels => labels.children
  | none => []

/-- The value of a label in a file. -/
def definition (env : Env) (app : JValue) (key file : String) : Option String :=
  ((labelsOf env app file).filterMap fun label =>
    if label.1 = key then some label.2.asString else none).getLast?

/-- The value of a label in a language: the one of the last file that has it. -/
def valueIn (env : Env) (app : JValue) (key language : String) : Option String :=
  (((labelFiles env app).filter (topDirectory · = language)).filterMap
    (definition env app key)).getLast?

/-- The first label of an item that some strings file has. -/
def firstDefined (env : Env) (app item : JValue) : Option String :=
  ((item.index "labels").items.map (·.asString)).find? fun key =>
    (labelFiles env app).any fun file => (definition env app key file).isSome

/-! ## What `getLabels` collects -/

/-- The value of a label in a language, as collected so far. -/
def collected (key lang : String) (allLabels : Labels) : Option String :=
  (allLabels.find key).bind (·.find lang)

theorem collected_addLabel (key lang language : String) (allLabels : Labels)
    (label : String × JValue) : collected key lang (addLabel language allLabels label) =
      (if language = lang ∧ label.1 = key then some label.2.asString else none).or
        (collected key lang allLabels) := by
  unfold collected addLabel
  rw [OrdMap.find_alter]
  by_cases hk : key = label.1
  · subst hk
    rw [if_pos rfl, Option.bind_some, OrdMap.set, OrdMap.find_alter]
    by_cases hl : lang = language
    · subst hl
      simp
    · rw [if_neg hl, if_neg fun h => hl h.1.symm, Option.none_or]
      cases allLabels.find label.1 <;> rfl
  · rw [if_neg hk, if_neg fun h => hk h.2.symm, Option.none_or]

theorem addLabelFile_eq (env : Env) (app : JValue) (allLabels : Labels) (labelFileObj : JValue) :
    addLabelFile env (resourceFolder app) allLabels labelFileObj =
      (labelsOf env app labelFileObj.asString).foldl
        (addLabel (topDirectory labelFileObj.asString)) allLabels := by
  unfold addLabelFile labelsOf
  generalize labelFileObj.asString = file
  dsimp only
  by_cases hskip : file = "" ∨ ¬"strings".toList <:+: file.toList
  · rw [if_pos hskip, if_pos hskip]
    rfl
  rw [if_neg hskip, if_neg hskip]
  cases fromFile env (File.join (resourceFolder app) file) with
  | none => rfl
  | some labels =>
    cases labels with
    | obj fs => rfl
    | _ => rfl

/-- One file writes its definition of the label, in the language of its top directory. -/
theorem collected_addLabelFile (key lang : String) (allLabels : Labels) (labelFileObj : JValue) :
    collected key lang (addLabelFile env (resourceFolder app) allLabels labelFileObj) =
      (if topDirectory labelFileObj.asString = lang then
          definition env app key labelFileObj.asString
        else none).or (collected key lang allLabels) := by
  rw [addLabelFile_eq, read_foldl (collected_addLabel key lang _)]
  by_cases hl : topDirectory labelFileObj.asString = lang
  · simp only [hl, true_and, if_true]
    rfl
  · simp [hl]

theorem getLabels_eq (env : Env) (app : JValue) : ∃ files : List JValue,
    labelFiles env app = files.map (·.asString) ∧
      getLabels env app = files.foldl (addLabelFile env (resourceFolder app)) .empty := by
  unfold labelFiles getLabels
  dsimp only [resourceFolder]
  cases fromFile env (File.join _ "ilibmanifest.json") with
  | none => exact ⟨[], rfl, rfl⟩
  | some manifest =>
    refine ⟨(manifest.index "files").items, rfl, ?_⟩
    simp only [JValueUtil.getJValue_eq, not_isArray_iff]
    split_ifs with harr
    · rfl
    · rw [JValue.items_of_not_isArray harr]
      rfl

theorem collected_getLabels (env : Env) (app : JValue) (key lang : String) :
    collected key lang (getLabels env app) = valueIn env app key lang := by
  obtain ⟨files, hfiles, hlabels⟩ := getLabels_eq env app
  rw [hlabels, read_foldl (collected_addLabelFile key lang), valueIn, hfiles, List.filterMap_filter,
    List.filterMap_map]
  simp [collected]

/-- A label that is there has a value in some language. -/
def Inhabited (allLabels : Labels) : Prop :=
  ∀ key langs, allLabels.find key = some langs → ∃ lang, (langs.find lang).isSome

theorem Inhabited.addLabel (h : Inhabited allLabels) (language : String) (label : String × JValue) :
    Inhabited (addLabel language allLabels label) := by
  intro key langs hfind
  unfold AppContents.addLabel at hfind
  rw [OrdMap.find_alter] at hfind
  split_ifs at hfind with hk
  · cases hfind
    exact ⟨language, by rw [OrdMap.set, OrdMap.find_alter, if_pos rfl]; rfl⟩
  · exact h key langs hfind

theorem inhabited_getLabels (env : Env) (app : JValue) : Inhabited (getLabels env app) := by
  obtain ⟨files, -, hlabels⟩ := getLabels_eq env app
  rw [hlabels]
  refine List.foldlRecOn files _ nofun fun allLabels h labelFileObj _ => ?_
  rw [addLabelFile_eq]
  exact List.foldlRecOn _ _ h fun _ h label _ => h.addLabel _ label

theorem isSome_find_getLabels (env : Env) (app : JValue) (key : String) :
    ((getLabels env app).find key).isSome =
      (labelFiles env app).any fun file => (definition env app key file).isSome := by
  rw [Bool.eq_iff_iff, List.any_eq_true]
  constructor
  · intro h
    obtain ⟨langs, hlangs⟩ := Option.isSome_iff_exists.1 h
    obtain ⟨lang, hlang⟩ := inhabited_getLabels env app key langs hlangs
    obtain ⟨value, hvalue⟩ := Option.isSome_iff_exists.1 hlang
    have hin : valueIn env app key lang = some value := by
      rw [← collected_getLabels, collected, hlangs, Option.bind_some, hvalue]
    obtain ⟨file, hfile, hdef⟩ := List.mem_filterMap.1 (List.mem_of_getLast? hin)
    exact ⟨file, List.mem_of_mem_filter hfile, by rw [hdef]; rfl⟩
  · rintro ⟨file, hfile, hdef⟩
    obtain ⟨value, hvalue⟩ := Option.isSome_iff_exists.1 hdef
    have hmem : value ∈ ((labelFiles env app).filter (topDirectory · = topDirectory file)).filterMap
        (definition env app key) :=
      List.mem_filterMap.2 ⟨file, List.mem_filter.2 ⟨hfile, by simp⟩, hvalue⟩
    have hin : (valueIn env app key (topDirectory file)).isSome :=
      List.getLast?_isSome.2 (List.ne_nil_of_mem hmem)
    rw [← collected_getLabels, collected, Option.isSome_bind] at hin
    exact Option.isSome_of_any hin

/-! ## From the labels to the title -/

theorem get_titlesOf (langs : OrdMap String String) (lang : String) :
    (titlesOf langs).get lang = (langs.find lang).map .str := by
  obtain ⟨l, hs⟩ := langs
  unfold titlesOf OrdMap.find
  suffices ∀ t : JValue, t.isObject = true →
      (l.foldl (fun t label => t.put label.1 (.str label.2)) t).get lang =
        ((l.lookup lang).map .str).or (t.get lang) from
    (this .object rfl).trans Option.or_none
  induction l with
  | nil => exact fun t _ => rfl
  | cons e l ih =>
    intro t ht
    obtain ⟨k, v⟩ := e
    obtain ⟨hlt, hl⟩ := List.pairwise_cons.1 hs
    rw [List.foldl_cons, ih hl _ ((JValue.isObject_put ..).trans ht), JValue.get_put ht,
      OrdMap.lookup_cons]
    by_cases hk : lang = k
    · -- the keys are sorted, so `k` is not written again
      have hno : l.lookup k = none := List.lookup_eq_none_iff.2 fun p hp => by
        simpa using (hlt p hp).ne
      subst hk
      rw [if_pos rfl, if_pos rfl, hno]
      rfl
    · rw [if_neg hk, if_neg hk]

/-- The values of a label, as indexed: the default for `en` is the key. -/
theorem find_labelLangs {langs : OrdMap String String} (env : Env) (app : JValue) (key : String)
    (h : labelLangs (getLabels env app) key = some langs) (lang : String) :
    langs.find lang = if lang = "en" then some ((valueIn env app key "en").getD key)
      else valueIn env app key lang := by
  obtain ⟨m, hm, rfl⟩ := Option.map_eq_some_iff.1 h
  have hcollected : ∀ lang, m.find lang = valueIn env app key lang := fun lang => by
    rw [← collected_getLabels, collected, hm, Option.bind_some]
  rw [OrdMap.insert, OrdMap.find_alter, hcollected, hcollected]

theorem head_definedIn (allLabels : Labels) (labelKeys : List JValue) :
    (definedIn allLabels labelKeys).head? =
      ((labelKeys.map (·.asString)).find? fun key => (allLabels.find key).isSome).bind
        (labelLangs allLabels) := by
  induction labelKeys with
  | nil => rfl
  | cons k labelKeys ih =>
    unfold definedIn at ih ⊢
    rw [List.filterMap_cons, List.map_cons, List.find?_cons]
    cases hk : allLabels.find k.asString with
    | none =>
      have hnone : labelLangs allLabels k.asString = none := by rw [labelLangs, hk]; rfl
      rw [hnone]
      exact ih
    | some langs =>
      have hsome : labelLangs allLabels k.asString = some (langs.insert "en" k.asString) := by
        rw [labelLangs, hk]; rfl
      rw [hsome]
      exact hsome.symm

/-- The title of an item is the language map of its first defined label. -/
theorem head_definedLabels_eq (env : Env) (app item : JValue) :
    (definedLabels (getLabels env app) item).head? =
      (firstDefined env app item).bind (labelLangs (getLabels env app)) := by
  unfold definedLabels firstDefined
  rw [head_definedIn]
  simp only [isSome_find_getLabels]

theorem Indexed.title (categoryId : String) (h : Indexed (getLabels env app) item) :
    ∃ key title, firstDefined env app item = some key ∧ title.isObject = true ∧
      (indexedItem categoryId app (getLabels env app) item).display =
        (baseDisplay app).put "title" title ∧
      ∀ lang, title.get lang = (if lang = "en" then some ((valueIn env app key "en").getD key)
        else valueIn env app key lang).map .str := by
  obtain ⟨langs, hhead⟩ := head_definedLabels h.2.2
  obtain ⟨key, hkey, hlangs⟩ :=
    Option.bind_eq_some_iff.1 ((head_definedLabels_eq ..).symm.trans hhead)
  refine ⟨key, titlesOf langs, hkey, isObject_titlesOf langs, ?_, fun lang => ?_⟩
  · rw [indexedItem, hhead]
    rfl
  · rw [get_titlesOf, find_labelLangs env app key hlangs]

/-- What `generateIntent` makes of a title object: the language, else `en`. -/
theorem generateIntent_title (categoryId language name : String) {item : SearchItem}
    {base title : JValue}
    (hbase : base.isObject = true) (hd : item.display = base.put "title" title)
    (ht : title.isObject = true) {own : Option String} {en : String}
    (hown : title.get language = own.map .str) (hen : title.get "en" = some (.str en)) :
    ∃ intent, generateIntent categoryId language name item = some intent ∧
      intent.display.get "title" = some (.str (own.getD en)) := by
  have hget : item.display.get "title" = some title := by rw [hd, JValue.get_put hbase, if_pos rfl]
  have hobj : item.display.isObject = true := by rw [hd, JValue.isObject_put, hbase]
  refine ⟨_, rfl, ?_⟩
  dsimp only
  rw [JValue.get_put hobj, if_pos rfl]
  simp only [hget, ht, Bool.and_self, if_true, JValueUtil.getString, hown, hen]
  cases own <;> rfl

theorem isObject_baseDisplay (app : JValue) : (baseDisplay app).isObject = true := rfl

theorem display_readItem {item : SearchItem} (h : JsonText env item.display) :
    (Database.readItem env (itemRow env item)).display = item.display := by
  have hdisplay : env.fromString (itemRow env item).display.val = item.display := by
    unfold itemRow
    rw [Text.ofCStr_of_nulFree h.nulFree, h.undone]
  unfold Database.readItem
  dsimp only
  split_ifs
  · exact hdisplay
  · exact hdisplay

/-- **The title shown for a stored item** is the value of its first defined label in the language
of the user interface, else the one in `en`, else the label key. Where no statement fails, every
item with a defined label is stored. -/
theorem title_shown (env : Env) (db : Db) (categoryId name : String) (app : JValue)
    (payloads : List JValue) (hd : ∀ item ∈ indexItems env app, Indexed (getLabels env app) item →
      JsonText env (indexedItem categoryId app (getLabels env app) item).display) :
    ∃ stored : List JValue, stored.Sublist (indexItems env app) ∧
      (env.fault = noFault →
        stored = (indexItems env app).filter (Indexed (getLabels env app) ·)) ∧
      (createIndexes env db categoryId app).2.items = db.items ++ stored.map (fun item =>
        itemRow env (indexedItem categoryId app (getLabels env app) item)) ∧
      ∀ item ∈ stored, ∃ key intent, firstDefined env app item = some key ∧
        generateIntent categoryId (SettingService.notified payloads).language name
          (Database.readItem env (itemRow env
            (indexedItem categoryId app (getLabels env app) item))) = some intent ∧
        intent.display.get "title" = some (.str
          ((valueIn env app key (SettingService.languageOf
            ((SettingService.lastLocale payloads).getD ""))).getD
              ((valueIn env app key "en").getD key))) := by
  obtain ⟨stored, hsub, hall, hitems⟩ := insertItems_stored env db
    (indexedItem categoryId app (getLabels env app))
    ((indexItems env app).filter (Indexed (getLabels env app) ·))
  refine ⟨stored, hsub.trans List.filter_sublist, hall, ?_, fun item hitem => ?_⟩
  · rw [createIndexes_eq]
    exact hitems
  obtain ⟨hmem, hi⟩ := List.mem_filter.1 (hsub.subset hitem)
  replace hi := of_decide_eq_true hi
  obtain ⟨key, title, hkey, hobj, hdisplay, hget⟩ := Indexed.title categoryId hi
  rw [SettingService.onLocaleChanged_run]
  generalize hlang : SettingService.languageOf _ = language
  have hlanguage : (SettingService.localized (SettingService.lastLocale payloads)).language =
    language := hlang
  rw [hlanguage]
  have hen : title.get "en" = some (.str ((valueIn env app key "en").getD key)) := by
    rw [hget, if_pos rfl]; rfl
  obtain ⟨intent, hintent, hshown⟩ := generateIntent_title categoryId language name
    (isObject_baseDisplay app) ((display_readItem (hd item hmem hi)).trans hdisplay) hobj
    (hget language) hen
  refine ⟨key, intent, hkey, hintent, hshown.trans ?_⟩
  by_cases hl : language = "en"
  · subst hl
    rw [if_pos rfl]
    cases valueIn env app key "en" <;> rfl
  · rw [if_neg hl]

/-- The display of the item of `helloFiles`. -/
def helloDisplay : JValue :=
  .obj [("icon", .str "/a/"),
    ("title", .obj [("en", .str "Hello"), ("ko", .str "Annyeong")])]

def helloText : String :=
  "\x7b\"icon\":\"/a/\",\"title\":\x7b\"en\":\"Hello\",\"ko\":\"Annyeong\"\x7d\x7d"

def helloEnv : Env := { helloFiles "?p" with
  stringify := fun v => if (v.get "title").isSome then helloText else "null"
  fromString := fun s => if s = helloText then helloDisplay else .null }

theorem title_shown_sample :
    ((createIndexes helloEnv .fresh "a" helloApp).2.items.map fun r =>
      (generateIntent "a" (SettingService.notified [SettingService.localePayload "en-US",
        SettingService.localePayload "ko-KR"]).language "A" (Database.readItem helloEnv r)).map
          fun intent => (intent.display.index "title").asString) = [some "Annyeong"] := by
  obtain ⟨stored, -, hall, hitems, hshown⟩ := title_shown helloEnv .fresh "a" "A" helloApp
    [SettingService.localePayload "en-US", SettingService.localePayload "ko-KR"]
    (fun item hitem _ => by
      cases List.mem_singleton.1 (show item ∈ [_] from hitem)
      exact ⟨by decide, rfl⟩)
  have hone : stored = [.obj [("path", .str "?p"), ("labels", .arr [.str "hello"])]] :=
    (hall rfl).trans (List.filter_eq_self.2 fun item hitem => by
      cases List.mem_singleton.1 (show item ∈ [_] from hitem)
      decide)
  subst hone
  obtain ⟨key, intent, hkey, hintent, htitle⟩ := hshown _ (List.mem_singleton_self _)
  have hfirst : some key = some "hello" := hkey.symm.trans (by decide)
  cases hfirst
  have hvalue : (valueIn helloEnv helloApp "hello" (SettingService.languageOf
      ((SettingService.lastLocale [SettingService.localePayload "en-US",
        SettingService.localePayload "ko-KR"]).getD ""))).getD
          ((valueIn helloEnv helloApp "hello" "en").getD "hello") = "Annyeong" := by decide
  rw [hvalue] at htitle
  rw [hitems, List.map_append, List.map_map, List.map_singleton, Function.comp_apply]
  rw [hintent, Option.map_some, JValue.index, htitle]
  rfl

end UnifiedSearch.AppContents
