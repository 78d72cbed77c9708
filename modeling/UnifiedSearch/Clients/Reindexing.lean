import UnifiedSearch.Clients.Indexing

/-!
# What an application is indexed as

`indexedItems` says which items an application has in the table, item by item of
its index file. The loop of `createIndexes` shares one display object between
the items and collects text and title over the labels and languages of each;
`createIndexes_items` is that it writes just these items, and
`items_make` that the constructor leaves them and nothing else of the category.
-/

namespace UnifiedSearch.AppContents

open Lib

variable {env : Env} {app item : JValue} {allLabels : Labels} {categoryId id : String}

/-! ## The items of an application -/

/-- The values of a label by language; `en` defaults to the label key. -/
def labelLangs (allLabels : Labels) (labelKey : String) : Option (OrdMap String String) :=
  (allLabels.find labelKey).map (·.insert "en" labelKey)

/-- The defined ones of a list of labels, in order. -/
def definedIn (allLabels : Labels) (labelKeys : List JValue) : List (OrdMap String String) :=
  labelKeys.filterMap fun labelKey => labelLangs allLabels labelKey.asString

/-- The defined labels of an item. -/
def definedLabels (allLabels : Labels) (item : JValue) : List (OrdMap String String) :=
  definedIn allLabels (item.index "labels").items

/-- All values of the defined labels, in all languages. -/
def labelValues (allLabels : Labels) (item : JValue) : List String :=
  (definedLabels allLabels item).flatMap (·.values)

/-- The text of an item: the values, but for empty ones at the front. -/
def joined (values : List String) : String := ", ".intercalate (values.dropWhile (· = ""))

/-- The language map of a label as JSON. -/
def titlesOf (langs : OrdMap String String) : JValue :=
  langs.entries.foldl (fun t label => t.put label.1 (.str label.2)) .object

/-- An item has a string path or an extra. -/
def HasTarget (item : JValue) : Prop :=
  (∃ path, item.get "path" = some (.str path)) ∨ (item.get "extra").isSome

def baseDisplay (app : JValue) : JValue :=
  let (_, folderPath) := JValueUtil.getString app "folderPath" ""
  let (_, icon) := JValueUtil.getString app "icon" ""
  JValue.object.put "icon" (.str (File.join folderPath icon))

/-- The item of an index item that is not left out. -/
def indexedItem (categoryId : String) (app : JValue) (allLabels : Labels) (item : JValue) :
    SearchItem where
  category := categoryId
  key := "app://" ++ (JValueUtil.getString app "id" "").2 ++
    (JValueUtil.getString item "path" "").2
  value := joined (labelValues allLabels item)
  display := (baseDisplay app).put "title"
    (((definedLabels allLabels item).head?.map titlesOf).getD .null)
  extra := item.index "extra"

/-- An index item is indexed if it has a target, its labels are an array, and a defined one of
them has a value. -/
def Indexed (allLabels : Labels) (item : JValue) : Prop :=
  HasTarget item ∧ (item.index "labels").isArray ∧ ∃ value ∈ labelValues allLabels item, value ≠ ""

theorem hasTarget_iff : HasTarget item ↔
    ((JValueUtil.getString item "path" "").1 || (item.get "extra").isSome) = true := by
  unfold HasTarget JValueUtil.getString
  rw [Bool.or_eq_true]
  refine or_congr_left ?_
  split
  · next s h => simp [h]
  · next h => simpa using h

instance : Decidable (HasTarget item) := decidable_of_iff _ hasTarget_iff.symm

instance : Decidable (Indexed allLabels item) := inferInstanceAs (Decidable (_ ∧ _ ∧ _))

/-- The items of the index file; none where it cannot be read. -/
def indexItems (env : Env) (app : JValue) : List JValue :=
  let (_, folderPath) := JValueUtil.getString app "folderPath" ""
  let (_, searchIndex) := JValueUtil.getString app "searchIndex" ""
  match fromFile env (File.join folderPath searchIndex) with
  | some indexJson => (indexJson.index "items").items
  | none => []

/-- The items of an application in the table. -/
def indexedItems (env : Env) (categoryId : String) (app : JValue) : List SearchItem :=
  let allLabels := getLabels env app
  ((indexItems env app).filter (Indexed allLabels ·)).map (indexedItem categoryId app allLabels)

/-! ## Text and title of one item -/

/-- One value more in the text of an item. -/
def addValue (searchValue value : String) : String :=
  (if searchValue ≠ "" then searchValue ++ ", " else searchValue) ++ value

theorem append_sep_ne (a b : String) : a ++ ", " ++ b ≠ "" := by
  intro h
  have := congrArg String.length h
  simp at this

theorem foldl_addValue {acc : String} (h : acc ≠ "") (values : List String) :
    values.foldl addValue acc = ", ".intercalate (acc :: values) := by
  induction values generalizing acc with
  | nil => simp
  | cons v values ih =>
    rw [List.foldl_cons, addValue, if_pos h, ih (append_sep_ne acc v),
      String.intercalate_cons_append, String.intercalate_cons_cons]

theorem foldl_addValue_empty (values : List String) : values.foldl addValue "" = joined values := by
  induction values with
  | nil => rfl
  | cons v values ih =>
    have hadd : addValue "" v = v := String.empty_append
    rw [List.foldl_cons, hadd]
    by_cases hv : v = ""
    · subst hv
      exact ih
    · rw [foldl_addValue hv, joined, List.dropWhile_cons_of_neg (by simpa using hv)]

theorem joined_eq_empty {values : List String} : joined values = "" ↔ ∀ v ∈ values, v = "" := by
  induction values with
  | nil => simp [joined]
  | cons v values ih =>
    by_cases hv : v = ""
    · subst hv
      rw [List.forall_mem_cons, ← ih, joined, List.dropWhile_cons_of_pos (by simp)]
      exact (and_iff_right rfl).symm
    · have hne : joined (v :: values) ≠ "" := by
        rw [joined, List.dropWhile_cons_of_neg (by simpa using hv)]
        cases values with
        | nil => simpa using hv
        | cons w values =>
          rw [String.intercalate_cons_cons]
          exact append_sep_ne v _
      exact iff_of_false hne fun h => hv (h v List.mem_cons_self)

theorem isObject_titlesOf (langs : OrdMap String String) : (titlesOf langs).isObject = true := by
  unfold titlesOf
  generalize langs.entries = l
  suffices ∀ t : JValue, t.isObject = true →
      (l.foldl (fun t label => t.put label.1 (.str label.2)) t).isObject = true from this _ rfl
  induction l with
  | nil => exact fun t h => h
  | cons e l ih => exact fun t h => ih _ ((JValue.isObject_put ..).trans h)

theorem isNull_titlesOf (langs : OrdMap String String) : (titlesOf langs).isNull = false := by
  have h := isObject_titlesOf langs
  cases hj : titlesOf langs with
  | null => rw [hj] at h; cases h
  | _ => rfl

theorem foldl_searchValue (values : List String) (s : Collected) :
    values.foldl (fun s value =>
      let searchValue := if s.searchValue ≠ "" then s.searchValue ++ ", " else s.searchValue
      { s with searchValue := searchValue ++ value }) s =
    { s with searchValue := values.foldl addValue s.searchValue } := by
  induction values generalizing s with
  | nil => rfl
  | cons v values ih => exact ih _

theorem collectLabel_none (s : Collected) {labelKeyObj : JValue}
    (h : labelLangs allLabels labelKeyObj.asString = none) :
    collectLabel allLabels s labelKeyObj = s := by
  simp only [collectLabel, Option.map_eq_none_iff.1 h]

/-- The first label with a definition is the title. -/
theorem collectLabel_some (s : Collected) {labelKeyObj : JValue} {langs : OrdMap String String}
    (h : labelLangs allLabels labelKeyObj.asString = some langs) :
    collectLabel allLabels s labelKeyObj = {
      titles := if s.titles.isNull then titlesOf langs else s.titles
      display := if s.titles.isNull then s.display.put "title" (titlesOf langs) else s.display
      searchValue := langs.values.foldl addValue s.searchValue } := by
  unfold labelLangs at h
  obtain ⟨labelLangs, hfind, rfl⟩ := Option.map_eq_some_iff.1 h
  unfold collectLabel
  simp only [hfind, foldl_searchValue]
  split_ifs <;> rfl

/-- The loop over the labels of an item, whatever an earlier item left in the display. -/
theorem foldl_collectLabel (allLabels : Labels) (labelKeys : List JValue) (s : Collected) :
    (labelKeys.foldl (collectLabel allLabels) s).searchValue =
        ((definedIn allLabels labelKeys).flatMap (·.values)).foldl addValue s.searchValue ∧
      (labelKeys.foldl (collectLabel allLabels) s).display =
        if s.titles.isNull then ((definedIn allLabels labelKeys).head?.map fun langs =>
          s.display.put "title" (titlesOf langs)).getD s.display
        else s.display := by
  induction labelKeys generalizing s with
  | nil => simp [definedIn]
  | cons k labelKeys ih =>
    obtain ⟨hvalue, hdisplay⟩ := ih (collectLabel allLabels s k)
    unfold definedIn
    cases hk : labelLangs allLabels k.asString with
    | none =>
      rw [collectLabel_none s hk] at hvalue hdisplay
      rw [List.foldl_cons, collectLabel_none s hk, List.filterMap_cons, hk]
      exact ⟨hvalue, hdisplay⟩
    | some langs =>
      rw [collectLabel_some s hk] at hvalue hdisplay
      rw [List.foldl_cons, collectLabel_some s hk, List.filterMap_cons, hk]
      refine ⟨?_, ?_⟩
      · rw [hvalue, List.flatMap_cons, List.foldl_append]
        rfl
      · rw [hdisplay]
        by_cases hn : s.titles.isNull = true
        · simp [hn, isNull_titlesOf]
        · simp [hn]

/-! ## The loop over the items -/

/-- What the shared display is between two items: the icon, and the title of an earlier item. -/
def Shared (base display : JValue) : Prop :=
  display = base ∨ ∃ titles, display = base.put "title" titles

theorem Shared.put {base display : JValue} (h : Shared base display) (titles : JValue) :
    display.put "title" titles = base.put "title" titles := by
  rcases h with rfl | ⟨_, rfl⟩
  · rfl
  · exact JValue.put_put ..

/-- The labels of an item as the loop leaves them. -/
theorem collected_eq (allLabels : Labels) (item display : JValue) :
    ((item.index "labels").items.foldl (collectLabel allLabels) { display }).searchValue =
        joined (labelValues allLabels item) ∧
      ((item.index "labels").items.foldl (collectLabel allLabels) { display }).display =
        ((definedLabels allLabels item).head?.map fun langs =>
          display.put "title" (titlesOf langs)).getD display := by
  obtain ⟨hvalue, hdisplay⟩ := foldl_collectLabel allLabels (item.index "labels").items { display }
  exact ⟨hvalue.trans (foldl_addValue_empty _), hdisplay⟩

theorem joined_labelValues (h : ∃ value ∈ labelValues allLabels item, value ≠ "") :
    joined (labelValues allLabels item) ≠ "" := by
  intro he
  obtain ⟨value, hv, hne⟩ := h
  exact hne (joined_eq_empty.1 he value hv)

theorem head_definedLabels (h : ∃ value ∈ labelValues allLabels item, value ≠ "") :
    ∃ langs, (definedLabels allLabels item).head? = some langs := by
  obtain ⟨value, hv, -⟩ := h
  obtain ⟨langs, hl, -⟩ := List.mem_flatMap.1 hv
  exact Option.isSome_iff_exists.1 (List.isSome_head?.2 (List.ne_nil_of_mem hl))

/-! The two guards at the head of the loop, as the code tests them. -/

theorem not_hasTarget_iff : (!(JValueUtil.getString item "path" "").1 &&
    !(item.get "extra").isSome) = true ↔ ¬HasTarget item := by
  rw [hasTarget_iff, ← Bool.not_or, Bool.not_eq_true', Bool.not_eq_true]

theorem not_isArray_iff (key : String) :
    (!(item.get key).isSome || !(item.index key).isArray) = true ↔
      ¬(item.index key).isArray = true := by
  unfold JValue.index
  cases item.get key <;> simp [JValue.isArray]

/-- One item: it is written iff it is to be indexed, with a display of its own. -/
theorem indexItem_spec (env : Env) (categoryId : String) (allLabels : Labels) (item : JValue)
    {display : JValue} (db : Db) (h : Shared (baseDisplay app) display) :
    ∃ display', Shared (baseDisplay app) display' ∧
      indexItem env (JValueUtil.getString app "id" "").2 categoryId allLabels
          (display, db) item =
        (display', if Indexed allLabels item then
          (Database.insertItem env db (indexedItem categoryId app allLabels item)).2
          else db) := by
  obtain ⟨hvalue, hdisplay⟩ := collected_eq allLabels item display
  unfold indexItem
  simp only [JValueUtil.getJValue_eq, hvalue, hdisplay, not_hasTarget_iff, not_isArray_iff]
  by_cases hi : Indexed allLabels item
  · obtain ⟨htarget, harr, hvalues⟩ := hi
    obtain ⟨langs, hhead⟩ := head_definedLabels hvalues
    refine ⟨(baseDisplay app).put "title" (titlesOf langs), .inr ⟨_, rfl⟩, ?_⟩
    rw [if_neg (not_not.2 htarget), if_neg (not_not.2 harr), if_neg (joined_labelValues hvalues),
      if_pos ⟨htarget, harr, hvalues⟩]
    simp only [indexedItem, hhead, Option.map_some, Option.getD_some, h.put, String.append_assoc]
  · rw [if_neg hi]
    by_cases htarget : HasTarget item
    swap
    · exact ⟨display, h, if_pos htarget⟩
    by_cases harr : (item.index "labels").isArray = true
    swap
    · exact ⟨display, h, by rw [if_neg (not_not.2 htarget), if_pos harr]⟩
    have hempty : joined (labelValues allLabels item) = "" := joined_eq_empty.2 fun v hv => by
      by_contra hne
      exact hi ⟨htarget, harr, v, hv, hne⟩
    rw [if_neg (not_not.2 htarget), if_neg (not_not.2 harr), if_pos hempty]
    refine ⟨_, ?_, rfl⟩
    cases (definedLabels allLabels item).head? with
    | none => exact h
    | some langs => exact .inr ⟨titlesOf langs, h.put _⟩

/-- What is written: the items, each by a statement that may fail. -/
def insertItems (env : Env) (db : Db) (items : List SearchItem) : Db :=
  items.foldl (fun db item => (Database.insertItem env db item).2) db

theorem foldl_indexItem (items : List JValue) {display : JValue} (db : Db)
    (h : Shared (baseDisplay app) display) :
    (items.foldl (indexItem env (JValueUtil.getString app "id" "").2 categoryId allLabels)
      (display, db)).2 = insertItems env db ((items.filter (Indexed allLabels ·)).map
        (indexedItem categoryId app allLabels)) := by
  induction items generalizing display db with
  | nil => rfl
  | cons item items ih =>
    obtain ⟨display', h', heq⟩ := indexItem_spec env categoryId allLabels item db h
    rw [List.foldl_cons, heq, ih _ h']
    by_cases hi : Indexed allLabels item
    · rw [if_pos hi, List.filter_cons_of_pos (by simpa using hi)]
      rfl
    · rw [if_neg hi, List.filter_cons_of_neg (by simpa using hi)]

theorem insertItems_healthy (env : Env) (db : Db) (items : List SearchItem) :
    (insertItems env.healthy db items).items = db.items ++ items.map (itemRow env) := by
  induction items generalizing db with
  | nil => exact (List.append_nil _).symm
  | cons item items ih =>
    refine (ih _).trans ?_
    show (Database.insertItem env.healthy db item).2.items ++ _ = _
    rw [insertItem_eq, List.append_assoc]
    rfl

/-- What is written is a part of the items, in their order, and all of them where no statement
fails. -/
theorem insertItems_stored {α : Type} (env : Env) (db : Db) (item : α → SearchItem) (l : List α) :
    ∃ stored : List α, stored.Sublist l ∧ (env.fault = noFault → stored = l) ∧
      (insertItems env db (l.map item)).items =
        db.items ++ stored.map fun a => itemRow env (item a) := by
  by_cases hf : env.fault = noFault
  · have henv : env.healthy = env := by
      unfold Env.healthy
      rw [← hf]
    refine ⟨l, .refl l, fun _ => rfl, ?_⟩
    rw [← henv, insertItems_healthy, List.map_map, henv]
    rfl
  · have hpart : ∀ db, ∃ stored : List α, stored.Sublist l ∧ (insertItems env db
        (l.map item)).items = db.items ++ stored.map fun a => itemRow env (item a) := by
      induction l with
      | nil => exact fun db => ⟨[], .slnil, (List.append_nil _).symm⟩
      | cons a l ih =>
        intro db
        obtain ⟨stored, hsub, heq⟩ := ih (Database.insertItem env db (item a)).2
        rcases insertItem_items env db (item a) with h | h
        · exact ⟨stored, hsub.cons _, heq.trans (by rw [h])⟩
        · exact ⟨a :: stored, hsub.cons_cons _, heq.trans (by rw [h, List.append_assoc]; rfl)⟩
    obtain ⟨stored, hsub, heq⟩ := hpart db
    exact ⟨stored, hsub, fun h => (hf h).elim, heq⟩

theorem insertItems_category (env : Env) (db : Db) (items : List SearchItem) :
    (insertItems env db items).category = db.category := by
  induction items generalizing db with
  | nil => rfl
  | cons item items ih => exact (ih _).trans (insertItem_category env db item)

theorem not_indexed_of_empty (h : allLabels.entries = []) : ¬Indexed allLabels item := by
  rintro ⟨-, -, value, hv, -⟩
  obtain ⟨langs, hl, -⟩ := List.mem_flatMap.1 hv
  obtain ⟨key, -, hk⟩ := List.mem_filterMap.1 hl
  unfold labelLangs OrdMap.find at hk
  rw [h] at hk
  cases hk

theorem createIndexes_eq (env : Env) (db : Db) (categoryId : String) (app : JValue) :
    (createIndexes env db categoryId app).2 =
      insertItems env db (indexedItems env categoryId app) := by
  unfold createIndexes indexedItems indexItems
  dsimp only
  cases fromFile env (File.join _ _) with
  | none => rfl
  | some indexJson =>
    simp only [JValueUtil.getJValue_eq, not_isArray_iff]
    split_ifs with harr hempty
    · have hno : (indexJson.index "items").items.filter (Indexed (getLabels env app) ·) = [] :=
        List.filter_eq_nil_iff.2 fun item _ => by simpa using not_indexed_of_empty hempty
      rw [hno]
      rfl
    · exact foldl_indexItem _ db (.inl rfl)
    · rw [JValue.items_of_not_isArray harr]
      rfl

theorem createIndexes_items (env : Env) (db : Db) (categoryId : String) (app : JValue) :
    (createIndexes env.healthy db categoryId app).2.items =
      db.items ++ (indexedItems env categoryId app).map (itemRow env) := by
  rw [createIndexes_eq]
  exact insertItems_healthy env db (indexedItems env categoryId app)

/-! ## The constructor -/

theorem category_make_of {w : Service} {name : String} (h : itemsOnly env w.db id = true) :
    (make env w id name app).2.db.category = w.db.category := by
  have herase : (eraseCategory env w.db id).category = w.db.category := removeItem_category h
  have hcreate := createIndexes_eq env (eraseCategory env w.db id) id app
  refine (congrArg (fun db : Db => db.category) hcreate).trans ?_
  rw [insertItems_category, herase]

/-- The constructor leaves the items of the application and no other rows of its category. -/
theorem items_make (env : Env) (w : Service) (name : String) (app : JValue)
    (hq : '\'' ∉ id.toList) (hn : NulFree id) :
    (make env.healthy w id name app).2.db.items =
      w.db.items.filter (fun r => r.category.val ≠ id) ++
        (indexedItems env id app).map (itemRow env) := by
  have hq' : '\'' ∉ (Text.ofCStr id).val.toList := fun h => hq (Text.mem_ofCStr h)
  have herase : (eraseCategory env.healthy w.db id).items =
      w.db.items.filter fun r => r.category.val ≠ id := by
    unfold eraseCategory
    rw [removeItem_eq hq' (by decide)]
    show deleted w.db.items id "" = _
    rw [deleted, if_pos ⟨hn, by decide⟩]
    refine List.filter_congr fun r _ => ?_
    simp [ItemRow.meets]
  have hcreate := createIndexes_items env (eraseCategory env.healthy w.db id) id app
  rw [herase] at hcreate
  exact hcreate

theorem indexedItems_unread (h : indexItems env app = [] ∨ (getLabels env app).entries = []) :
    indexedItems env categoryId app = [] := by
  unfold indexedItems
  rcases h with h | h
  · simp [h]
  · have hno : (indexItems env app).filter (Indexed (getLabels env app) ·) = [] :=
      List.filter_eq_nil_iff.2 fun item _ => by simpa using not_indexed_of_empty h
    simp [hno]

/-- **Indexing an application again is exact and repeatable**: after any number of times its
category has the rows of `indexedItems`, and the rows of other categories are as before. -/
theorem items_makes (env : Env) (w : Service) (id : String) (app : JValue) (name : String)
    (names : List String) (hq : '\'' ∉ id.toList) (hn : NulFree id) :
    ((name :: names).foldl (fun w name => (make env.healthy w id name app).2) w).db.items =
        w.db.items.filter (fun r => r.category.val ≠ id) ++
          (indexedItems env id app).map (itemRow env) ∧
      (indexItems env app = [] ∨ (getLabels env app).entries = [] →
        indexedItems env id app = []) := by
  refine ⟨?_, indexedItems_unread⟩
  rw [List.foldl_cons]
  have hself : ∀ r ∈ (indexedItems env id app).map (itemRow env), r.category.val = id := by
    intro r hr
    obtain ⟨item, hi, rfl⟩ := List.mem_map.1 hr
    obtain ⟨_, -, rfl⟩ := List.mem_map.1 hi
    exact Text.ofCStr_of_nulFree hn
  have hnone : ((indexedItems env id app).map (itemRow env)).filter (fun r => r.category.val ≠ id)
      = [] := List.filter_eq_nil_iff.2 fun r hr => by simpa using hself r hr
  have hfirst := items_make env w name app hq hn
  generalize (make env.healthy w id name app).2 = w' at hfirst
  induction names generalizing w' with
  | nil => exact hfirst
  | cons name' names ih =>
    refine ih _ ?_
    rw [items_make env w' name' app hq hn, hfirst, List.filter_append, hnone, List.append_nil,
      List.filter_filter]
    simp

/-- The files of an application with one label and one item, at `path`. -/
def helloFiles (path : String) : Env := { Env.sample with
  fromFile := fun file =>
    if file = "/a/index.json" then some (.obj [("items", .arr [
      .obj [("path", .str path), ("labels", .arr [.str "hello"])]])])
    else if file = "/a/resources/ilibmanifest.json" then
      some (.obj [("files", .arr [.str "strings.json", .str "ko/strings.json"])])
    else if file = "/a/resources/strings.json" then some (.obj [("hello", .str "Hello")])
    else if file = "/a/resources/ko/strings.json" then some (.obj [("hello", .str "Annyeong")])
    else none }

def helloApp : JValue :=
  .obj [("id", .str "a"), ("folderPath", .str "/a"), ("searchIndex", .str "index.json")]

theorem items_makes_sample :
    ((["A", "A"].foldl (fun w name => (make (helloFiles "?p").healthy w "a" name helloApp).2)
      (.start .fresh "en")).db.items.map fun r => (r.key.val, r.text.val)) =
        [("app://a?p", "Hello, Annyeong")] := by
  rw [(items_makes (helloFiles "?p") (.start .fresh "en") "a" helloApp "A" ["A"] (by decide)
    (by decide)).1]
  decide +kernel

/-- A row that an earlier run has left. -/
def staleItem : SearchItem :=
  { category := "a", key := "app://a?old", value := "", display := .null }

/-- A path is stored up to its first NUL, and a delete that fails leaves the old rows. -/
theorem not_reindexed_exactly :
    (make (helloFiles "p\x00q").healthy (.start .fresh "en") "a" "A" helloApp).2.db.items.map
      (·.key.val) ≠ ["app://a" ++ "p\x00q"] ∧
    (make { helloFiles "?p" with fault := (· == 0) }
        (.start ⟨⟨.empty, [itemRow Env.sample staleItem]⟩, 0⟩ "en") "a" "A" helloApp).2.db.items.map
      (·.key.val) ≠ ["app://a?p"] := by
  decide +kernel

end UnifiedSearch.AppContents
