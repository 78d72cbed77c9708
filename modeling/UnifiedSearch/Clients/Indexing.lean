import UnifiedSearch.Base.Registration
import UnifiedSearch.Clients.AppContents

/-!
# What indexing an application does to the database

`Appends k db db'`: the tables differ by new item rows of category `k`, at the
end. Building the items of an application is such a step (`createIndexes_appends`);
`make_frame` and
`make_db` are the constructor.
-/

namespace UnifiedSearch

open Lib

/-- Nothing but new items of category `k`, after the old ones. -/
def Appends (k : Text) (db db' : Db) : Prop :=
  db'.category = db.category ∧ ∃ new, db'.items = db.items ++ new ∧ ∀ r ∈ new, r.category = k

namespace Appends

variable {k : Text} {db db' db'' : Db}

theorem refl (k : Text) (db : Db) : Appends k db db :=
  ⟨rfl, [], (List.append_nil _).symm, fun _ h => by cases h⟩

theorem trans (h : Appends k db db') (h' : Appends k db' db'') : Appends k db db'' := by
  obtain ⟨hc, l, hl, hk⟩ := h
  obtain ⟨hc', l', hl', hk'⟩ := h'
  refine ⟨hc'.trans hc, l ++ l', by rw [hl', hl, List.append_assoc], fun r hr => ?_⟩
  rcases List.mem_append.1 hr with hr | hr
  · exact hk r hr
  · exact hk' r hr

theorem insertItem (env : Env) (db : Db) {item : SearchItem} (hk : .ofCStr item.category = k) :
    Appends k db (Database.insertItem env.healthy db item).2 :=
  ⟨rfl, [itemRow env item], rfl, fun r hr => by rw [List.mem_singleton.1 hr]; exact hk⟩

theorem filter_items (h : Appends k db db') {c : String} (hk : k.val ≠ c) :
    db'.items.filter (·.category.val = c) = db.items.filter (·.category.val = c) := by
  obtain ⟨-, l, hl, hcat⟩ := h
  have hnil : l.filter (·.category.val = c) = [] := List.filter_eq_nil_iff.2 fun r hr => by
    simpa [hcat r hr] using hk
  rw [hl, List.filter_append, hnil, List.append_nil]

end Appends

namespace AppContents

variable {env : Env} {w : Service} {id categoryId name : String} {app : JValue}

theorem indexItem_appends (allLabels : Labels) (s : JValue × Db) (item : JValue) :
    Appends (.ofCStr categoryId) s.2 (indexItem env.healthy id categoryId allLabels s item).2 := by
  unfold indexItem
  dsimp only
  split_ifs
  · exact .refl _ _
  · exact .refl _ _
  · exact .refl _ _
  · exact .insertItem env s.2 rfl

theorem foldl_indexItem_appends (allLabels : Labels) (items : List JValue) (s : JValue × Db) :
    Appends (.ofCStr categoryId) s.2
      (items.foldl (indexItem env.healthy id categoryId allLabels) s).2 := by
  induction items generalizing s with
  | nil => exact .refl _ _
  | cons item items ih => exact (indexItem_appends allLabels s item).trans (ih _)

theorem createIndexes_appends (env : Env) (db : Db) (categoryId : String) (app : JValue) :
    Appends (.ofCStr categoryId) db (createIndexes env.healthy db categoryId app).2 := by
  unfold createIndexes
  dsimp only
  split
  · exact .refl _ _
  · split_ifs
    · exact .refl _ _
    · exact .refl _ _
    · exact foldl_indexItem_appends _ _ (_, db)

/-- Everything but the database and the new object is as before. -/
theorem make_frame (env : Env) (w : Service) (id name : String) (app : JValue) :
    (make env w id name app).1 = w.categories.next ∧
      (make env w id name app).2.sets = w.sets ∧
      (make env w id name app).2.searchSets = w.searchSets ∧
      ((make env w id name app).2.category w.categories.next).id = id :=
  ⟨rfl, rfl, rfl, congrArg Category.id (if_pos rfl)⟩

theorem set_make (env : Env) (w : Service) (id name : String) (app : JValue) (s : SearchSetPtr) :
    (make env w id name app).2.set s = w.set s := rfl

/-- The constructor, for an id whose C string has no single quote. -/
theorem make_db (env : Env) (w : Service) (name : String) (app : JValue)
    (hid : '\'' ∉ (Text.ofCStr id).val.toList) :
    ∃ db, db.category = w.db.category ∧ db.items = deleted w.db.items id "" ∧
      Appends (.ofCStr id) db (make env.healthy w id name app).2.db := by
  refine ⟨eraseCategory env.healthy w.db id, ?_, ?_, createIndexes_appends env _ id app⟩
  · unfold eraseCategory; rw [removeItem_eq hid (by decide)]
  · unfold eraseCategory; rw [removeItem_eq hid (by decide)]

theorem category_make (env : Env) (w : Service) (name : String) (app : JValue)
    (hid : '\'' ∉ (Text.ofCStr id).val.toList) :
    (make env.healthy w id name app).2.db.category = w.db.category := by
  obtain ⟨db, hcat, -, happ⟩ := make_db env w name app hid
  exact happ.1.trans hcat

end AppContents

end UnifiedSearch
