import UnifiedSearch.Lib.Runs
import UnifiedSearch.Clients.Indexing
import UnifiedSearch.Bus.Results
import UnifiedSearch.Bus.Sam

/-!
# The categories of SAM's search set

Which categories the set has after a message. A full list adds the listed web
applications that have an index and takes nothing out, so what it leaves is
exactly those iff nothing else was there (`exact_run_iff`).
-/

namespace UnifiedSearch.Sam

open Lib Service

variable {env : Env} {sam : Sam} {w : Service} {app : JValue} {apps : List JValue} {k : String}

def appId (app : JValue) : String := (JValueUtil.getString app "id" "").2

def appTitle (app : JValue) : String := (JValueUtil.getString app "title" "").2

/-- A web application with a non-empty `searchIndex`. -/
def isContent (app : JValue) : Bool :=
  let (hasIndex, searchIndex) := JValueUtil.getString app "searchIndex" ""
  hasIndex && searchIndex ≠ "" && (JValueUtil.getString app "type" "").2 = "web"

/-- The set has a category with this id. -/
def Has (sam : Sam) (w : Service) (k : String) : Prop :=
  ((w.set sam.searchSet).categories.find k).isSome

instance : Decidable (Has sam w k) := inferInstanceAs (Decidable (_ = true))

theorem addAppContents_other (h : isContent app = false) :
    addAppContents env sam w app = (false, w) := by
  unfold addAppContents isContent at *
  dsimp only at *
  split_ifs with h1 h2
  · rfl
  · rw [not_not] at h2
    simp [h1.1, h1.2, h2] at h
  · rfl

theorem addAppContents_content (h : isContent app = true) : (addAppContents env sam w app).2 =
    ((AppContents.make env w (appId app) (appTitle app) app).2.addCategory env sam.searchSet
      (AppContents.make env w (appId app) (appTitle app) app).1).2 := by
  unfold isContent at h
  simp only [Bool.and_eq_true, decide_eq_true_eq] at h
  unfold addAppContents
  dsimp only
  rw [if_pos h.1, if_neg (not_not.2 h.2)]
  rfl

theorem has_addAppContents : Has sam (addAppContents env sam w app).2 k ↔
    Has sam w k ∨ isContent app = true ∧ appId app = k := by
  cases h : isContent app with
  | false => rw [addAppContents_other h]; simp
  | true =>
    obtain ⟨hp, hsets, -, hid⟩ := AppContents.make_frame env w (appId app) (appTitle app) app
    rw [addAppContents_content h]
    unfold Has
    rw [isSome_find_addCategory, hp, hid]
    unfold Service.set
    rw [hsets]
    simp only [true_and, eq_comm (a := k)]

/-! ## The two ways of a listed app -/

theorem listApp_registered {p : CategoryPtr}
    (h : w.findCategoryIn sam.searchSet (appId app) = some p) :
    listApp env sam w app =
      { w.setCategoryName p (appTitle app) with
        db := (Database.updateCategory env.fault (Applications.addToDatabase env w.db app).2
          { w.category p with name := appTitle app }).2 } := by
  have h' : { w with db := (Applications.addToDatabase env w.db app).2 }.findCategoryIn
    sam.searchSet (JValueUtil.getString app "id" "").2 = some p := h
  unfold listApp
  dsimp only
  rw [h']
  dsimp only
  rw [setCategoryName, category_write, if_pos rfl]
  rfl

theorem listApp_new (h : w.findCategoryIn sam.searchSet (appId app) = none) :
    listApp env sam w app =
      (addAppContents env sam
        { w with db := (Applications.addToDatabase env w.db app).2 } app).2 := by
  have h' : { w with db := (Applications.addToDatabase env w.db app).2 }.findCategoryIn
    sam.searchSet (JValueUtil.getString app "id" "").2 = none := h
  unfold listApp
  dsimp only
  rw [h']

theorem has_listApp : Has sam (listApp env sam w app) k ↔
    Has sam w k ∨ isContent app = true ∧ appId app = k := by
  cases h : w.findCategoryIn sam.searchSet (appId app) with
  | none =>
    rw [listApp_new h, has_addAppContents]
    rfl
  | some p =>
    have hsame : Has sam (listApp env sam w app) k ↔ Has sam w k := by
      rw [listApp_registered h]
      rfl
    rw [hsame]
    refine ⟨.inl, fun hk => hk.elim (fun hk => hk) ?_⟩
    rintro ⟨-, rfl⟩
    unfold Has
    rw [show (w.set sam.searchSet).categories.find (appId app) = some p from h]
    rfl

theorem has_foldl_listApp : Has sam (apps.foldl (listApp env sam) w) k ↔
    Has sam w k ∨ ∃ app ∈ apps, isContent app = true ∧ appId app = k := by
  induction apps generalizing w with
  | nil => simp
  | cons app apps ih =>
    rw [List.foldl_cons, ih, has_listApp, or_assoc]
    simp only [List.mem_cons, exists_eq_or_imp]

theorem onListApps_full {payload : JValue} (h : fullList payload = some apps) :
    onListApps env sam w payload = apps.foldl (listApp env sam)
      { w with db := (Applications.removeFromDatabase env w.db).2 } := by
  unfold onListApps; rw [h]

/-! ## Exact lists -/

/-- The categories other than `sam.apps` are exactly the listed web apps with an index. -/
def Exact (sam : Sam) (w : Service) (apps : List JValue) : Prop :=
  ∀ k, (k ≠ Applications.categoryId ∧ Has sam w k) ↔
    ∃ app ∈ apps, isContent app = true ∧ appId app = k

/-- Every category but `sam.apps` is a listed web app with an index, and none of these takes the
id `sam.apps`. -/
def Covers (apps : List JValue) (sam : Sam) (w : Service) : Prop :=
  (∀ k, k ≠ Applications.categoryId → Has sam w k →
    ∃ app ∈ apps, isContent app = true ∧ appId app = k) ∧
  ∀ app ∈ apps, isContent app = true → appId app ≠ Applications.categoryId

theorem exact_iff {payload : JValue} (h : fullList payload = some apps) :
    Exact sam (onListApps env sam w payload) apps ↔ Covers apps sam w := by
  have hhas (k : String) : Has sam (onListApps env sam w payload) k ↔
      Has sam w k ∨ ∃ app ∈ apps, isContent app = true ∧ appId app = k := by
    rw [onListApps_full h, has_foldl_listApp]; rfl
  unfold Exact Covers
  simp only [hhas]
  constructor
  · intro hex
    refine ⟨fun k hk hw => (hex k).1 ⟨hk, .inl hw⟩, fun app happ hc e => ?_⟩
    exact ((hex (appId app)).2 ⟨app, happ, hc, rfl⟩).1 e
  · rintro ⟨hcov, hno⟩ k
    constructor
    · rintro ⟨hk, hw | hc⟩
      · exact hcov k hk hw
      · exact hc
    · rintro ⟨app, happ, hc, rfl⟩
      exact ⟨hno app happ hc, .inr ⟨app, happ, hc, rfl⟩⟩

/-- After an exact list, what a search accepts from SAM's set is an application or content of a
listed one. -/
theorem accepted_of_exact {item : SearchItem} {p : CategoryPtr} (h : Exact sam w apps)
    (ha : w.acceptor sam.searchSet item = some p) : item.category = Applications.categoryId ∨
      ∃ app ∈ apps, isContent app = true ∧ appId app = item.category := by
  by_cases hk : item.category = Applications.categoryId
  · exact .inl hk
  · refine .inr ((h _).1 ⟨hk, ?_⟩)
    unfold Has
    rw [show (w.set sam.searchSet).categories.find item.category = some p from
      (Option.filter_eq_some_iff.1 ha).1]
    rfl

/-- **A full list leaves exactly its content categories iff it covers the ones before it**, for
every list of every run of messages; after such a list a search returns nothing else. -/
theorem exact_run_iff (env : Env) (db : Db) (language : String) (payloads : List JValue) :
    let s := onInitialized env (start db language)
    (Each (onListApps env s.1) (fun w payload => ∀ apps, fullList payload = some apps →
        Exact s.1 (onListApps env s.1 w payload) apps) s.2 payloads ↔
      Each (onListApps env s.1) (fun w payload => ∀ apps, fullList payload = some apps →
        Covers apps s.1 w) s.2 payloads) ∧
    ∀ w apps item p, Exact s.1 w apps → w.acceptor s.1.searchSet item = some p →
      item.category = Applications.categoryId ∨
        ∃ app ∈ apps, isContent app = true ∧ appId app = item.category :=
  ⟨each_congr fun _ _ => forall₂_congr fun _ h => exact_iff h, fun _ _ _ _ => accepted_of_exact⟩

/-- A web app with an index. -/
def webApp (id : String) : JValue :=
  .obj [("id", .str id), ("type", .str "web"), ("searchIndex", .str "index.json")]

def listPayload (apps : List JValue) : JValue := .obj [("apps", .arr apps)]

/-- The second list does not contain the app any more, and its category is still there. -/
theorem not_exact_uninstalled :
    let s := onInitialized Env.sample (start .fresh "en")
    ¬Exact s.1 (run (onListApps Env.sample s.1) s.2
      [listPayload [webApp "a"], listPayload []]) [] := by
  intro s h
  obtain ⟨app, happ, -⟩ := (h "a").1 ⟨by decide, by decide⟩
  cases happ

end UnifiedSearch.Sam
