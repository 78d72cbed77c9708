import Mathlib.Data.List.Infix
import UnifiedSearch.Bus.FullList
import UnifiedSearch.Bus.UpdateRequest

/-!
# The refresh of the category rows

A full list writes every listed category that is registered back to its row,
from the object. `Keeps` says that ranks and flags of the rows that were there
survive. Writing back one category keeps them iff it is in sync with its row
(`keeps_updated_iff`); a list whose apps all are, at their turn, keeps them
(`keeps_run`).
-/

namespace UnifiedSearch

open Lib CategoryTable Database

namespace CategoryTable

variable {t t' t'' : CategoryTable} {row : CategoryRow} {cate : Category}

/-- What a refresh has to keep of a row. -/
def standing (r : CategoryRow) : Text × ℤ × Bool := (r.id, r.rank, r.enabled)

/-- The rows of `t` are still there, in order, with their ranks and flags; new ones may follow. -/
def Keeps (t t' : CategoryTable) : Prop := t.rows.map standing <+: t'.rows.map standing

instance : Decidable (Keeps t t') := inferInstanceAs (Decidable (_ <+: _))

theorem Keeps.refl (t : CategoryTable) : Keeps t t := List.prefix_rfl

theorem Keeps.trans (h : Keeps t t') (h' : Keeps t' t'') : Keeps t t'' := List.IsPrefix.trans h h'

theorem Keeps.of_rows (h : t.rows <+: t'.rows) : Keeps t t' := h.map _

/-- The object that is written back has the flag of the row, and its rank, clamped, is the row's. -/
def InSync (t : CategoryTable) (row : CategoryRow) (cate : Category) : Prop :=
  cate.enabled = row.enabled ∧ min (max cate.rank 1) t.enabledCount = row.rank

instance : Decidable (InSync t row cate) := inferInstanceAs (Decidable (_ ∧ _))

theorem newRank_of_enabled (he : cate.enabled = row.enabled) :
    t.newRank row cate = min (max cate.rank 1) t.enabledCount := by
  unfold newRank clampRank countEnabledCate
  rw [he]
  cases row.enabled <;> simp

/-- A write that is in sync shifts nothing. -/
theorem shiftedRank_of_inSync (h : InSync t row cate) (r : CategoryRow) :
    t.shiftedRank row cate r = r.rank := by
  obtain ⟨he, hr⟩ := h
  have hclamp : t.clampRank row cate = row.rank := by
    rw [← hr]
    unfold clampRank countEnabledCate
    rw [he]
    cases row.enabled <;> simp
  unfold shiftedRank shift
  rw [hclamp, he]
  by_cases hb : row.enabled = true ∧ row.rank ≠ cate.rank
  · rw [if_pos (.inr hb), if_pos hb.1, if_neg (lt_irrefl _)]
    dsimp only
    rw [if_neg (by omega)]
  · rw [if_neg (by rintro (hb' | hb'); exacts [hb' rfl, hb hb'])]

theorem keeps_iff_of_mapRows {g : CategoryRow → CategoryRow} (hg : ∀ r, (g r).id = r.id) :
    Keeps t (t.mapRows g hg) ↔ ∀ r ∈ t.rows, (g r).rank = r.rank ∧ (g r).enabled = r.enabled := by
  have hmap : (t.mapRows g hg).rows.map standing = t.rows.map fun r => standing (g r) :=
    List.map_map
  unfold Keeps
  rw [hmap]
  constructor
  · intro h r hr
    have := List.map_inj_left.1 (h.eq_of_length (by simp)) r hr
    simp only [standing, Prod.mk.injEq] at this
    exact ⟨this.2.1.symm, this.2.2.symm⟩
  · intro h
    have : t.rows.map standing = t.rows.map fun r => standing (g r) :=
      List.map_congr_left fun r hr => by simp only [standing, hg, (h r hr).1, (h r hr).2]
    rw [this]

theorem keeps_updated_iff (h : t.lookup cate.id = some row) :
    Keeps t (t.updated row cate) ↔ InSync t row cate := by
  have hmem := (lookup_eq_some_iff.1 h).1
  have hself : t.updateRow row cate row = { row with
      rank := t.newRank row cate, enabled := cate.enabled, name := newName row cate } := if_pos rfl
  refine (keeps_iff_of_mapRows fun _ => updateRow_id).trans ?_
  constructor
  · intro hk
    obtain ⟨hr, he⟩ := hk row hmem
    rw [hself] at hr he
    exact ⟨he, by rw [← newRank_of_enabled he]; exact hr⟩
  · intro hs r hr
    by_cases hid : r.id = row.id
    · have hrow : r = row := by
        have h1 := Table.find_of_mem hr
        rw [hid, find_of_lookup h] at h1
        cases h1; rfl
      rw [hrow, hself]
      exact ⟨by rw [newRank_of_enabled hs.1]; exact hs.2, hs.1⟩
    · unfold updateRow
      rw [if_neg hid]
      exact ⟨shiftedRank_of_inSync hs r, rfl⟩

end CategoryTable

namespace Sam

open Service

variable {env : Env} {sam : Sam} {w : Service} {app : JValue} {apps : List JValue}

/-- The app is in sync at its turn: its registered category with the row of its id, or, when its
content is indexed for the first time, its id has no quote in it. -/
def inSync (sam : Sam) (w : Service) (app : JValue) : Bool :=
  match w.findCategoryIn sam.searchSet (appId app) with
  | some p =>
    match w.db.category.lookup (w.category p).id with
    | some row => row.rank < 0 || InSync w.db.category row (w.category p)
    | none => true
  | none => !isContent app || '\'' ∉ (Text.ofCStr (appId app)).val.toList

theorem addToDatabase_category (env : Env) (db : Db) (app : JValue) :
    (Applications.addToDatabase env db app).2.category = db.category := by
  unfold Applications.addToDatabase
  split_ifs
  · rfl
  · exact insertItem_category env db _

theorem keeps_addAppContents
    (h : isContent app = true → '\'' ∉ (Text.ofCStr (appId app)).val.toList) :
    Keeps w.db.category (addAppContents env.healthy sam w app).2.db.category := by
  cases hc : isContent app with
  | false => rw [addAppContents_other hc]; exact .refl _
  | true =>
    rw [addAppContents_content hc, ← AppContents.category_make env w (appTitle app) app (h hc)]
    exact .of_rows (addCategory_db _ _ _ _).2

theorem keeps_updateCategory_iff (db : Db) (cate : Category) :
    Keeps db.category (updateCategory noFault db cate).2.category ↔
      ∀ row, db.category.lookup cate.id = some row → 0 ≤ row.rank →
        InSync db.category row cate := by
  obtain ⟨hneg, heq⟩ | ⟨row, clock, hl, h0, heq⟩ := updateCategory_cases db cate
  · rw [heq]
    exact iff_of_true (.refl _) fun row hrow h0 => absurd h0 (not_le.2 (hneg row hrow))
  · rw [heq, hl]
    refine (keeps_updated_iff hl).trans ⟨fun hs row' hrow _ => ?_, fun hs => hs row rfl h0⟩
    cases hrow
    exact hs

/-- A listed app whose category is registered keeps the rows iff it is in sync. -/
theorem listApp_keeps_iff {p : CategoryPtr}
    (h : w.findCategoryIn sam.searchSet (appId app) = some p) :
    Keeps w.db.category (listApp env.healthy sam w app).db.category ↔ inSync sam w app = true := by
  have hk := keeps_updateCategory_iff (Applications.addToDatabase env.healthy w.db app).2
    { w.category p with name := appTitle app }
  rw [addToDatabase_category] at hk
  rw [listApp_registered h]
  refine hk.trans ?_
  unfold inSync
  rw [h]
  dsimp only
  cases w.db.category.lookup (w.category p).id with
  | none => simp
  | some row =>
    simp only [Option.some.injEq, forall_eq', Bool.or_eq_true, decide_eq_true_eq, ← not_le]
    rw [imp_iff_not_or]
    rfl

theorem listApp_keeps (h : inSync sam w app = true) :
    Keeps w.db.category (listApp env.healthy sam w app).db.category := by
  cases hf : w.findCategoryIn sam.searchSet (appId app) with
  | some p => exact (listApp_keeps_iff hf).2 h
  | none =>
    unfold inSync at h
    rw [hf] at h
    have hquote : isContent app = true → '\'' ∉ (Text.ofCStr (appId app)).val.toList := fun hc => by
      rw [hc] at h; simpa using h
    rw [listApp_new hf]
    refine Keeps.trans ?_ (keeps_addAppContents hquote)
    rw [addToDatabase_category]
    exact .refl _

theorem foldl_listApp_keeps
    (h : Each (listApp env.healthy sam) (fun w app => inSync sam w app = true) w apps) :
    Keeps w.db.category (apps.foldl (listApp env.healthy sam) w).db.category := by
  induction apps generalizing w with
  | nil => exact .refl _
  | cons app apps ih => exact (listApp_keeps h.1).trans (ih h.2)

/-! ## Runs of messages and requests -/

/-- An event of the service. -/
inductive Event where
  | listApps (payload : JValue)
  | updateCategory (requestPayload : JValue)

def Event.step (env : Env) (sam : Sam) (w : Service) : Event → Service
  | .listApps payload => onListApps env sam w payload
  | .updateCategory requestPayload => (Bus.updateCategory env w requestPayload).2

/-- The apps of an event that is a full list. -/
def Event.list : Event → Option (List JValue)
  | .listApps payload => fullList payload
  | .updateCategory _ => none

/-- Every listed app is in sync at its turn. -/
def ListInSync (env : Env) (sam : Sam) (w : Service) (event : Event) : Prop :=
  ∀ apps ∈ event.list, Each (listApp env sam) (fun w app => inSync sam w app = true)
    { w with db := (Applications.removeFromDatabase env w.db).2 } apps

/-- A full list keeps the rows that were there. -/
def ListKeeps (env : Env) (sam : Sam) (w : Service) (event : Event) : Prop :=
  ∀ apps ∈ event.list, Keeps w.db.category (event.step env sam w).db.category

theorem removeFromDatabase_eq (db : Db) : (Applications.removeFromDatabase env.healthy db).2 =
    ⟨{ db.toTables with items := deleted db.items Applications.categoryId "" }, db.clock + 1⟩ :=
  removeItem_eq (by decide) (by decide)

theorem list_keeps {event : Event} (h : ListInSync env.healthy sam w event) :
    ListKeeps env.healthy sam w event := by
  intro apps happs
  cases event with
  | updateCategory requestPayload => cases happs
  | listApps payload =>
    have hk := foldl_listApp_keeps (h apps happs)
    rw [removeFromDatabase_eq] at hk
    show Keeps _ (onListApps env.healthy sam w payload).db.category
    rw [onListApps_full happs, removeFromDatabase_eq]
    exact hk

instance (env : Env) (sam : Sam) (w : Service) (event : Event) :
    Decidable (ListInSync env sam w event) :=
  inferInstanceAs (Decidable (∀ apps ∈ event.list, Each _ _ _ apps))

/-- **The refresh keeps ranks and flags** along every run of messages and requests whose full lists
are in sync; for a listed app whose category is registered, being in sync is also necessary. -/
theorem keeps_run (env : Env) (db : Db) (language : String) (events : List Event) :
    let s := onInitialized env.healthy (start db language)
    (Each (Event.step env.healthy s.1) (ListInSync env.healthy s.1) s.2 events →
      Each (Event.step env.healthy s.1) (ListKeeps env.healthy s.1) s.2 events) ∧
    ∀ w app p, w.findCategoryIn s.1.searchSet (appId app) = some p →
      (Keeps w.db.category (listApp env.healthy s.1 w app).db.category ↔
        inSync s.1 w app = true) :=
  ⟨fun h => h.imp fun _ _ => list_keeps, fun _ _ _ => listApp_keeps_iff⟩

def rankRequest (id : String) (rank : ℚ) : JValue := .obj [("id", .str id), ("rank", .num rank)]

/-- A request that changes no rank, between two lists. -/
def syncedEvents : List Event := [
  .listApps (listPayload [webApp "a", webApp "b"]), .updateCategory (rankRequest "a" 2),
  .listApps (listPayload [webApp "b", webApp "a", webApp "c"])]

theorem keeps_run_sample :
    let s := onInitialized Env.sample.healthy (start .fresh "en")
    Each (Event.step Env.sample.healthy s.1) (ListKeeps Env.sample.healthy s.1) s.2 syncedEvents :=
  (keeps_run Env.sample .fresh "en" syncedEvents).1 (by decide +kernel)

/-- The user moves `b` to the front, and the next list puts the old order back. -/
theorem not_listKeeps_reordered :
    let s := onInitialized Env.sample.healthy (start .fresh "en")
    let apps := [webApp "a", webApp "b"]
    ¬ListKeeps Env.sample.healthy s.1 (run (Event.step Env.sample.healthy s.1) s.2
      [.listApps (listPayload apps), .updateCategory (rankRequest "b" 1)])
      (.listApps (listPayload apps)) := by
  intro s apps h
  have hk := h apps rfl
  revert hk
  decide +kernel

end Sam

end UnifiedSearch
