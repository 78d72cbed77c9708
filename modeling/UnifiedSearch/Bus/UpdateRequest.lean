import UnifiedSearch.Base.CategoryTable
import UnifiedSearch.Bus.Methods

/-!
# The `updateCategory` method

What a request does, by cases: refused by a check, refused by the database,
written to both stores, or written to the database only. The last case is the
late exit of the method, and it is the only one in which the request is not
all-or-nothing (`allOrNothing_iff`).
-/

namespace UnifiedSearch.Bus

open Lib CategoryTable

variable {env : Env} {w : Service} {requestPayload responsePayload : JValue} {cate : Category}
  {row : CategoryRow} {org : CategoryPtr}

/-- The id a request asks for. -/
def requestedId (requestPayload : JValue) : String :=
  (JValueUtil.getString requestPayload "id" "").2

/-- The enabled flag a request asks for: enabled when it says nothing. -/
def requestedEnabled (requestPayload : JValue) : Bool :=
  (JValueUtil.getBool requestPayload "enabled" true).2

/-! ## The cases -/

theorem readUpdate_error (h : readUpdate requestPayload = .error responsePayload) :
    ∃ code text, responsePayload = failed code text := by
  unfold readUpdate at h
  dsimp only at h
  split_ifs at h <;> (cases h; exact ⟨_, _, rfl⟩)

theorem readUpdate_ok (h : readUpdate requestPayload = .ok cate) :
    cate.id = requestedId requestPayload ∧ cate.enabled = requestedEnabled requestPayload := by
  unfold readUpdate at h
  dsimp only at h
  split_ifs at h
  all_goals cases h; exact ⟨rfl, rfl⟩

theorem updateCategory_rejected (h : readUpdate requestPayload = .error responsePayload) :
    updateCategory env w requestPayload = (responsePayload, w) := by
  unfold updateCategory; rw [h]

/-- No row, or one that `updateCategory` takes for none. -/
theorem updateCategory_refused (h : readUpdate requestPayload = .ok cate)
    (hrow : ∀ row, w.db.category.lookup cate.id = some row → row.rank < 0) :
    updateCategory env w requestPayload = (failed 205 "Internal database error.", w) := by
  have hdb : Database.updateCategory env.fault w.db cate = (false, w.db) := by
    cases hl : w.db.category.lookup cate.id with
    | none => exact updateCategory_absent hl
    | some row => exact updateCategory_negative hl (hrow row hl)
  unfold updateCategory
  rw [h]
  simp only [hdb]

section Written

variable (env) (h : readUpdate requestPayload = .ok cate)
  (hrow : w.db.category.lookup cate.id = some row) (h0 : 0 ≤ row.rank)
include h hrow h0

/-- The late exit: the database is written, nothing else is. -/
theorem updateCategory_late (horg : w.findCategory cate.id = none) :
    ∃ clock, updateCategory env.healthy w requestPayload =
      (.object, { w with db := ⟨{ w.db.toTables with
        category := w.db.category.updated row cate }, clock⟩ }) := by
  obtain ⟨clock, heq⟩ := updateCategory_eq hrow h0
  refine ⟨clock, ?_⟩
  unfold updateCategory
  rw [h]
  simp only [Env.fault_healthy, heq]
  have hfind (db : Db) : { w with db }.findCategory cate.id = none := horg
  simp only [hfind]

theorem updateCategory_done (horg : w.findCategory cate.id = some org) :
    ∃ clock, updateCategory env.healthy w requestPayload =
      (JValue.object.put "returnValue" (.bool true),
        { w with db := ⟨{ w.db.toTables with
          category := w.db.category.updated row cate }, clock⟩ }.setEnabled org cate.enabled) := by
  obtain ⟨clock, heq⟩ := updateCategory_eq hrow h0
  refine ⟨clock, ?_⟩
  unfold updateCategory
  rw [h]
  simp only [Env.fault_healthy, heq]
  have hfind (db : Db) : { w with db }.findCategory cate.id = some org := horg
  simp only [hfind]

end Written

/-! ## All or nothing -/

/-- Either the response says true and both stores have the requested flag, or it says false with an
error code and nothing changed. -/
def AllOrNothing (w : Service) (requestPayload : JValue) (result : JValue × Service) : Prop :=
  (JValueUtil.getBool result.1 "returnValue" false = (true, true) ∧
    (∃ row, result.2.db.category.lookup (requestedId requestPayload) = some row ∧
      row.enabled = requestedEnabled requestPayload) ∧
    ∃ p, result.2.findCategory (requestedId requestPayload) = some p ∧
      (result.2.category p).enabled = requestedEnabled requestPayload) ∨
  (JValueUtil.getBool result.1 "returnValue" true = (true, false) ∧
    (result.1.get "errorCode").isSome ∧ result.2.db.category = w.db.category ∧
    result.2.categories = w.categories)

/-- The request is accepted and its id has a row, but no attached set has a category with it. -/
def Orphaned (w : Service) (requestPayload : JValue) : Prop :=
  ∃ cate row, readUpdate requestPayload = .ok cate ∧
    w.db.category.lookup cate.id = some row ∧ 0 ≤ row.rank ∧
    ∀ s ∈ w.searchSets.values, (w.set s).categories.find cate.id = none

theorem findCategory_eq_none_iff {id : String} : w.findCategory id = none ↔
    ∀ s ∈ w.searchSets.values, (w.set s).categories.find id = none := List.findSome?_eq_none_iff

theorem allOrNothing_failed (code : ℚ) (text : String) :
    AllOrNothing w requestPayload (failed code text, w) := .inr ⟨rfl, rfl, rfl, rfl⟩

theorem not_allOrNothing_object (w' : Service) :
    ¬AllOrNothing w requestPayload (.object, w') := by
  have h1 : JValueUtil.getBool .object "returnValue" false ≠ (true, true) := by decide
  have h2 : JValueUtil.getBool .object "returnValue" true ≠ (true, false) := by decide
  rintro (⟨h, -⟩ | ⟨h, -⟩)
  · exact h1 h
  · exact h2 h

/-- **A request is all-or-nothing iff it does not ask for an orphaned row.** -/
theorem allOrNothing_iff (env : Env) (w : Service) (requestPayload : JValue) :
    AllOrNothing w requestPayload (updateCategory env.healthy w requestPayload) ↔
      ¬Orphaned w requestPayload := by
  cases hread : readUpdate requestPayload with
  | error responsePayload =>
    obtain ⟨code, text, rfl⟩ := readUpdate_error hread
    rw [updateCategory_rejected hread]
    refine iff_of_true (allOrNothing_failed code text) ?_
    rintro ⟨cate, row, hok, -⟩
    rw [hread] at hok; cases hok
  | ok cate =>
    obtain ⟨hid, hen⟩ := readUpdate_ok hread
    by_cases hrow : ∃ row, w.db.category.lookup cate.id = some row ∧ 0 ≤ row.rank
    · obtain ⟨row, hrow, h0⟩ := hrow
      cases horg : w.findCategory cate.id with
      | none =>
        obtain ⟨clock, heq⟩ := updateCategory_late env hread hrow h0 horg
        rw [heq]
        refine iff_of_false (not_allOrNothing_object _) (not_not.2 ?_)
        exact ⟨cate, row, hread, hrow, h0, findCategory_eq_none_iff.1 horg⟩
      | some org =>
        obtain ⟨clock, heq⟩ := updateCategory_done env hread hrow h0 horg
        rw [heq]
        refine iff_of_true
          (.inl ⟨rfl, ⟨w.db.category.updateRow row cate row, ?_, ?_⟩, org, ?_, ?_⟩) ?_
        · rw [← hid]
          exact lookup_updated.trans (by rw [hrow]; rfl)
        · rw [updateRow_enabled, if_pos rfl, hen]
        · rw [← hid]; exact horg
        · rw [Service.setEnabled, Service.category_write, if_pos rfl]; exact hen
        · rintro ⟨cate', row', hok, -, -, hnone⟩
          rw [hread] at hok; cases hok
          rw [findCategory_eq_none_iff.2 hnone] at horg; cases horg
    · have hneg : ∀ row, w.db.category.lookup cate.id = some row → row.rank < 0 := fun row hr =>
        not_le.1 fun h0 => hrow ⟨row, hr, h0⟩
      rw [updateCategory_refused hread hneg]
      refine iff_of_true (allOrNothing_failed _ _) ?_
      rintro ⟨cate', row', hok, hr, h0, -⟩
      rw [hread] at hok; cases hok
      exact hrow ⟨row', hr, h0⟩

/-- A registered category that was taken out of its set again. -/
def removedService : Service :=
  let w : Service :=
    { db := .fresh
      categories := ⟨1, fun _ => { id := "a" }⟩
      sets := ⟨1, fun _ => { id := "media", source := fun _ _ => [] }⟩
      searchSets := .empty
      language := "en" }
  let w := (w.addSearchSet .sample 0).2
  let w := (w.addCategory .sample 0 0).2
  (w.removeCategory .sample 0 "a").2

def disableRequest : JValue := (JValue.object.put "id" (.str "a")).put "enabled" (.bool false)

/-- Its row is still there, so a request is written to the database and answered with nothing. -/
theorem not_allOrNothing_removed : ¬AllOrNothing removedService disableRequest
    (updateCategory .sample removedService disableRequest) := by
  rintro (⟨h, -⟩ | ⟨h, -⟩) <;> exact absurd h (by decide)

end UnifiedSearch.Bus
