import UnifiedSearch.Base.CategoryTable

/-!
# Updates whose statements fail

An update is two writes without a transaction. If the first one, the shift of
the ranks, fails then the process ends in its log line, and the update gives no
result (`updateCategory?_eq_none_iff`). Every update that gives one is all or
nothing exactly when it is not `Torn`: the shift succeeds and meets a row, and
the write of the row fails.
-/

namespace UnifiedSearch

open Lib Database CategoryTable

variable {fault : ℕ → Bool} {db : Db} {cate : Category} {row : CategoryRow}

/-- An update that gives false leaves the table, and one that gives true makes the table that
a run without failures makes. -/
def UpdateAtomic (fault : ℕ → Bool) (db : Db) (cate : Category) : Prop :=
  ∀ ok db', updateCategory? fault db cate = some (ok, db') →
    (ok = false → db'.category = db.category) ∧
    (ok = true → ∃ db'', updateCategory? noFault db cate = some (true, db'') ∧
      db'.category = db''.category)

/-- The shift of an update is made, and there is an enabled row in its range; then the write of
the updated row fails. -/
def Torn (fault : ℕ → Bool) (db : Db) (cate : Category) : Prop :=
  ∃ row value start stop, db.category.lookup cate.id = some row ∧ 0 ≤ row.rank ∧
    db.category.shift row cate = some (value, start, stop) ∧
    fault db.clock = false ∧ fault (db.clock + 1) = true ∧
    ∃ r ∈ db.category.rows, r.enabled = true ∧ start ≤ r.rank ∧ r.rank ≤ stop

/-! ## One statement -/

theorem step_changerank_fault (value start stop : ℤ) :
    db.step fault "CATE_CHANGERANK" [.int value, .int start, .int stop] =
      if fault db.clock then (false, ⟨db.toTables, db.clock + 1⟩)
      else (true, ⟨{ db.toTables with category := db.category.shiftRanks value start stop },
        db.clock + 1⟩) := by
  have hq : statementQueries.lookup "CATE_CHANGERANK" = some .cateChangerank := rfl
  unfold Db.step
  simp only [hq]
  cases fault db.clock <;> rfl

theorem step_cateUpdate_fault (rank : ℤ) (enabled : Bool) (name id : Text) :
    db.step fault "CATE_UPDATE" [.int rank, .bool enabled, .text name, .text id] =
      if fault db.clock then (false, ⟨db.toTables, db.clock + 1⟩)
      else (true, ⟨{ db.toTables with category := db.category.setRow rank enabled name id },
        db.clock + 1⟩) := by
  have hq : statementQueries.lookup "CATE_UPDATE" = some .cateUpdate := rfl
  unfold Db.step
  simp only [hq]
  cases fault db.clock
  · cases enabled <;> rfl
  · rfl

/-! ## What each statement changes -/

theorem shiftRanks_eq_self {t : CategoryTable} {value start stop : ℤ} (hv : value ≠ 0) :
    t.shiftRanks value start stop = t ↔
      ¬ ∃ r ∈ t.rows, r.enabled = true ∧ start ≤ r.rank ∧ r.rank ≤ stop := by
  unfold CategoryTable.shiftRanks Table.update
  rw [Table.mapRows_eq_self]
  simp only [not_exists, not_and]
  refine forall₂_congr fun r _ => ?_
  simp only [Bool.and_eq_true, decide_eq_true_eq, and_assoc]
  split_ifs with hr
  · refine iff_of_false (fun e => hv ?_) fun h => h hr.1 hr.2.1 hr.2.2
    simpa using congrArg CategoryRow.rank e
  · exact iff_of_true rfl fun h1 h2 h3 => hr ⟨h1, h2, h3⟩

theorem shift_value_ne_zero {t : CategoryTable} {value start stop : ℤ}
    (hs : t.shift row cate = some (value, start, stop)) : value ≠ 0 := by
  unfold shift at hs
  split_ifs at hs <;> cases hs <;> decide

/-! ## The two together -/

theorem updateRanks?_eq (value start stop : ℤ) : updateRanks? fault db value start stop =
    if fault db.clock then none
    else some (true, ⟨{ db.toTables with category := db.category.shiftRanks value start stop },
      db.clock + 1⟩) := by
  unfold updateRanks? updateRanks
  rw [step_changerank_fault]
  cases fault db.clock <;> rfl

theorem updateCategory?_absent (h : db.category.lookup cate.id = none) :
    updateCategory? fault db cate = some (false, db) := updateCategoryM_absent h

theorem updateCategory?_negative (h : db.category.lookup cate.id = some row)
    (h0 : row.rank < 0) : updateCategory? fault db cate = some (false, db) :=
  updateCategoryM_negative h h0

theorem updateCategory?_unshifted (h : db.category.lookup cate.id = some row)
    (h0 : 0 ≤ row.rank) (hs : db.category.shift row cate = none) :
    updateCategory? fault db cate = some (if fault db.clock then
      (false, ⟨db.toTables, db.clock + 1⟩)
    else
      (true, ⟨{ db.toTables with category := db.category.updated row cate }, db.clock + 1⟩)) := by
  unfold updateCategory?
  rw [updateCategoryM_steps h h0]
  simp only [shiftStepM, hs, map_pure, step_cateUpdate_fault, setRow_eq hs]
  rfl

theorem updateCategory?_shifted {value start stop : ℤ}
    (h : db.category.lookup cate.id = some row) (h0 : 0 ≤ row.rank)
    (hs : db.category.shift row cate = some (value, start, stop)) :
    updateCategory? fault db cate = if fault db.clock then none else some
      (if fault (db.clock + 1) then
        (false, ⟨{ db.toTables with category := db.category.shiftRanks value start stop },
          db.clock + 2⟩)
      else (true, ⟨{ db.toTables with category := db.category.updated row cate },
        db.clock + 2⟩)) := by
  unfold updateCategory?
  rw [updateCategoryM_steps h h0]
  simp only [shiftStepM, hs, updateRanks?_eq]
  cases fault db.clock
  · simp [step_cateUpdate_fault, setRow_shiftRanks hs]
  · rfl

/-- **An update has undefined behaviour exactly when a shift is needed and fails.** -/
theorem updateCategory?_eq_none_iff : updateCategory? fault db cate = none ↔
    ∃ row, db.category.lookup cate.id = some row ∧ 0 ≤ row.rank ∧
      db.category.shift row cate ≠ none ∧ fault db.clock = true := by
  cases h : db.category.lookup cate.id with
  | none => simp [updateCategory?_absent h]
  | some row =>
    by_cases h0 : row.rank < 0
    · simp [updateCategory?_negative h h0, h0]
    · cases hs : db.category.shift row cate with
      | none => simp [updateCategory?_unshifted h (not_lt.1 h0) hs, hs]
      | some range => simp [updateCategory?_shifted h (not_lt.1 h0) hs, hs, not_lt.1 h0]

/-- Elsewhere it is what `updateCategory` gives. -/
theorem updateCategory?_eq_some (h : updateCategory? fault db cate ≠ none) :
    updateCategory? fault db cate = some (updateCategory fault db cate) := by
  cases hl : db.category.lookup cate.id with
  | none => rw [updateCategory?_absent hl, updateCategory_absent hl]
  | some row =>
    by_cases h0 : row.rank < 0
    · rw [updateCategory?_negative hl h0, updateCategory_negative hl h0]
    · cases hs : db.category.shift row cate with
      | none =>
        rw [updateCategory?_unshifted hl (not_lt.1 h0) hs, updateCategory_steps hl (not_lt.1 h0)]
        simp only [shiftStep, hs, step_cateUpdate_fault, setRow_eq hs]
      | some range =>
        obtain ⟨value, start, stop⟩ := range
        rw [updateCategory?_shifted hl (not_lt.1 h0) hs] at h ⊢
        rw [updateCategory_steps hl (not_lt.1 h0)]
        cases hf : fault db.clock with
        | true => exact absurd (if_pos hf) h
        | false =>
          have hshift : shiftStep fault db row cate = ⟨{ db.toTables with
              category := db.category.shiftRanks value start stop }, db.clock + 1⟩ := by
            unfold shiftStep
            rw [hs]
            simp [updateRanks, step_changerank_fault, hf]
          rw [hshift, step_cateUpdate_fault, setRow_shiftRanks hs]
          rfl

theorem updateAtomic_of_fails (h : updateCategory? fault db cate = some (false, db)) :
    UpdateAtomic fault db cate := by
  intro ok db' heq
  cases h.symm.trans heq
  exact ⟨fun _ => rfl, nofun⟩

theorem updateAtomic_unshifted (h : db.category.lookup cate.id = some row) (h0 : 0 ≤ row.rank)
    (hs : db.category.shift row cate = none) : UpdateAtomic fault db cate := by
  have hgood := @updateCategory?_unshifted noFault db cate row h h0 hs
  intro ok db' heq
  rw [updateCategory?_unshifted h h0 hs] at heq
  cases hf : fault db.clock <;> rw [hf] at heq <;> cases heq
  · exact ⟨nofun, fun _ => ⟨_, hgood, rfl⟩⟩
  · exact ⟨fun _ => rfl, nofun⟩

theorem updateAtomic_shifted {value start stop : ℤ} (h : db.category.lookup cate.id = some row)
    (h0 : 0 ≤ row.rank) (hs : db.category.shift row cate = some (value, start, stop)) :
    UpdateAtomic fault db cate ↔ ¬ (fault db.clock = false ∧ fault (db.clock + 1) = true ∧
      ∃ r ∈ db.category.rows, r.enabled = true ∧ start ≤ r.rank ∧ r.rank ≤ stop) := by
  have hgood := @updateCategory?_shifted noFault db cate row value start stop h h0 hs
  have hself := @shiftRanks_eq_self db.category value start stop (shift_value_ne_zero hs)
  unfold UpdateAtomic
  rw [updateCategory?_shifted h h0 hs, hgood]
  -- which of the two statements fail
  cases h1 : fault db.clock <;> cases h2 : fault (db.clock + 1)
  · simp [noFault]
  · simpa using hself
  · simp
  · simp

/-- Two enabled categories; the second one is put in front, and the write of its row fails. -/
def tornDb : Db := ⟨⟨⟨[⟨⟨"a", by decide⟩, ⟨"A", by decide⟩, 1, true⟩,
  ⟨⟨"b", by decide⟩, ⟨"B", by decide⟩, 2, true⟩], by decide⟩, []⟩, 0⟩

end UnifiedSearch
