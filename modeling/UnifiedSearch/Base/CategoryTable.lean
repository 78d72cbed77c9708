import UnifiedSearch.Base.Database

/-!
# What the category methods do to the table

`updateCategory_eq` is the one description of a successful update: every row is
rewritten by `updateRow`, which sets the row of the category and shifts the
ranks of the others. `adjustOrCreateCategory_adjust` and `_create` are the two
ways of a registration, and a removal changes nothing
(`removeCategory_eq`). Later modules use these and never unfold the code again.
-/

namespace UnifiedSearch

open Lib Database

namespace CategoryTable

variable {t : CategoryTable} {id : String} {row r : CategoryRow} {cate : Category}

/-- The row whose id is the string `id`. -/
def lookup (t : CategoryTable) (id : String) : Option CategoryRow :=
  t.rows.find? fun r => r.id.val = id

/-- The number of enabled rows. -/
def enabledCount (t : CategoryTable) : ℤ := ((t.rows.filter (·.enabled)).length : ℤ)

/-- `countEnabledCate` at the end of the loop. -/
def countEnabledCate (t : CategoryTable) (row : CategoryRow) (cate : Category) : ℤ :=
  t.enabledCount + if !row.enabled && cate.enabled then 1 else 0

/-- The requested rank, "re-ranged". -/
def clampRank (t : CategoryTable) (row : CategoryRow) (cate : Category) : ℤ :=
  min (max cate.rank 1) (t.countEnabledCate row cate)

/-- The rank written to the row of the category. -/
def newRank (t : CategoryTable) (row : CategoryRow) (cate : Category) : ℤ :=
  if row.enabled && !cate.enabled then RANK_MAX else t.clampRank row cate

/-- The name written to the row of the category. -/
def newName (row : CategoryRow) (cate : Category) : Text :=
  if cate.name = "" then row.name else .ofCStr cate.name

/-- The range shift of the update: `(value, start, end)` of `updateRanks`. -/
def shift (t : CategoryTable) (row : CategoryRow) (cate : Category) : Option (ℤ × ℤ × ℤ) :=
  if row.enabled ≠ cate.enabled ∨ cate.enabled = true ∧ row.rank ≠ cate.rank then
    if cate.enabled then
      if row.rank < t.clampRank row cate then some (-1, row.rank + 1, t.clampRank row cate)
      else some (1, t.clampRank row cate, row.rank - 1)
    else some (-1, row.rank, RANK_MAX)
  else none

/-- The rank of another row after the update. -/
def shiftedRank (t : CategoryTable) (row : CategoryRow) (cate : Category) (r : CategoryRow) : ℤ :=
  match t.shift row cate with
  | some (value, start, stop) =>
    if r.enabled = true ∧ start ≤ r.rank ∧ r.rank ≤ stop then r.rank + value else r.rank
  | none => r.rank

/-- What the update makes of each row. -/
def updateRow (t : CategoryTable) (row : CategoryRow) (cate : Category) (r : CategoryRow) :
    CategoryRow :=
  if r.id = row.id then
    { r with rank := t.newRank row cate, enabled := cate.enabled, name := newName row cate }
  else { r with rank := t.shiftedRank row cate r }

theorem updateRow_id : (t.updateRow row cate r).id = r.id := by
  unfold updateRow; split <;> rfl

/-- The table after a successful update. -/
def updated (t : CategoryTable) (row : CategoryRow) (cate : Category) : CategoryTable :=
  t.mapRows (t.updateRow row cate) fun _ => updateRow_id

theorem lookup_eq_some_iff : t.lookup id = some row ↔ row ∈ t.rows ∧ row.id.val = id := by
  unfold lookup
  constructor
  · intro h
    exact ⟨List.mem_of_find?_eq_some h, by simpa using List.find?_some h⟩
  · rintro ⟨hm, rfl⟩
    have := Table.find_of_mem hm
    unfold Table.find at this
    simpa [Text.ext_iff] using this

theorem lookup_eq_none_iff : t.lookup id = none ↔ ∀ r ∈ t.rows, r.id.val ≠ id := by
  simp [lookup]

theorem ofCStr_of_lookup (h : t.lookup id = some row) : Text.ofCStr id = row.id := by
  rw [← (lookup_eq_some_iff.1 h).2, Text.ofCStr_val]

theorem find_of_lookup (h : t.lookup id = some row) : t.find row.id = some row :=
  Table.find_of_mem (lookup_eq_some_iff.1 h).1

theorem lookup_val (k : Text) : t.lookup k.val = t.find k := by
  simp [lookup, Table.find, Text.ext_iff]

theorem lookup_eq_find (h : NulFree id) : t.lookup id = t.find (.ofCStr id) := by
  rw [← lookup_val, Text.ofCStr_of_nulFree h]

theorem nulFree_of_lookup (h : t.lookup id = some row) : NulFree id :=
  (lookup_eq_some_iff.1 h).2 ▸ row.id.nulFree

theorem lookup_eq_none_of_nul (hn : ¬NulFree id) : t.lookup id = none :=
  Option.eq_none_iff_forall_ne_some.2 fun _ hl => hn (nulFree_of_lookup hl)

theorem lookup_insert {t' : CategoryTable} (h : t.insert r = some t') :
    t'.lookup id = if r.id.val = id then some r else t.lookup id := by
  by_cases hn : NulFree id
  · have hid : r.id = .ofCStr id ↔ r.id.val = id := by
      rw [Text.ext_iff, Text.ofCStr_of_nulFree hn]
    rw [lookup_eq_find hn, lookup_eq_find hn, Table.find_insert h]
    simp only [hid]
  · have hne : r.id.val ≠ id := fun e => hn (e ▸ r.id.nulFree)
    rw [lookup_eq_none_of_nul hn, lookup_eq_none_of_nul hn, if_neg hne]

/-! ## Reading the updated table -/

theorem find_updated : (t.updated row cate).find k = (t.find k).map (t.updateRow row cate) :=
  Table.find_mapRows ..

theorem find_updated_self (h : t.lookup id = some row) :
    (t.updated row cate).find row.id = some { row with
      rank := t.newRank row cate, enabled := cate.enabled, name := newName row cate } := by
  rw [find_updated, find_of_lookup h]
  simp [updateRow]

theorem find_updated_other (hk : k ≠ row.id) : (t.updated row cate).find k =
    (t.find k).map fun r => { r with rank := t.shiftedRank row cate r } := by
  rw [find_updated]
  cases h : t.find k with
  | none => rfl
  | some r => simp [updateRow, Table.key_of_find h, hk]

theorem lookup_mapRows {g : CategoryRow → CategoryRow} {hg : ∀ r, (g r).id = r.id} :
    lookup (t.mapRows g hg) id = (t.lookup id).map g := by
  unfold lookup Table.mapRows
  rw [List.find?_map]
  congr 2
  funext r
  simp only [Function.comp, hg]

theorem lookup_updated :
    (t.updated row cate).lookup id = (t.lookup id).map (t.updateRow row cate) :=
  lookup_mapRows

theorem updateRow_enabled :
    (t.updateRow row cate r).enabled = if r.id = row.id then cate.enabled else r.enabled := by
  unfold updateRow; split <;> rfl

end CategoryTable

open CategoryTable

/-! ## Statements by name -/

section Statements

variable {fault : ℕ → Bool} {db : Db}

theorem rows_cateRank (db : Db) : db.rows "CATE_RANK" [] = db.category.orderBy (·.rank) := rfl

theorem rows_cateSelect (db : Db) (id : String) :
    db.rows "CATE_SELECT" [.cstr id] = (db.category.find (.ofCStr id)).toList := Table.filter_key

theorem step_cateUpdate (rank : ℤ) (enabled : Bool) (name id : Text) :
    db.step noFault "CATE_UPDATE" [.int rank, .bool enabled, .text name, .text id] =
      (true, ⟨{ db.toTables with category := db.category.setRow rank enabled name id },
        db.clock + 1⟩) := by
  cases enabled <;> rfl

theorem step_changerank (value start stop : ℤ) :
    db.step noFault "CATE_CHANGERANK" [.int value, .int start, .int stop] =
      (true, ⟨{ db.toTables with category := db.category.shiftRanks value start stop },
        db.clock + 1⟩) := rfl

theorem step_unprepared {name : String} (h : statementQueries.lookup name = none)
    (args : List SqlValue) : db.step fault name args = (false, db) := by
  unfold Db.step; rw [h]

end Statements

/-! ## The loop over the rows -/

theorem foldl_scanRow_absent {cate : Category} {rows : List CategoryRow} (s : Scan)
    (h : ∀ r ∈ rows, cate.id ≠ r.id.val) :
    rows.foldl (scanRow cate) s =
      { s with
        countEnabledCate := s.countEnabledCate + ((rows.filter (·.enabled)).length : ℤ) } := by
  induction rows generalizing s with
  | nil => simp
  | cons r rows ih =>
    rw [List.foldl_cons, ih _ fun r hr => h r (List.mem_cons_of_mem _ hr)]
    unfold scanRow
    rw [if_neg (h r List.mem_cons_self)]
    cases he : r.enabled <;> simp [he]; omega

theorem foldl_scanRow_present {cate : Category} {pre post : List CategoryRow} {row : CategoryRow}
    (s : Scan) (hrow : cate.id = row.id.val) (hpre : ∀ r ∈ pre, cate.id ≠ r.id.val)
    (hpost : ∀ r ∈ post, cate.id ≠ r.id.val) :
    (pre ++ row :: post).foldl (scanRow cate) s =
      { name := if s.name = "" then row.name.val else s.name
        oldRank := row.rank
        oldEnabled := row.enabled
        countEnabledCate := s.countEnabledCate +
          (((pre ++ row :: post).filter (·.enabled)).length : ℤ) +
            if !row.enabled && cate.enabled then 1 else 0 } := by
  rw [List.foldl_append, List.foldl_cons, foldl_scanRow_absent s hpre,
    foldl_scanRow_absent _ hpost]
  unfold scanRow
  rw [if_pos hrow]
  cases he : row.enabled <;> cases hc : cate.enabled <;> by_cases hn : s.name = "" <;>
    simp [he, hn] <;> omega

theorem scan_eq {t : CategoryTable} {cate : Category} {row : CategoryRow}
    (h : t.lookup cate.id = some row) :
    (t.orderBy (·.rank)).foldl (scanRow cate)
        { name := cate.name, oldRank := -1, oldEnabled := false, countEnabledCate := 0 } =
      { name := if cate.name = "" then row.name.val else cate.name
        oldRank := row.rank
        oldEnabled := row.enabled
        countEnabledCate := t.countEnabledCate row cate } := by
  obtain ⟨hm, hid⟩ := lookup_eq_some_iff.1 h
  obtain ⟨pre, post, hl⟩ := List.append_of_mem (Table.mem_orderBy (f := (·.rank)) |>.2 hm)
  have hnd := t.nodup_keys_orderBy (·.rank)
  have hlen : (((t.orderBy (·.rank)).filter (·.enabled)).length : ℤ) = t.enabledCount := by
    rw [((t.orderBy_perm (·.rank)).filter _).length_eq]; rfl
  rw [hl] at hnd hlen ⊢
  rw [List.map_append, List.map_cons, List.nodup_append, List.nodup_cons] at hnd
  obtain ⟨-, ⟨hpost, -⟩, hpre⟩ := hnd
  have hne {r : CategoryRow} (e : cate.id = r.id.val) : r.id = row.id :=
    Text.ext (e.symm.trans hid.symm)
  rw [foldl_scanRow_present _ hid.symm
    (fun r hr e => hpre _ (List.mem_map_of_mem hr) _ List.mem_cons_self (hne e))
    (fun r hr e => hpost (hne e ▸ List.mem_map_of_mem hr)), hlen]
  simp [countEnabledCate]

/-! ## The update -/

section Update

variable {fault : ℕ → Bool} {db : Db} {cate : Category} {row : CategoryRow} {m : Type → Type}
  [Monad m] {ranks : Db → ℤ → ℤ → ℤ → m (Bool × Db)}

theorem updateCategoryM_absent (h : db.category.lookup cate.id = none) :
    updateCategoryM ranks fault db cate = pure (false, db) := by
  have ha : ∀ r ∈ db.category.orderBy (·.rank), cate.id ≠ r.id.val := fun r hr e =>
    lookup_eq_none_iff.1 h r (Table.mem_orderBy.1 hr) e.symm
  unfold updateCategoryM
  rw [rows_cateRank, foldl_scanRow_absent _ ha]
  rfl

theorem updateCategoryM_negative (h : db.category.lookup cate.id = some row)
    (h0 : row.rank < 0) : updateCategoryM ranks fault db cate = pure (false, db) := by
  unfold updateCategoryM
  rw [rows_cateRank, scan_eq h]
  exact if_pos h0

theorem updateCategory_absent (h : db.category.lookup cate.id = none) :
    updateCategory fault db cate = (false, db) := updateCategoryM_absent (m := Id) h

theorem updateCategory_negative (h : db.category.lookup cate.id = some row) (h0 : row.rank < 0) :
    updateCategory fault db cate = (false, db) := updateCategoryM_negative (m := Id) h h0

/-- The two statements of an update, one after the other, as one rewriting of the rows. -/
theorem setRow_shiftRanks {t : CategoryTable} {value start stop : ℤ}
    (h : t.shift row cate = some (value, start, stop)) :
    (t.shiftRanks value start stop).setRow (t.newRank row cate) cate.enabled (newName row cate)
      row.id = t.updated row cate := by
  unfold CategoryTable.setRow CategoryTable.shiftRanks updated Table.update Table.mapRows
  congr 1
  rw [List.map_map]
  refine List.map_congr_left fun r _ => ?_
  simp only [Function.comp, Bool.and_eq_true, decide_eq_true_eq, updateRow, shiftedRank, h,
    and_assoc]
  split_ifs <;> simp_all

theorem setRow_eq {t : CategoryTable} (h : t.shift row cate = none) :
    t.setRow (t.newRank row cate) cate.enabled (newName row cate) row.id = t.updated row cate := by
  unfold CategoryTable.setRow updated Table.update Table.mapRows
  congr 1
  refine List.map_congr_left fun r _ => ?_
  simp only [decide_eq_true_eq, updateRow, shiftedRank, h]

theorem ofCStr_newName :
    Text.ofCStr (if cate.name = "" then row.name.val else cate.name) = newName row cate := by
  unfold newName; split <;> simp

/-- The database that the row is written to: after the range shift, if there is one. -/
def shiftStepM (ranks : Db → ℤ → ℤ → ℤ → m (Bool × Db)) (db : Db) (row : CategoryRow)
    (cate : Category) : m Db :=
  match db.category.shift row cate with
  | some (value, start, stop) => (·.2) <$> ranks db value start stop
  | none => pure db

/-- An update of a row is the shift and then the write of the row, whatever the shift gave. -/
theorem updateCategoryM_steps [LawfulMonad m] (h : db.category.lookup cate.id = some row)
    (h0 : 0 ≤ row.rank) :
    updateCategoryM ranks fault db cate =
      (fun db' : Db => db'.step fault "CATE_UPDATE"
        [.int (db.category.newRank row cate), .bool cate.enabled, .text (newName row cate),
          .text row.id]) <$> shiftStepM ranks db row cate := by
  unfold updateCategoryM
  rw [rows_cateRank, scan_eq h]
  simp only [SqlValue.cstr, ofCStr_newName, ofCStr_of_lookup h]
  rw [if_neg (not_lt.2 h0)]
  have hclamp : min (max cate.rank 1) (db.category.countEnabledCate row cate) =
    db.category.clampRank row cate := rfl
  rw [hclamp]
  by_cases hb : row.enabled ≠ cate.enabled ∨ cate.enabled = true ∧ row.rank ≠ cate.rank
  · rw [if_pos hb]
    cases he : cate.enabled with
    | true =>
      have hnew : db.category.newRank row cate = db.category.clampRank row cate := by
        simp [newRank, he]
      by_cases hlt : row.rank < db.category.clampRank row cate
      · have hs : db.category.shift row cate =
            some (-1, row.rank + 1, db.category.clampRank row cate) := by
          unfold shift; rw [if_pos hb, if_pos he, if_pos hlt]
        simp [shiftStepM, hs, hnew, if_pos hlt]
      · have hs : db.category.shift row cate =
            some (1, db.category.clampRank row cate, row.rank - 1) := by
          unfold shift; rw [if_pos hb, if_pos he, if_neg hlt]
        simp [shiftStepM, hs, hnew, if_neg hlt]
    | false =>
      have hre : row.enabled = true := by simpa [he] using hb
      have hnew : db.category.newRank row cate = RANK_MAX := by simp [newRank, he, hre]
      have hs : db.category.shift row cate = some (-1, row.rank, RANK_MAX) := by
        unfold shift; rw [if_pos hb, if_neg (by simp [he])]
      simp [shiftStepM, hs, hnew]
  · have hnew : db.category.newRank row cate = db.category.clampRank row cate := by
      obtain ⟨h1, -⟩ := not_or.1 hb
      simp [newRank, not_not.1 h1]
    have hs : db.category.shift row cate = none := if_neg hb
    rw [if_neg hb, hnew]
    simp [shiftStepM, hs]

/-- The database after the shift of a run that goes on. -/
def shiftStep (fault : ℕ → Bool) (db : Db) (row : CategoryRow) (cate : Category) : Db :=
  match db.category.shift row cate with
  | some (value, start, stop) => (updateRanks fault db value start stop).2
  | none => db

theorem updateCategory_steps (h : db.category.lookup cate.id = some row) (h0 : 0 ≤ row.rank) :
    updateCategory fault db cate = (shiftStep fault db row cate).step fault "CATE_UPDATE"
      [.int (db.category.newRank row cate), .bool cate.enabled, .text (newName row cate),
        .text row.id] := by
  unfold updateCategory
  rw [updateCategoryM_steps h h0]
  unfold shiftStep shiftStepM
  cases db.category.shift row cate <;> rfl

/-- **A successful update rewrites every row by `updateRow`.** -/
theorem updateCategory_eq (h : db.category.lookup cate.id = some row) (h0 : 0 ≤ row.rank) :
    ∃ clock, updateCategory noFault db cate =
      (true, ⟨{ db.toTables with category := db.category.updated row cate }, clock⟩) := by
  rw [updateCategory_steps h h0]
  unfold shiftStep
  cases hs : db.category.shift row cate with
  | none =>
    refine ⟨db.clock + 1, ?_⟩
    rw [← setRow_eq hs]
    simp only [step_cateUpdate]
  | some range =>
    obtain ⟨value, start, stop⟩ := range
    refine ⟨db.clock + 2, ?_⟩
    rw [← setRow_shiftRanks hs]
    simp only [updateRanks, step_changerank, step_cateUpdate]

/-- Everything an update can do: it is refused, or it rewrites the rows. -/
theorem updateCategory_cases (db : Db) (cate : Category) :
    (∀ row, db.category.lookup cate.id = some row → row.rank < 0) ∧
        updateCategory noFault db cate = (false, db) ∨
      ∃ row clock, db.category.lookup cate.id = some row ∧ 0 ≤ row.rank ∧
        updateCategory noFault db cate =
          (true, ⟨{ db.toTables with category := db.category.updated row cate }, clock⟩) := by
  cases h : db.category.lookup cate.id with
  | none => exact .inl ⟨nofun, updateCategory_absent h⟩
  | some row =>
    by_cases h0 : row.rank < 0
    · refine .inl ⟨fun r hr => ?_, updateCategory_negative h h0⟩
      cases hr
      exact h0
    · obtain ⟨clock, heq⟩ := updateCategory_eq h (not_lt.1 h0)
      exact .inr ⟨row, clock, rfl, not_lt.1 h0, heq⟩

end Update

/-! ## Registering and removing -/

section Register

variable {fault : ℕ → Bool} {db : Db} {cate : Category} {row : CategoryRow}

theorem adjustOrCreateCategory_adjust (h : db.category.find (.ofCStr cate.id) = some row) :
    adjustOrCreateCategory fault db cate =
      (true, db, { cate with name := row.name.val, rank := row.rank, enabled := row.enabled }) := by
  unfold adjustOrCreateCategory
  dsimp only
  rw [rows_cateSelect, h]
  rfl

/-- The row of a new category: enabled, after the last one. -/
def newRow (t : CategoryTable) (cate : Category) : CategoryRow :=
  { id := .ofCStr cate.id, name := .ofCStr cate.name,
    rank := t.maxRank.getD 0 + 1, enabled := true }

theorem lt_rank_newRow {t : CategoryTable} {r : CategoryRow} (hr : r ∈ t.rows)
    (he : r.enabled = true) (cate : Category) : r.rank < (newRow t cate).rank := by
  have hmem : r.rank ∈ (t.rows.filter (·.enabled)).map (·.rank) :=
    List.mem_map_of_mem (List.mem_filter.2 ⟨hr, he⟩)
  show r.rank < t.maxRank.getD 0 + 1
  unfold maxRank
  cases hm : ((t.rows.filter (·.enabled)).map (·.rank)).max? with
  | none =>
    rw [List.max?_eq_none_iff.1 hm] at hmem
    cases hmem
  | some m =>
    have hle := (List.max?_eq_some_iff.1 hm).2 _ hmem
    exact Int.lt_add_one_of_le hle

/-- The object gets the rank of the row that is to be inserted, even if that fails. -/
theorem adjustOrCreateCategory_insert (fault : ℕ → Bool)
    (h : db.category.find (.ofCStr cate.id) = none) :
    ∃ t, db.category.insert (newRow db.category cate) = some t ∧
      adjustOrCreateCategory fault db cate =
        (!fault db.clock, ⟨{ db.toTables with
          category := if fault db.clock then db.category else t }, db.clock + 1⟩,
          { cate with rank := db.category.maxRank.getD 0 + 1 }) := by
  cases ht : db.category.insert (newRow db.category cate) with
  | none => exact absurd h (Table.insert_eq_none_iff.1 ht)
  | some t =>
    refine ⟨t, rfl, ?_⟩
    have hexec : Query.cateInsert.exec [.cstr cate.id, .cstr cate.name,
        .int (db.category.maxRank.getD 0 + 1)] db.toTables =
          some { db.toTables with category := t } := by
      show (db.category.insert (newRow db.category cate)).map _ = _
      rw [ht]
      rfl
    have hquery : statementQueries.lookup "CATE_INSERT" = some .cateInsert := rfl
    have hstep : db.step fault "CATE_INSERT" [.cstr cate.id, .cstr cate.name,
        .int (db.category.maxRank.getD 0 + 1)] =
          (!fault db.clock, ⟨{ db.toTables with
            category := if fault db.clock then db.category else t }, db.clock + 1⟩) := by
      unfold Db.step
      simp only [hquery, hexec]
      cases fault db.clock <;> rfl
    unfold adjustOrCreateCategory
    dsimp only
    rw [rows_cateSelect, h]
    simp only [Option.toList_none, Db.maxRank, hstep]
    cases fault db.clock <;> rfl

theorem adjustOrCreateCategory_create (h : db.category.find (.ofCStr cate.id) = none) :
    ∃ t, db.category.insert (newRow db.category cate) = some t ∧
      adjustOrCreateCategory noFault db cate =
        (true, ⟨{ db.toTables with category := t }, db.clock + 1⟩,
          { cate with rank := db.category.maxRank.getD 0 + 1 }) :=
  adjustOrCreateCategory_insert noFault h

/-- The statement the removal looks up was never prepared. -/
theorem removeCategory_eq (env : Env) (db : Db) (cateId : String) :
    removeCategory env db cateId = (false, db) := by
  unfold removeCategory
  split_ifs
  · rfl
  · rw [step_unprepared rfl]

end Register

end UnifiedSearch
