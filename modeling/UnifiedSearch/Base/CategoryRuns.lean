import UnifiedSearch.Lib.Runs
import UnifiedSearch.Base.CategoryOrder

/-!
# Runs of the category methods

The states of the `Category` table that registrations, updates and removals
reach. `ranksExact_run_iff`: the ranks stay exact along a run iff none of its
updates is misplaced.
-/

namespace UnifiedSearch

open Lib Database CategoryTable

/-- A call of one of the three methods that write the `Category` table. -/
inductive CateOp where
  | adjustOrCreate (cate : Category)
  | update (cate : Category)
  | remove (cateId : String)

/-- The database after a call. -/
def CateOp.step (env : Env) (db : Db) : CateOp → Db
  | .adjustOrCreate cate => (adjustOrCreateCategory env.fault db cate).2.1
  | .update cate => (updateCategory env.fault db cate).2
  | .remove cateId => (removeCategory env db cateId).2

/-- The call is not a misplaced update. -/
def CateOp.Placed (db : Db) : CateOp → Prop
  | .update cate => ¬db.category.Misplaced cate
  | _ => True

namespace CategoryTable

variable {t t' : CategoryTable} {row r : CategoryRow} {cate : Category}

/-- No row has a negative rank: `-1` is what `updateCategory` takes for a missing row. -/
def NonNeg (t : CategoryTable) : Prop := ∀ r ∈ t.rows, 0 ≤ r.rank

theorem one_le_rank (hx : t.RanksExact) (hr : r ∈ t.rows) (he : r.enabled = true) : 1 ≤ r.rank :=
  ((hx.2 r.rank).1 (List.mem_map_of_mem (List.mem_filter.2 ⟨hr, he⟩))).1

theorem maxRank_eq (hx : t.RanksExact) : t.maxRank.getD 0 = t.enabledCount := by
  unfold maxRank
  cases hm : ((t.rows.filter (·.enabled)).map (·.rank)).max? with
  | none =>
    have hnil := List.max?_eq_none_iff.1 hm
    have hlen : (t.rows.filter (·.enabled)).length = 0 := by
      rw [← List.length_map (f := fun r : CategoryRow => r.rank), hnil]; rfl
    unfold enabledCount
    rw [hlen]; rfl
  | some m =>
    obtain ⟨hmem, hmax⟩ := List.max?_eq_some_iff.1 hm
    obtain ⟨h1, h2⟩ := (hx.2 m).1 hmem
    have hn := hmax _ ((hx.2 t.enabledCount).2 ⟨by omega, le_rfl⟩)
    simp only [Option.getD_some]
    omega

theorem ranksExact_insert (hx : t.RanksExact) (h : t.insert (newRow t cate) = some t') :
    t'.order = t.order ++ [(newRow t cate).id] ∧ t'.RanksExact := by
  have hnone : t.find (newRow t cate).id = none := by
    by_contra hne
    rw [Table.insert_eq_none_iff.2 hne] at h; cases h
  have hout : (newRow t cate).id ∉ t.order := fun hin => by
    obtain ⟨r, hr, -⟩ := mem_order.1 hin
    rw [hnone] at hr; cases hr
  have hne {k : Text} (hk : k ∈ t.order) : (newRow t cate).id ≠ k := fun e => hout (e ▸ hk)
  refine order_eq ((ranksExact_iff.1 hx).append_singleton hout (fun x hxo => ?_) ?_) fun k => ?_
  · obtain ⟨r, hr, -⟩ := mem_order.1 hxo
    rw [rankOf_of_find hr]
    refine rankOf_of_find ?_
    rw [Table.find_insert h, if_neg (hne hxo), hr]
  · rw [length_order, ← maxRank_eq hx]
    refine rankOf_of_find (r := newRow t cate) ?_
    rw [Table.find_insert h, if_pos rfl]
  · rw [Table.find_insert h, List.mem_append, List.mem_singleton, mem_order]
    by_cases hk : (newRow t cate).id = k
    · subst hk; simp [newRow]
    · simp [hk, Ne.symm hk]

theorem nonNeg_insert (hn : t.NonNeg) (hx : t.RanksExact)
    (h : t.insert (newRow t cate) = some t') : t'.NonNeg := by
  intro r hr
  rw [Table.rows_insert h, List.mem_append, List.mem_singleton] at hr
  rcases hr with hr | rfl
  · exact hn r hr
  · show 0 ≤ t.maxRank.getD 0 + 1
    have := enabledCount_nonneg (t := t)
    rw [maxRank_eq hx]; omega

theorem newRank_nonneg : 0 ≤ t.newRank row cate := by
  have hn := enabledCount_nonneg (t := t)
  have hmax : (0 : ℤ) ≤ RANK_MAX := by decide
  unfold newRank clampRank countEnabledCate
  split_ifs <;> omega

theorem nonNeg_updated (hn : t.NonNeg) (hx : (t.updated row cate).RanksExact) :
    (t.updated row cate).NonNeg := by
  intro r' hr'
  cases he : r'.enabled with
  | true => exact le_trans (by decide) (one_le_rank hx hr' he)
  | false =>
    obtain ⟨r, hr, rfl⟩ := List.mem_map.1 hr'
    unfold updateRow at he ⊢
    by_cases hid : r.id = row.id
    · rw [if_pos hid]; exact newRank_nonneg
    · rw [if_neg hid] at he ⊢
      have hsame : t.shiftedRank row cate r = r.rank := by
        have he : r.enabled = false := he
        unfold shiftedRank
        cases t.shift row cate <;> simp [he]
      rw [hsame]; exact hn r hr

end CategoryTable

section Steps

variable {env : Env} {db : Db} {op : CateOp}

theorem ranksExact_step_iff (hb : (db.category.rows.length : ℤ) < RANK_MAX)
    (hn : db.category.NonNeg) (hx : db.category.RanksExact) :
    (op.step env.healthy db).category.RanksExact ↔ op.Placed db := by
  cases op with
  | adjustOrCreate cate =>
    refine iff_of_true ?_ trivial
    simp only [CateOp.step, Env.fault_healthy]
    cases h : db.category.find (.ofCStr cate.id) with
    | some row => rw [adjustOrCreateCategory_adjust h]; exact hx
    | none =>
      obtain ⟨t, ht, heq⟩ := adjustOrCreateCategory_create h
      rw [heq]
      exact (ranksExact_insert hx ht).2
  | remove cateId =>
    refine iff_of_true ?_ trivial
    simp only [CateOp.step, removeCategory_eq]
    exact hx
  | update cate =>
    simp only [CateOp.step, Env.fault_healthy, CateOp.Placed]
    cases h : db.category.lookup cate.id with
    | none =>
      rw [updateCategory_absent h]
      refine iff_of_true hx fun ⟨row, hrow, _⟩ => ?_
      rw [h] at hrow; cases hrow
    | some row =>
      have h0 : 0 ≤ row.rank := hn row (lookup_eq_some_iff.1 h).1
      have hle := enabledCount_le (t := db.category)
      obtain ⟨clock, heq⟩ := updateCategory_eq h h0
      rw [heq]
      constructor
      · intro hx' hm
        exact not_ranksExact_of_misplaced hx h h0 hm hx'
      · intro hm
        exact (order_updated hx (by omega) h hm).2

theorem nonNeg_step (hn : db.category.NonNeg) (hx : db.category.RanksExact)
    (hx' : (op.step env.healthy db).category.RanksExact) :
    (op.step env.healthy db).category.NonNeg := by
  cases op with
  | adjustOrCreate cate =>
    simp only [CateOp.step, Env.fault_healthy] at hx' ⊢
    cases h : db.category.find (.ofCStr cate.id) with
    | some row => rw [adjustOrCreateCategory_adjust h]; exact hn
    | none =>
      obtain ⟨t, ht, heq⟩ := adjustOrCreateCategory_create h
      rw [heq]
      exact nonNeg_insert hn hx ht
  | remove cateId => simpa only [CateOp.step, removeCategory_eq] using hn
  | update cate =>
    simp only [CateOp.step, Env.fault_healthy] at hx' ⊢
    cases h : db.category.lookup cate.id with
    | none => rw [updateCategory_absent h]; exact hn
    | some row =>
      obtain ⟨clock, heq⟩ := updateCategory_eq h (hn row (lookup_eq_some_iff.1 h).1)
      rw [heq] at hx' ⊢
      exact nonNeg_updated hn hx'

end Steps

/-- **The ranks stay exact along a run iff no update of it is misplaced.** -/
theorem ranksExact_run_iff (env : Env) (ops : List CateOp)
    (hb : Always (CateOp.step env.healthy)
      (fun db => (db.category.rows.length : ℤ) < RANK_MAX) .fresh ops) :
    Always (CateOp.step env.healthy) (fun db => db.category.RanksExact) .fresh ops ↔
      Each (CateOp.step env.healthy) CateOp.Placed .fresh ops :=
  always_iff_each (fun db => db.category.NonNeg)
    (fun _ _ hb _ hn hx => ranksExact_step_iff hb hn hx)
    (fun _ _ hb _ hn hx hok => nonNeg_step hn hx ((ranksExact_step_iff hb hn hx).2 hok))
    hb (by intro r hr; cases hr) (by decide)

/-- Disable a category, move it up and down the list of the others, and enable it again. -/
def placedRun : List CateOp := [
  .adjustOrCreate { id := "a" }, .adjustOrCreate { id := "b" }, .adjustOrCreate { id := "c" },
  .update { id := "a", rank := 3 }, .update { id := "c", enabled := false },
  .update { id := "a", rank := 1 }, .update { id := "c", rank := 2 }, .remove "b"]

theorem ranksExact_run_sample :
    Each (CateOp.step Env.sample.healthy) CateOp.Placed .fresh placedRun :=
  (ranksExact_run_iff Env.sample placedRun (by decide)).1 (by decide)

/-- A category that is disabled twice comes back at a rank that is taken. -/
def misplacedRun : List CateOp := [
  .adjustOrCreate { id := "a" }, .adjustOrCreate { id := "b" },
  .update { id := "b", rank := RANK_MAX, enabled := false },
  .update { id := "b", rank := RANK_MAX, enabled := false },
  .update { id := "b", rank := 1 }]

theorem not_ranksExact_misplacedRun :
    ¬(run (CateOp.step Env.sample.healthy) .fresh misplacedRun).category.RanksExact := by
  decide

end UnifiedSearch
