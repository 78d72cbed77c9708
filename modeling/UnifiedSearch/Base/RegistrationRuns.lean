import UnifiedSearch.Lib.Journal
import UnifiedSearch.Lib.Runs
import UnifiedSearch.Base.Registration

/-!
# Runs of registrations

What a sequence of registrations leaves in the table and in the objects, over any
table. `Enrolled` says it for the objects that have been handed to the database so
far, `enrolled_concat` is one more of them.
-/

namespace UnifiedSearch.Service

open Lib CategoryTable Database

variable {env : Env} {w w' w'' : Service} {ps : List CategoryPtr} {p q : CategoryPtr}

/-- The id of the row of an object: its own up to the first NUL. -/
def rowId (w : Service) (p : CategoryPtr) : Text := .ofCStr (w.category p).id

/-- The ids that had no row, in the order in which they were registered first. -/
def newIds (w : Service) (ps : List CategoryPtr) : List Text :=
  ((ps.map w.rowId).filter fun k => (w.db.category.find k).isNone).eraseDups

/-- The rows that registering the objects `ps` adds: one for each new id, enabled and ranked after
all enabled ones before it. -/
structure NewRows (w w' : Service) (ps : List CategoryPtr) (new : List CategoryRow) : Prop where
  rows : w'.db.category.rows = w.db.category.rows ++ new
  ids : new.map (·.id) = newIds w ps
  enabled : ∀ r ∈ new, r.enabled = true
  after : ∀ r ∈ new, ∀ r' ∈ w.db.category.rows, r'.enabled = true → r'.rank < r.rank
  ascending : new.Pairwise fun r r' => r.rank < r'.rank

/-- What registering the objects `ps`, in this order, makes of the service. -/
structure Enrolled (w w' : Service) (ps : List CategoryPtr) : Prop where
  ids : ∀ p, (w'.category p).id = (w.category p).id
  /-- The old rows are as they were, and new ones follow. -/
  rows : ∃ new, NewRows w w' ps new
  /-- The objects have the rank of their rows, and the name, as far as it is stored. -/
  agrees : ∀ p ∈ ps, ∃ row, w'.db.category.find (w.rowId p) = some row ∧
    (w'.category p).rank = row.rank ∧ .ofCStr (w'.category p).name = row.name
  /-- An object whose id had a row by then has all that the row says. -/
  adopted : ∀ pre p post, ps = pre ++ p :: post →
    (w.db.category.find (w.rowId p)).isSome ∨ w.rowId p ∈ pre.map w.rowId →
    ∀ row, w'.db.category.find (w.rowId p) = some row →
      (w'.category p).name = row.name.val ∧ (w'.category p).enabled = row.enabled

theorem mem_newIds {k : Text} :
    k ∈ newIds w ps ↔ k ∈ ps.map w.rowId ∧ w.db.category.find k = none := by
  rw [newIds, List.mem_eraseDups, List.mem_filter, Option.isNone_iff_eq_none]

theorem newIds_concat : newIds w (ps ++ [q]) =
    if w.db.category.find (w.rowId q) = none ∧ w.rowId q ∉ ps.map w.rowId
    then newIds w ps ++ [w.rowId q] else newIds w ps := by
  unfold newIds
  rw [List.map_append, List.filter_append, List.map_singleton]
  cases h : w.db.category.find (w.rowId q) with
  | some row =>
    rw [List.filter_cons_of_neg (by rw [h]; exact Bool.false_ne_true), List.filter_nil,
      List.append_nil, if_neg fun e => by cases e.1]
  | none =>
    rw [List.filter_cons_of_pos (by rw [h]; rfl), List.filter_nil, eraseDups_concat]
    simp only [List.mem_filter, h, Option.isNone_none, and_true, true_and]
    exact (ite_not _ _ _).symm

theorem enrolled_nil (w : Service) : Enrolled w w [] :=
  ⟨fun _ => rfl, ⟨[], (List.append_nil _).symm, rfl, nofun, nofun, .nil⟩, nofun,
    fun pre p post h => absurd h (by simp)⟩

theorem Enrolled.congr (h : Enrolled w w' ps) (hdb : w''.db = w'.db)
    (hcat : w''.categories = w'.categories) : Enrolled w w'' ps := by
  have hcategory (p : CategoryPtr) : w''.category p = w'.category p := by
    unfold category; rw [hcat]
  obtain ⟨new, hnew⟩ := h.rows
  refine ⟨fun p => by rw [hcategory, h.ids], ⟨new, { hnew with rows := by rw [hdb, hnew.rows] }⟩,
    fun p hp => ?_, fun pre p post hps hold => ?_⟩
  · rw [hdb, hcategory]
    exact h.agrees p hp
  · rw [hdb, hcategory]
    exact h.adopted pre p post hps hold

theorem Enrolled.isSome_find (h : Enrolled w w' ps)
    (hold : (w.db.category.find (w.rowId q)).isSome ∨ w.rowId q ∈ ps.map w.rowId) :
    ∃ row, w'.db.category.find (w.rowId q) = some row := by
  rcases hold with hold | hold
  · obtain ⟨row, hrow⟩ := Option.isSome_iff_exists.1 hold
    obtain ⟨new, hnew⟩ := h.rows
    have hmem : row ∈ w'.db.category.rows := by
      rw [hnew.rows]
      exact List.mem_append_left _ (Table.mem_of_find hrow)
    exact ⟨row, Table.key_of_find hrow ▸ Table.find_of_mem hmem⟩
  · obtain ⟨p, hp, he⟩ := List.mem_map.1 hold
    obtain ⟨row, hrow, -⟩ := h.agrees p hp
    exact ⟨row, he ▸ hrow⟩

theorem Enrolled.mem_of_find (h : Enrolled w w' ps) {row : CategoryRow}
    (hrow : w'.db.category.find (w.rowId q) = some row) :
    (w.db.category.find (w.rowId q)).isSome ∨ w.rowId q ∈ ps.map w.rowId := by
  obtain ⟨new, hn⟩ := h.rows
  have hmem := Table.mem_of_find hrow
  have hkey := Table.key_of_find hrow
  rw [hn.rows] at hmem
  rcases List.mem_append.1 hmem with hold | hnew
  · left
    rw [← hkey, Table.find_of_mem hold]
    rfl
  · right
    have hin : row.id ∈ newIds w ps := hn.ids ▸ List.mem_map_of_mem hnew
    rw [← hkey]
    exact (mem_newIds.1 hin).1

/-! ## One object more -/

theorem adjusted_self (env : Env) (w : Service) (p : CategoryPtr) :
    ∃ row, (w.adjustOrCreateCategory env.healthy p).db.category.find (w.rowId p) = some row ∧
      ((w.adjustOrCreateCategory env.healthy p).category p).rank = row.rank ∧
      .ofCStr ((w.adjustOrCreateCategory env.healthy p).category p).name = row.name ∧
      ∀ old, w.db.category.find (w.rowId p) = some old → row = old ∧
        ((w.adjustOrCreateCategory env.healthy p).category p).name = row.name.val ∧
        ((w.adjustOrCreateCategory env.healthy p).category p).enabled = row.enabled := by
  cases h : w.db.category.find (w.rowId p) with
  | some row =>
    rw [adjustOrCreateCategory_known _ h, category_write, if_pos rfl]
    refine ⟨row, h, rfl, Text.ofCStr_val _, fun old hold => ?_⟩
    cases hold
    exact ⟨rfl, rfl, rfl⟩
  | none =>
    obtain ⟨t, ht, heq⟩ := adjustOrCreateCategory_unknown env h
    rw [heq]
    have hself : (w.write p { w.category p with
        rank := w.db.category.maxRank.getD 0 + 1 }).category p =
          { w.category p with rank := w.db.category.maxRank.getD 0 + 1 } := if_pos rfl
    refine ⟨newRow w.db.category (w.category p), (Table.find_insert ht).trans (if_pos rfl), ?_, ?_,
      nofun⟩
    · exact congrArg Category.rank hself
    · have hname := congrArg (fun cate : Category => Text.ofCStr cate.name) hself
      exact hname

/-- The rows: a new id gets a row after the enabled ones. -/
theorem Enrolled.rows_concat (h : Enrolled w w' ps) (env : Env) (q : CategoryPtr) :
    ∃ new, NewRows w (w'.adjustOrCreateCategory env.healthy q) (ps ++ [q]) new := by
  obtain ⟨new, hrows, hids, hen, hafter, hasc⟩ := h.rows
  have hid : w'.rowId q = w.rowId q := by unfold rowId; rw [h.ids]
  cases hf : w'.db.category.find (w'.rowId q) with
  | some row =>
    rw [adjustOrCreateCategory_known _ hf]
    refine ⟨new, hrows, ?_, hen, hafter, hasc⟩
    rw [hid] at hf
    rw [newIds_concat, if_neg, hids]
    rintro ⟨hnone, hnot⟩
    rcases h.mem_of_find hf with hsome | hmem
    · rw [hnone] at hsome; cases hsome
    · exact hnot hmem
  | none =>
    obtain ⟨t, ht, heq⟩ := adjustOrCreateCategory_unknown env hf
    have hnone : w.db.category.find (w.rowId q) = none ∧ w.rowId q ∉ ps.map w.rowId := by
      rw [hid] at hf
      constructor
      · cases hw : w.db.category.find (w.rowId q) with
        | none => rfl
        | some row =>
          obtain ⟨_, hrow⟩ := h.isSome_find (.inl (by rw [hw]; rfl))
          rw [hf] at hrow; cases hrow
      · intro hmem
        obtain ⟨_, hrow⟩ := h.isSome_find (.inr hmem)
        rw [hf] at hrow; cases hrow
    refine ⟨new ++ [newRow w'.db.category (w'.category q)], ?_, ?_, ?_, ?_, ?_⟩
    · rw [heq]
      exact (Table.rows_insert ht).trans (by rw [hrows, List.append_assoc])
    · rw [newIds_concat, if_pos hnone, List.map_append, hids, ← hid]
      rfl
    · intro r hr
      rcases List.mem_append.1 hr with hr | hr
      · exact hen r hr
      · rw [List.mem_singleton.1 hr]
        rfl
    · intro r hr r' hr' he
      rcases List.mem_append.1 hr with hr | hr
      · exact hafter r hr r' hr' he
      · rw [List.mem_singleton.1 hr]
        refine lt_rank_newRow ?_ he _
        rw [hrows]
        exact List.mem_append_left _ hr'
    · refine List.pairwise_append.2 ⟨hasc, List.pairwise_singleton _ _, fun r hr r' hr' => ?_⟩
      rw [List.mem_singleton.1 hr']
      refine lt_rank_newRow ?_ (hen r hr) _
      rw [hrows]
      exact List.mem_append_right _ hr

theorem enrolled_concat (h : Enrolled w w' ps) (env : Env) (q : CategoryPtr) :
    Enrolled w (w'.adjustOrCreateCategory env.healthy q) (ps ++ [q]) := by
  have ha := adjusted env w' q
  have hid : w'.rowId q = w.rowId q := by unfold rowId; rw [h.ids]
  obtain ⟨row, hrow, hrank, hname, hknown⟩ := adjusted_self env w' q
  rw [hid] at hrow hknown
  have hrows := h.rows_concat env q
  generalize w'.adjustOrCreateCategory env.healthy q = w'' at *
  refine ⟨fun p => ha.category_id.trans (h.ids p), hrows, fun p hp => ?_,
    fun pre p post hps hold r hr => ?_⟩
  · by_cases hpq : p = q
    · subst hpq
      exact ⟨row, hrow, hrank, hname⟩
    · have hp := (List.mem_append.1 hp).resolve_right fun e => hpq (List.mem_singleton.1 e)
      obtain ⟨r, hr, hag⟩ := h.agrees p hp
      exact ⟨r, ha.kept _ r hr, by rw [ha.others p hpq]; exact hag⟩
  · by_cases hpq : p = q
    · -- registered now: an id that is known has a row by now
      subst hpq
      have hpre : pre ⊆ ps := by
        rcases List.prefix_concat_iff.1 (hps ▸ List.prefix_append pre (p :: post)) with e | hpre
        · rw [e, List.append_assoc] at hps
          simp at hps
        · exact hpre.subset
      obtain ⟨old, hold⟩ := h.isSome_find (hold.imp_right fun hm => List.map_subset _ hpre hm)
      obtain ⟨-, hadopted⟩ := hknown old hold
      rw [hrow] at hr
      cases hr
      exact hadopted
    · -- registered before, and not written since
      obtain ⟨post', rfl⟩ : ∃ post', ps = pre ++ p :: post' := by
        rcases List.eq_nil_or_concat post with rfl | ⟨post', b, rfl⟩
        · exact absurd (List.append_inj' hps rfl).2 (by simpa using Ne.symm hpq)
        · have hlast : ps ++ [q] = (pre ++ p :: post') ++ [b] := by
            rw [hps, List.concat_eq_append, List.append_assoc, List.cons_append]
          exact ⟨post', (List.append_inj' hlast rfl).1⟩
      obtain ⟨r', hr', -⟩ := h.agrees p (List.mem_append_right _ List.mem_cons_self)
      rw [ha.kept _ r' hr'] at hr
      cases hr
      rw [ha.others p hpq]
      exact h.adopted pre p post' rfl hold r hr'

theorem enrolled_append (h : Enrolled w w' ps) (env : Env) (qs : List CategoryPtr) :
    Enrolled w (qs.foldl (adjustOrCreateCategory env.healthy) w') (ps ++ qs) := by
  induction qs generalizing w' ps with
  | nil => rwa [List.append_nil]
  | cons q qs ih =>
    have hq := ih (enrolled_concat h env q)
    rwa [List.append_assoc] at hq

/-! ## Sequences of registrations -/

/-- A registration; a set that is not attached hands nothing to the database. -/
inductive Registration where
  | addSearchSet (s : SearchSetPtr)
  | addCategory (s : SearchSetPtr) (category : CategoryPtr)

def Registration.step (env : Env) (w : Service) : Registration → Service
  | .addSearchSet s => (w.addSearchSet env s).2
  | .addCategory s category => (w.addCategory env s category).2

/-- The objects that are registered: none where the id is taken. -/
def Registration.objects (w : Service) : Registration → List CategoryPtr
  | .addSearchSet s =>
    if (w.searchSets.find (w.set s).id).isSome then [] else (w.set s).categories.values
  | .addCategory s category =>
    if ((w.set s).categories.find (w.category category).id).isSome || !(w.set s).client then []
    else [category]

/-- The objects that are registered in a sequence, in order. -/
def registered (env : Env) : Service → List Registration → List CategoryPtr
  | _, [] => []
  | w, op :: ops => op.objects w ++ registered env (op.step env w) ops

/-- A registration writes the sets and then registers objects. -/
theorem registration_eq (env : Env) (w : Service) (op : Registration) :
    ∃ w1 : Service, w1.db = w.db ∧ w1.categories = w.categories ∧
      op.step env w = (op.objects w).foldl (adjustOrCreateCategory env) w1 := by
  cases op with
  | addSearchSet s =>
    simp only [Registration.step, Registration.objects]
    cases h : w.searchSets.find (w.set s).id with
    | some t =>
      rw [addSearchSet_refused (by rw [h]; rfl)]
      exact ⟨w, rfl, rfl, rfl⟩
    | none =>
      rw [addSearchSet_eq h]
      exact ⟨w.attach s, rfl, rfl, rfl⟩
  | addCategory s c =>
    simp only [Registration.step, Registration.objects]
    cases h : (w.set s).categories.find (w.category c).id with
    | some p =>
      rw [addCategory_refused (by rw [h]; rfl)]
      exact ⟨w, rfl, rfl, rfl⟩
    | none =>
      rw [addCategory_eq h]
      refine ⟨w.modifySet s fun set =>
        { set with categories := set.categories.insert (w.category c).id c }, rfl, rfl, ?_⟩
      cases (w.set s).client <;> rfl

theorem enrolled_run (h : Enrolled w w' ps) (env : Env) (ops : List Registration) :
    Enrolled w (run (Registration.step env.healthy) w' ops)
      (ps ++ registered env.healthy w' ops) := by
  induction ops generalizing w' ps with
  | nil => exact (List.append_nil ps).symm ▸ h
  | cons op ops ih =>
    obtain ⟨w1, hdb, hcat, hstep⟩ := registration_eq env.healthy w' op
    have hop := enrolled_append (h.congr hdb hcat) env (op.objects w')
    rw [← hstep] at hop
    have hrun := ih hop
    rw [List.append_assoc] at hrun
    exact hrun

/-- **Registrations do not disturb what is stored**: the rows stay, each new id gets one enabled row
after all enabled ones, and the objects agree with their rows. -/
theorem registered_run (env : Env) (w : Service) (ops : List Registration) :
    let w' := run (Registration.step env.healthy) w ops
    let ps := registered env.healthy w ops
    ∃ new, w'.db.category.rows = w.db.category.rows ++ new ∧ new.map (·.id) = newIds w ps ∧
      (∀ r ∈ new, r.enabled = true) ∧
      (∀ before r after, new = before ++ r :: after →
        ∀ r' ∈ w.db.category.rows.filter (·.enabled) ++ before,
          [r'.id.val, r.id.val].Sublist ((getCategories w'.db).map (·.id))) ∧
      (∀ p ∈ ps, ∃ row, w'.db.category.find (w.rowId p) = some row ∧
        (w'.category p).rank = row.rank ∧ .ofCStr (w'.category p).name = row.name) ∧
      ∀ pre p post, ps = pre ++ p :: post →
        (w.db.category.find (w.rowId p)).isSome ∨ w.rowId p ∈ pre.map w.rowId →
        ∀ row, w'.db.category.find (w.rowId p) = some row →
          (w'.category p).name = row.name.val ∧ (w'.category p).enabled = row.enabled := by
  intro w' ps
  have h : Enrolled w w' ps := enrolled_run (enrolled_nil w) env ops
  obtain ⟨new, hrows, hids, hen, hafter, hasc⟩ := h.rows
  refine ⟨new, hrows, hids, hen, fun before r after hsplit r' hr' => ?_, h.agrees, h.adopted⟩
  have hmem : r ∈ new := by
    rw [hsplit]
    exact List.mem_append_right _ List.mem_cons_self
  have hmem' : r' ∈ w'.db.category.rows ∧ r'.rank < r.rank := by
    rw [hrows]
    rcases List.mem_append.1 hr' with hr' | hr'
    · obtain ⟨hr', he⟩ := List.mem_filter.1 hr'
      exact ⟨List.mem_append_left _ hr', hafter r hmem r' hr' he⟩
    · rw [hsplit] at hasc
      refine ⟨List.mem_append_right _ ?_, ?_⟩
      · rw [hsplit]
        exact List.mem_append_left _ hr'
      · exact (List.pairwise_append.1 hasc).2.2 r' hr' r List.mem_cons_self
  have hpair := Table.pair_sublist_orderBy (f := (·.rank)) hmem'.1
    (by rw [hrows]; exact List.mem_append_right _ hmem) hmem'.2
  have hmap := hpair.map fun row : CategoryRow => row.id.val
  rw [getCategories, List.map_map]
  exact hmap

/-- A set with one category whose name has a NUL in it. -/
def nulNamed : Service :=
  { db := .fresh
    categories := ⟨1, fun _ => { id := "a", name := "A\x00B" }⟩
    sets := ⟨1, fun _ => { id := "media", source := fun _ _ => [] }⟩
    searchSets := .empty
    language := "en" }

/-- The row has the name up to the NUL, and the object keeps all of it. -/
theorem not_name_nul :
    let w := run (Registration.step Env.sample.healthy) nulNamed [.addSearchSet 0, .addCategory 0 0]
    0 ∈ registered Env.sample.healthy nulNamed [.addSearchSet 0, .addCategory 0 0] ∧
      (w.db.category.find (w.rowId 0)).map (·.name.val) ≠ some (w.category 0).name := by
  decide

end UnifiedSearch.Service
