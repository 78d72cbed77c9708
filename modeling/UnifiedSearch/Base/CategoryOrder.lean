import UnifiedSearch.Base.CategoryTable

/-!
# The ordered list behind the ranks

The purpose of the `rank` column is an ordered list of the enabled categories.
`RanksExact` says the ranks of the enabled rows are `1, …, n`; then `order` is
that list, and an update that is not `Misplaced` acts on it as `listUpdate`:
take the category out, and put it back at its clamped position when it is to be
enabled (`order_updated`). A misplaced update breaks the numbering
(`not_ranksExact_of_misplaced`): it enables a row that kept a small rank while
it was disabled, which only an update of an already disabled row leaves behind.
`updateCategory_refines` is the refinement seen through the methods.
-/

namespace UnifiedSearch

open Lib Database

namespace CategoryTable

variable {t : CategoryTable} {id : String} {row r : CategoryRow} {cate : Category} {k : Text}

/-- The enabled ids in rank order. -/
def order (t : CategoryTable) : List Text := t.orderedKeys (·.enabled) (·.rank)

/-- The rank column, read by id. -/
def rankOf (t : CategoryTable) (k : Text) : ℤ := ((t.find k).map (·.rank)).getD 0

/-- The ranks of the enabled rows are pairwise different and exactly `1, …, n`. -/
def RanksExact (t : CategoryTable) : Prop :=
  ((t.rows.filter (·.enabled)).map (·.rank)).Nodup ∧
    ∀ k, k ∈ (t.rows.filter (·.enabled)).map (·.rank) ↔ 1 ≤ k ∧ k ≤ t.enabledCount

/-- The update of the list that a category request asks for. -/
def listUpdate {κ : Type} [DecidableEq κ] (L : List κ) (id : κ) (rank : ℤ) (enabled : Bool) :
    List κ :=
  if enabled then
    (L.erase id).insertIdx (min (max rank 1) ((L.erase id).length + 1) - 1).toNat id
  else L.erase id

/-- The update enables a disabled row whose stored rank is still that of an enabled row, or
the last one's without the row going to the end. -/
def Misplaced (t : CategoryTable) (cate : Category) : Prop :=
  ∃ row, t.lookup cate.id = some row ∧ row.enabled = false ∧ cate.enabled = true ∧
    row.rank ≤ t.enabledCount ∧ ¬(row.rank = t.enabledCount ∧ t.enabledCount < max cate.rank 1)

theorem rankOf_of_find (h : t.find k = some r) : t.rankOf k = r.rank := by
  unfold rankOf; rw [h]; rfl

theorem reads_rankOf (t : CategoryTable) : t.Reads (·.rank) t.rankOf :=
  fun _ hr => rankOf_of_find (Table.find_of_mem hr)

theorem ranksExact_iff : t.RanksExact ↔ Ranked t.order t.rankOf :=
  (Table.ranked_orderedKeys_iff (reads_rankOf t)).symm

instance : Decidable t.RanksExact := decidable_of_iff _ ranksExact_iff.symm

theorem length_order : (t.order.length : ℤ) = t.enabledCount := by
  rw [order, Table.length_orderedKeys]; rfl

theorem mem_order : k ∈ t.order ↔ ∃ r, t.find k = some r ∧ r.enabled = true := Table.mem_orderedKeys

theorem enabledCount_nonneg : 0 ≤ t.enabledCount := Int.natCast_nonneg _

theorem enabledCount_le : t.enabledCount ≤ t.rows.length := by
  unfold enabledCount
  exact_mod_cast List.length_filter_le _ _

theorem mem_order_of_lookup (h : t.lookup id = some row) :
    row.id ∈ t.order ↔ row.enabled = true := by
  rw [mem_order, find_of_lookup h]; simp

/-- A ranked list of the enabled ids is `order`, and the ranks are exact. -/
theorem order_eq {L : List Text} (hL : Ranked L t.rankOf)
    (hm : ∀ k, k ∈ L ↔ ∃ r, t.find k = some r ∧ r.enabled = true) :
    t.order = L ∧ t.RanksExact := by
  have h := Table.orderedKeys_eq (reads_rankOf t) hL hm
  refine ⟨h, ranksExact_iff.2 ?_⟩
  rw [show t.order = L from h]; exact hL

/-! ## Reading the updated table -/

theorem rankOf_updated_self (h : t.lookup id = some row) :
    (t.updated row cate).rankOf row.id = t.newRank row cate :=
  rankOf_of_find (find_updated_self h)

theorem rankOf_updated_other (hk : k ≠ row.id) (h : t.find k = some r) :
    (t.updated row cate).rankOf k = t.shiftedRank row cate r := by
  refine rankOf_of_find (r := { r with rank := t.shiftedRank row cate r }) ?_
  rw [find_updated_other hk, h]; rfl

theorem enabled_updated (h : t.lookup id = some row) :
    (∃ r, (t.updated row cate).find k = some r ∧ r.enabled = true) ↔
      if k = row.id then cate.enabled = true else k ∈ t.order := by
  by_cases hk : k = row.id
  · subst hk; rw [find_updated_self h]; simp
  · rw [find_updated_other hk, if_neg hk, mem_order]; simp

theorem clampRank_bounds (hn : 0 < t.countEnabledCate row cate) :
    1 ≤ t.clampRank row cate ∧ t.clampRank row cate ≤ t.countEnabledCate row cate := by
  unfold clampRank; omega

/-! ## The refinement -/

section Refinement

variable (hx : Ranked t.order t.rankOf) (h : t.lookup id = some row)
include hx h

theorem order_disable (hn : t.enabledCount ≤ RANK_MAX) (he : row.enabled = true)
    (hc : cate.enabled = false) :
    (t.updated row cate).order = t.order.erase row.id ∧ (t.updated row cate).RanksExact := by
  have hin : row.id ∈ t.order := (mem_order_of_lookup h).2 he
  have hk : t.rankOf row.id = row.rank := rankOf_of_find (find_of_lookup h)
  refine order_eq ((hx.erase hin).congr fun x hmem => ?_) fun k => ?_
  · -- every later row moves up, and none is past `RANK_MAX`
    obtain ⟨hne, hxo⟩ := (hx.nodup.mem_erase_iff).1 hmem
    obtain ⟨r, hr, her⟩ := mem_order.1 hxo
    have hle := (hx.range hxo).2
    rw [length_order, rankOf_of_find hr] at hle
    rw [rankOf_updated_other hne hr, hk, rankOf_of_find hr]
    simp only [shiftedRank, shift, he, hc, her]
    simp only [ne_eq, Bool.true_eq_false, not_false_eq_true, true_or, if_true, Bool.false_eq_true,
      if_false, true_and]
    split_ifs <;> omega
  · rw [enabled_updated h, hx.nodup.mem_erase_iff, hc]
    split_ifs with e <;> simp [e]

theorem order_move (he : row.enabled = true) (hc : cate.enabled = true) :
    (t.updated row cate).order =
        (t.order.erase row.id).insertIdx (t.clampRank row cate - 1).toNat row.id ∧
      (t.updated row cate).RanksExact := by
  have hin : row.id ∈ t.order := (mem_order_of_lookup h).2 he
  have hk : t.rankOf row.id = row.rank := rankOf_of_find (find_of_lookup h)
  have hcount : t.countEnabledCate row cate = t.enabledCount := by simp [countEnabledCate, he]
  have hlen := length_order (t := t)
  have hrow := hx.range hin
  rw [hk, hlen] at hrow
  obtain ⟨hc1, hc2⟩ := clampRank_bounds (show 0 < t.countEnabledCate row cate by omega)
  rw [hcount] at hc2
  refine order_eq ((hx.move hin hc1 (by omega)).congr fun x hmem => ?_) fun k => ?_
  · by_cases hne : x = row.id
    · subst hne
      rw [rankOf_updated_self h, if_pos rfl]
      simp [newRank, hc]
    · have hxo : x ∈ t.order := by
        rcases List.eq_or_mem_of_mem_insertIdx hmem with e | e
        · exact absurd e hne
        · exact List.mem_of_mem_erase e
      obtain ⟨r, hr, her⟩ := mem_order.1 hxo
      rw [rankOf_updated_other hne hr, if_neg hne, hk, rankOf_of_find hr]
      by_cases hsame : row.rank = cate.rank
      · -- the rank is the requested one: no shift, and the clamp changes nothing
        have hself : t.clampRank row cate = row.rank := by
          unfold clampRank; rw [hcount]; omega
        simp only [shiftedRank, shift, he, hc, hsame, hself]
        simp only [ne_eq, not_true_eq_false, and_false, or_self, if_false]
        split_ifs <;> omega
      · simp only [shiftedRank, shift, he, hc, her]
        simp only [ne_eq, not_true_eq_false, hsame, not_false_eq_true, and_self, or_true, if_true,
          true_and]
        by_cases hlt : row.rank < t.clampRank row cate
        · simp only [if_pos hlt]; split_ifs <;> omega
        · simp only [if_neg hlt]; split_ifs <;> omega
  · have hp : (t.clampRank row cate - 1).toNat ≤ (t.order.erase row.id).length := by
      rw [List.length_erase_of_mem hin]; omega
    rw [enabled_updated h, List.mem_insertIdx hp, hx.nodup.mem_erase_iff, hc]
    split_ifs with e <;> simp [e]

/-- Enabling a disabled row that kept no small rank. -/
theorem order_enable (he : row.enabled = false) (hc : cate.enabled = true)
    (hm : ¬t.Misplaced cate) (hid : id = cate.id) :
    (t.updated row cate).order =
        t.order.insertIdx (t.clampRank row cate - 1).toNat row.id ∧
      (t.updated row cate).RanksExact := by
  have hout : row.id ∉ t.order := by rw [mem_order_of_lookup h, he]; decide
  have hcount : t.countEnabledCate row cate = t.enabledCount + 1 := by
    simp [countEnabledCate, he, hc]
  have hlen := length_order (t := t)
  have hpos := enabledCount_nonneg (t := t)
  obtain ⟨hc1, hc2⟩ := clampRank_bounds (show 0 < t.countEnabledCate row cate by omega)
  have hrank : t.enabledCount < row.rank ∨
      row.rank = t.enabledCount ∧ t.clampRank row cate = t.enabledCount + 1 := by
    by_contra hcon
    refine hm ⟨row, hid ▸ h, he, hc, by omega, fun hlast => hcon (.inr ⟨hlast.1, ?_⟩)⟩
    unfold clampRank; rw [hcount]; omega
  refine order_eq ((hx.insertIdx hout hc1 (by omega)).congr fun x hmem => ?_) fun k => ?_
  · by_cases hne : x = row.id
    · subst hne
      rw [rankOf_updated_self h, if_pos rfl]
      simp [newRank, he]
    · have hxo := (List.eq_or_mem_of_mem_insertIdx hmem).resolve_left hne
      obtain ⟨r, hr, her⟩ := mem_order.1 hxo
      have hle := (hx.range hxo).2
      rw [hlen, rankOf_of_find hr] at hle
      rw [rankOf_updated_other hne hr, if_neg hne, rankOf_of_find hr]
      simp only [shiftedRank, shift, he, hc, her]
      simp only [ne_eq, Bool.false_eq_true, not_false_eq_true, true_or, if_true, true_and]
      by_cases hlt : row.rank < t.clampRank row cate
      · simp only [if_pos hlt]; split_ifs <;> omega
      · simp only [if_neg hlt]; split_ifs <;> omega
  · rw [enabled_updated h, List.mem_insertIdx (by omega), hc]
    split_ifs with e <;> simp [e]

/-- Enabling a disabled row that kept the rank of an enabled one: two rows meet at a rank, or
one is moved out of the range. -/
theorem not_ranked_of_misplaced (he : row.enabled = false) (hc : cate.enabled = true)
    (h0 : 0 ≤ row.rank) (hle : row.rank ≤ t.enabledCount)
    (hlast : ¬(row.rank = t.enabledCount ∧ t.enabledCount < max cate.rank 1)) :
    ¬Ranked (t.updated row cate).order (t.updated row cate).rankOf := by
  intro hx'
  have hout : row.id ∉ t.order := by rw [mem_order_of_lookup h, he]; decide
  have hcount : t.countEnabledCate row cate = t.enabledCount + 1 := by
    simp [countEnabledCate, he, hc]
  have hlen := length_order (t := t)
  obtain ⟨hc1, -⟩ := clampRank_bounds (show 0 < t.countEnabledCate row cate by omega)
  have hclamp : t.clampRank row cate = min (max cate.rank 1) (t.enabledCount + 1) := by
    unfold clampRank; rw [hcount]
  -- where the row that has rank `k` before is afterwards
  have hafter {k : ℤ} (hk1 : 1 ≤ k) (hk2 : k ≤ t.enabledCount) :
      ∃ x ∈ (t.updated row cate).order, x ≠ row.id ∧ t.rankOf x = k ∧
        (t.updated row cate).rankOf x =
          if row.rank < t.clampRank row cate then
            if row.rank + 1 ≤ k ∧ k ≤ t.clampRank row cate then k + -1 else k
          else if t.clampRank row cate ≤ k ∧ k ≤ row.rank - 1 then k + 1 else k := by
    obtain ⟨x, hxo, rfl⟩ := hx.exists_rank hk1 (by omega)
    have hne : x ≠ row.id := fun e => hout (e ▸ hxo)
    obtain ⟨r, hr, her⟩ := mem_order.1 hxo
    refine ⟨x, mem_order.2 ((enabled_updated h).2 (by rw [if_neg hne]; exact hxo)), hne, rfl, ?_⟩
    rw [rankOf_updated_other hne hr, rankOf_of_find hr]
    simp only [shiftedRank, shift, he, hc, her]
    simp only [ne_eq, Bool.false_eq_true, not_false_eq_true, true_or, if_true, true_and]
    by_cases hlt : row.rank < t.clampRank row cate
    · simp only [if_pos hlt]
    · simp only [if_neg hlt]
  by_cases hlt : row.rank < t.clampRank row cate
  · obtain ⟨x, hxo, -, hxr, hxa⟩ := hafter (k := row.rank + 1) (by omega) (by omega)
    rw [if_pos hlt, if_pos (by omega)] at hxa
    by_cases hz : row.rank = 0
    · have := (hx'.range hxo).1
      omega
    · obtain ⟨y, hyo, -, hyr, hya⟩ := hafter (k := row.rank) (by omega) hle
      rw [if_pos hlt, if_neg (by omega)] at hya
      have := hx'.inj hxo hyo (by omega)
      rw [this] at hxr; omega
  · obtain ⟨x, hxo, hxne, hxr, hxa⟩ := hafter (k := row.rank) (by omega) hle
    rw [if_neg hlt, if_neg (by omega)] at hxa
    by_cases hlt' : t.clampRank row cate < row.rank
    · obtain ⟨y, hyo, -, hyr, hya⟩ := hafter (k := row.rank - 1) (by omega) (by omega)
      rw [if_neg hlt, if_pos (by omega)] at hya
      have := hx'.inj hxo hyo (by omega)
      rw [this] at hxr; omega
    · have hself : row.id ∈ (t.updated row cate).order :=
        mem_order.2 ((enabled_updated h).2 (by rw [if_pos rfl]; exact hc))
      have hrow : (t.updated row cate).rankOf row.id = t.clampRank row cate := by
        rw [rankOf_updated_self h]; simp [newRank, he]
      exact hxne (hx'.inj hxo hself (by omega))

theorem order_keep (he : row.enabled = false) (hc : cate.enabled = false) :
    (t.updated row cate).order = t.order ∧ (t.updated row cate).RanksExact := by
  have hout : row.id ∉ t.order := by rw [mem_order_of_lookup h, he]; decide
  have hne {k : Text} (hk : k ∈ t.order) : k ≠ row.id := fun e => hout (e ▸ hk)
  refine order_eq (hx.congr fun x hxo => ?_) fun k => ?_
  · obtain ⟨r, hr, -⟩ := mem_order.1 hxo
    rw [rankOf_updated_other (hne hxo) hr, rankOf_of_find hr]
    simp [shiftedRank, shift, he, hc]
  · rw [enabled_updated h, hc]
    split_ifs with e
    · simpa using fun hk => hne hk e
    · rfl

end Refinement

/-- **An update that is not misplaced acts on the ordered list as `listUpdate`.** -/
theorem order_updated (hx : t.RanksExact) (hn : t.enabledCount ≤ RANK_MAX)
    (h : t.lookup cate.id = some row) (hm : ¬t.Misplaced cate) :
    (t.updated row cate).order = listUpdate t.order row.id cate.rank cate.enabled ∧
      (t.updated row cate).RanksExact := by
  have hx := ranksExact_iff.1 hx
  have hlen := length_order (t := t)
  unfold listUpdate
  cases hc : cate.enabled with
  | true =>
    cases he : row.enabled with
    | true =>
      have hin : row.id ∈ t.order := (mem_order_of_lookup h).2 he
      have hpos := List.length_pos_of_mem hin
      have hclamp : t.clampRank row cate =
          min (max cate.rank 1) ((t.order.erase row.id).length + 1) := by
        simp only [clampRank, countEnabledCate, he, List.length_erase_of_mem hin]
        simp; omega
      rw [if_pos rfl, ← hclamp]
      exact order_move hx h he hc
    | false =>
      have hout : row.id ∉ t.order := by rw [mem_order_of_lookup h, he]; decide
      have hclamp : t.clampRank row cate = min (max cate.rank 1) (t.order.length + 1) := by
        simp only [clampRank, countEnabledCate, he, hc, hlen]; simp
      rw [if_pos rfl, List.erase_of_not_mem hout, ← hclamp]
      exact order_enable hx h he hc hm rfl
  | false =>
    rw [if_neg (by simp)]
    cases he : row.enabled with
    | true => exact order_disable hx h hn he hc
    | false =>
      have hout : row.id ∉ t.order := by rw [mem_order_of_lookup h, he]; decide
      rw [List.erase_of_not_mem hout]
      exact order_keep hx h he hc

theorem not_ranksExact_of_misplaced (hx : t.RanksExact) (h : t.lookup cate.id = some row)
    (h0 : 0 ≤ row.rank) (hm : t.Misplaced cate) : ¬(t.updated row cate).RanksExact := by
  obtain ⟨row', h', he, hc, hle, hlast⟩ := hm
  rw [h] at h'; cases h'
  rw [ranksExact_iff]
  exact not_ranked_of_misplaced (ranksExact_iff.1 hx) h he hc h0 hle hlast

end CategoryTable

/-! ## Through the methods -/

open CategoryTable

section Methods

variable {db : Db} {cate : Category} {row : CategoryRow}

/-- The enabled categories in the order of `getCategories`. -/
def enabledCategories (db : Db) : List Category := (getCategories db).filter (·.enabled)

theorem enabledCategories_eq :
    enabledCategories db = ((db.category.orderBy (·.rank)).filter (·.enabled)).map fun row =>
      { id := row.id.val, name := row.name.val, rank := row.rank, enabled := row.enabled } := by
  unfold enabledCategories getCategories
  rw [rows_cateRank, List.filter_map]
  rfl

theorem map_id_enabledCategories :
    (enabledCategories db).map (·.id) = db.category.order.map (·.val) := by
  rw [enabledCategories_eq, order, Table.orderedKeys, List.map_map, List.map_map]
  rfl

theorem map_rank_enabledCategories (hx : db.category.RanksExact) :
    (enabledCategories db).map (·.rank) =
      (List.range (enabledCategories db).length).map fun i : ℕ => (i : ℤ) + 1 := by
  have hr : (enabledCategories db).map (·.rank) = db.category.order.map db.category.rankOf := by
    rw [order, Table.map_orderedKeys (reads_rankOf _), enabledCategories_eq, List.map_map]
    rfl
  have hl : (enabledCategories db).length = db.category.order.length := by
    rw [← List.length_map (f := (·.id)), map_id_enabledCategories, List.length_map]
  rw [hr, hl]
  refine List.ext_getElem (by simp) fun i hi hi' => ?_
  rw [List.getElem_map, List.getElem_map, List.getElem_range, (ranksExact_iff.1 hx).rank]

theorem map_listUpdate {κ κ' : Type} [DecidableEq κ] [DecidableEq κ'] {f : κ → κ'}
    (hf : Function.Injective f) (L : List κ) (id : κ) (rank : ℤ) (enabled : Bool) :
    (listUpdate L id rank enabled).map f = listUpdate (L.map f) (f id) rank enabled := by
  have herase : (L.erase id).map f = (L.map f).erase (f id) := List.map_erase hf L
  unfold listUpdate
  split_ifs
  · rw [List.map_insertIdx, herase, ← herase, List.length_map]
  · exact herase

/-- **`updateCategory` refines the update of the ordered list.** Names are bound as C strings,
so the row gets the name up to its first NUL. -/
theorem updateCategory_refines (hx : db.category.RanksExact)
    (hn : db.category.enabledCount < RANK_MAX)
    (hd : ∀ r ∈ db.category.rows, r.enabled = false → r.rank = RANK_MAX)
    (h : db.category.lookup cate.id = some row) :
    ∃ db', updateCategory noFault db cate = (true, db') ∧
      (enabledCategories db').map (·.id) =
        listUpdate ((enabledCategories db).map (·.id)) cate.id cate.rank cate.enabled ∧
      (enabledCategories db').map (·.rank) =
        (List.range (enabledCategories db').length).map (fun i : ℕ => (i : ℤ) + 1) ∧
      (∃ row', db'.category.lookup cate.id = some row' ∧ row'.enabled = cate.enabled ∧
        row'.name = if cate.name = "" then row.name else .ofCStr cate.name) ∧
      ∀ k, k.val ≠ cate.id → (db'.category.find k).map (fun r => (r.name, r.enabled)) =
        (db.category.find k).map fun r => (r.name, r.enabled) := by
  obtain ⟨hmem, hid⟩ := lookup_eq_some_iff.1 h
  have hm : ¬db.category.Misplaced cate := by
    rintro ⟨row', h', he, -, hle, -⟩
    rw [h] at h'; cases h'
    have := hd row hmem he
    omega
  have h0 : 0 ≤ row.rank := by
    cases he : row.enabled with
    | true =>
      have := ((ranksExact_iff.1 hx).range ((mem_order_of_lookup h).2 he)).1
      rw [rankOf_of_find (find_of_lookup h)] at this
      omega
    | false => rw [hd row hmem he]; decide
  obtain ⟨clock, heq⟩ := updateCategory_eq h h0
  obtain ⟨ho, hx'⟩ := order_updated hx hn.le h hm
  refine ⟨_, heq, ?_, map_rank_enabledCategories hx', ?_, fun k hk => ?_⟩
  · rw [map_id_enabledCategories, map_id_enabledCategories, ho,
      map_listUpdate fun _ _ => Text.ext, hid]
  · refine ⟨{ row with
      rank := db.category.newRank row cate, enabled := cate.enabled, name := newName row cate },
      ?_, rfl, rfl⟩
    rw [← hid, lookup_val]
    exact find_updated_self h
  · have hne : k ≠ row.id := fun e => hk (e ▸ hid)
    show ((db.category.updated row cate).find k).map _ = _
    rw [find_updated_other hne, Option.map_map]
    rfl

/-- Three rows: two enabled ones and a disabled one. -/
def sampleTable : CategoryTable :=
  ⟨[{ id := .ofCStr "a", name := .ofCStr "A", rank := 2, enabled := true },
    { id := .ofCStr "b", name := .ofCStr "B", rank := RANK_MAX, enabled := false },
    { id := .ofCStr "c", name := .ofCStr "C", rank := 1, enabled := true }], by decide⟩

/-- Enabling the disabled row in the middle. -/
theorem updateCategory_refines_sample :
    ∃ db', updateCategory noFault ⟨⟨sampleTable, []⟩, 0⟩ { id := "b", rank := 2 } = (true, db') ∧
      (enabledCategories db').map (·.id) = ["c", "b", "a"] := by
  obtain ⟨db', heq, hids, -⟩ := @updateCategory_refines ⟨⟨sampleTable, []⟩, 0⟩
    { id := "b", rank := 2 }
    { id := .ofCStr "b", name := .ofCStr "B", rank := RANK_MAX, enabled := false }
    (by decide) (by decide) (by decide) (by decide)
  exact ⟨db', heq, hids.trans (by decide)⟩

/-- A name with a NUL in it is not the name the row gets. -/
theorem updateCategory_name_cut :
    ¬∀ (db : Db) (cate : Category), db.category.RanksExact →
      db.category.enabledCount < RANK_MAX →
      (∀ r ∈ db.category.rows, r.enabled = false → r.rank = RANK_MAX) →
      cate.name ≠ "" → (db.category.lookup cate.id).isSome →
      ((updateCategory noFault db cate).2.category.lookup cate.id).map (·.name.val) =
        some cate.name := fun h => by
  have := h ⟨⟨sampleTable, []⟩, 0⟩ { id := "c", name := "New\x00name", rank := 1 }
    (by decide) (by decide) (by decide) (by decide) (by decide)
  revert this
  decide

end Methods

end UnifiedSearch
