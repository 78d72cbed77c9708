import Mathlib.Data.Finset.Dedup
import Mathlib.Data.Finset.Erase
import Mathlib.Data.Finset.Insert
import UnifiedSearch.Base.CategoryRuns

/-!
# The menu

What the `Category` table is for: the categories the user sees, in an order of
his own, and the ones he has switched off. A `Menu` is just that; `StandsFor` ties
a table to its menu, and an update or an insert of the table is
`put` or `register` on the menu.

A row that is switched off keeps a rank, which decides later whether it can be
put back (`Allowed`), so a menu knows it too.
-/

namespace UnifiedSearch

open Lib CategoryTable

/-! ## Lists -/

section Lists

variable {κ : Type} [DecidableEq κ] {L : List κ} {x : κ}

theorem position_le (L : List κ) (id : κ) (rank : ℤ) :
    (min (max rank 1) ((L.erase id).length + 1) - 1).toNat ≤ (L.erase id).length := by omega

theorem mem_listUpdate (h : L.Nodup) (id : κ) (rank : ℤ) (enabled : Bool) :
    x ∈ listUpdate L id rank enabled ↔ if x = id then enabled = true else x ∈ L := by
  unfold listUpdate
  cases enabled with
  | true =>
    rw [if_pos rfl, List.mem_insertIdx (position_le L id rank), h.mem_erase_iff]
    split_ifs with hx <;> simp [hx]
  | false =>
    rw [if_neg Bool.false_ne_true, h.mem_erase_iff]
    split_ifs with hx <;> simp [hx]

theorem nodup_listUpdate (h : L.Nodup) (id : κ) (rank : ℤ) (enabled : Bool) :
    (listUpdate L id rank enabled).Nodup := by
  unfold listUpdate
  split_ifs
  · refine ((List.perm_insertIdx id _ (position_le L id rank)).nodup_iff).2 ?_
    exact List.nodup_cons.2 ⟨h.not_mem_erase, h.erase id⟩
  · exact h.erase id

end Lists

/-! ## Menus -/

/-- The categories that are shown, in their order, and those that are not. -/
structure Menu where
  shown : List String
  hidden : Finset String
  name : String → String
  /-- The rank a hidden category has kept. -/
  parked : String → ℤ
  nodup : shown.Nodup
  apart : ∀ k ∈ shown, k ∉ hidden

namespace Menu

def Knows (m : Menu) (k : String) : Prop := k ∈ m.shown ∨ k ∈ m.hidden

instance {m : Menu} {k : String} : Decidable (m.Knows k) := inferInstanceAs (Decidable (_ ∨ _))

def rank (m : Menu) (k : String) : ℤ :=
  if k ∈ m.shown then m.shown.idxOf k + 1 else m.parked k

/-- Show a category at a position, or hide it. What is hidden keeps a rank past every position;
if it was hidden already, one that has been clamped to a position. -/
def put (m : Menu) (k : String) (rank : ℤ) (enabled : Bool) (name : String) : Menu where
  shown := listUpdate m.shown k rank enabled
  hidden := if enabled then m.hidden.erase k else insert k m.hidden
  name := if name = "" then m.name else Function.update m.name k (Text.ofCStr name).val
  parked := Function.update m.parked k
    (if k ∈ m.shown then RANK_MAX else min (max rank 1) m.shown.length)
  nodup := nodup_listUpdate m.nodup k rank enabled
  apart x hx := by
    have hin := (mem_listUpdate m.nodup k rank enabled).1 hx
    split_ifs at hin with hk
    · rw [hin, hk]
      simp
    · have hout := m.apart x hin
      cases enabled <;> simp [hk, hout]

/-- Whether the ranks stay exact: a hidden category is shown only if the rank it has kept is past
every position, or is the last one and the category goes behind it. -/
def Allowed (m : Menu) (k : String) (rank : ℤ) (enabled : Bool) : Prop :=
  if k ∈ m.shown then enabled = false → (m.shown.length : ℤ) ≤ RANK_MAX
  else enabled = true → m.shown.length < m.parked k ∨
    m.parked k = m.shown.length ∧ m.shown.length < max rank 1

instance {m : Menu} {k : String} {rank : ℤ} {enabled : Bool} :
    Decidable (m.Allowed k rank enabled) := by
  unfold Allowed
  infer_instance

theorem allowed_keep (m : Menu) (k : String) (rank : ℤ) :
    m.Allowed k rank (decide (k ∈ m.shown)) := by
  unfold Allowed
  split_ifs with hk <;> simp [hk]

/-- A category that is not known yet goes to the end. -/
def register (m : Menu) (k name : String) : Menu :=
  if h : m.Knows k then m
  else { m with
    shown := m.shown ++ [k]
    name := Function.update m.name k (Text.ofCStr name).val
    nodup := List.nodup_append_comm.1
      (List.nodup_cons.2 ⟨fun hk => h (.inl hk), m.nodup⟩)
    apart := fun x hx => (List.mem_append.1 hx).elim (m.apart x)
      fun hx hh => h (.inr (List.mem_singleton.1 hx ▸ hh)) }

end Menu

namespace CategoryTable

variable {t t' : CategoryTable} {row r : CategoryRow} {cate : Category} {m : Menu} {k : String}

/-- The table stands for the menu. -/
structure StandsFor (t : CategoryTable) (m : Menu) : Prop where
  exact : t.RanksExact
  shown : t.order.map (·.val) = m.shown
  hidden : ∀ k, k ∈ m.hidden ↔ ∃ r, t.lookup k = some r ∧ r.enabled = false
  parked : ∀ k r, t.lookup k = some r → r.enabled = false → r.rank = m.parked k ∧ 0 ≤ r.rank
  name : ∀ k r, t.lookup k = some r → r.name.val = m.name k

/-- The menu of a table. -/
def menu (t : CategoryTable) : Menu where
  shown := t.order.map (·.val)
  hidden := ((t.rows.filter fun r => !r.enabled).map (·.id.val)).toFinset
  name k := ((t.lookup k).map (·.name.val)).getD ""
  parked k := ((t.lookup k).map (·.rank)).getD 0
  nodup := by
    have hinj : Function.Injective fun x : Text => x.val := fun _ _ => Text.ext
    exact (t.nodup_orderedKeys _ _).map hinj
  apart k hk hh := by
    obtain ⟨x, hx, rfl⟩ := List.mem_map.1 hk
    obtain ⟨r, hr, hen⟩ := mem_order.1 hx
    obtain ⟨r', hr', hid⟩ := List.mem_map.1 (List.mem_toFinset.1 hh)
    obtain ⟨hmem, hdis⟩ := List.mem_filter.1 hr'
    have hfind := Table.find_of_mem hmem
    rw [Text.ext hid, hr] at hfind
    cases hfind
    rw [hen] at hdis
    cases hdis

theorem standsFor_menu (hx : t.RanksExact) (hn : t.NonNeg) : t.StandsFor t.menu := by
  refine ⟨hx, rfl, fun k => ?_, fun k r hr _ => ⟨?_, hn r (lookup_eq_some_iff.1 hr).1⟩,
    fun k r hr => ?_⟩
  · unfold menu
    rw [List.mem_toFinset, List.mem_map]
    constructor
    · rintro ⟨r, hr, rfl⟩
      obtain ⟨hmem, hdis⟩ := List.mem_filter.1 hr
      exact ⟨r, lookup_eq_some_iff.2 ⟨hmem, rfl⟩, by simpa using hdis⟩
    · rintro ⟨r, hr, hdis⟩
      obtain ⟨hmem, hid⟩ := lookup_eq_some_iff.1 hr
      exact ⟨r, List.mem_filter.2 ⟨hmem, by simp [hdis]⟩, hid⟩
  · unfold menu
    dsimp only
    rw [hr]
    rfl
  · unfold menu
    dsimp only
    rw [hr]
    rfl

theorem lookup_updated_eq (hl : t.lookup cate.id = some row) : (t.updated row cate).lookup k =
    if k = cate.id then some { row with
      rank := t.newRank row cate, enabled := cate.enabled, name := newName row cate }
    else (t.lookup k).map fun r => { r with rank := t.shiftedRank row cate r } := by
  have hid : row.id.val = cate.id := (lookup_eq_some_iff.1 hl).2
  rw [lookup_updated]
  split_ifs with hk
  · rw [hk, hl]
    unfold updateRow
    rw [Option.map_some, if_pos rfl]
  · refine Option.map_congr fun r hr => ?_
    have hne : r.id ≠ row.id := fun e =>
      hk ((lookup_eq_some_iff.1 hr).2.symm.trans ((congrArg (·.val) e).trans hid))
    unfold updateRow
    rw [if_neg hne]

/-- The position is clamped to the rows that are enabled afterwards. -/
theorem listUpdate_order (hl : t.lookup cate.id = some row) (hc : cate.enabled = true) :
    listUpdate t.order row.id cate.rank true =
      (t.order.erase row.id).insertIdx (t.clampRank row cate - 1).toNat row.id := by
  have hcount : t.countEnabledCate row cate = (t.order.erase row.id).length + 1 := by
    have hlen := length_order (t := t)
    unfold countEnabledCate
    rw [hc]
    cases he : row.enabled with
    | true =>
      have hin : row.id ∈ t.order := (mem_order_of_lookup hl).2 he
      have hpos := List.length_pos_of_mem hin
      rw [List.length_erase_of_mem hin, ← hlen]
      simp only [Bool.not_true, Bool.and_true, Bool.false_eq_true, if_false]
      omega
    | false =>
      have hout : row.id ∉ t.order := by rw [mem_order_of_lookup hl, he]; decide
      rw [List.erase_of_not_mem hout, ← hlen]
      rfl
  unfold listUpdate clampRank
  rw [if_pos rfl, hcount]

theorem shiftedRank_disabled (he : r.enabled = false) : t.shiftedRank row cate r = r.rank := by
  unfold shiftedRank
  cases t.shift row cate <;> simp [he]

namespace StandsFor

theorem mem_shown (h : t.StandsFor m) :
    k ∈ m.shown ↔ ∃ r, t.lookup k = some r ∧ r.enabled = true := by
  rw [← h.shown, List.mem_map]
  constructor
  · rintro ⟨x, hx, rfl⟩
    obtain ⟨r, hr, hen⟩ := mem_order.1 hx
    exact ⟨r, (lookup_val x).trans hr, hen⟩
  · rintro ⟨r, hr, hen⟩
    exact ⟨r.id, (mem_order_of_lookup hr).2 hen, (lookup_eq_some_iff.1 hr).2⟩

theorem enabled_iff (h : t.StandsFor m) (hr : t.lookup k = some r) :
    r.enabled = true ↔ k ∈ m.shown := by
  rw [h.mem_shown, hr]
  simp

theorem knows_iff (h : t.StandsFor m) : m.Knows k ↔ (t.lookup k).isSome = true := by
  unfold Menu.Knows
  rw [h.mem_shown, h.hidden]
  cases ht : t.lookup k with
  | none => simp
  | some r => cases he : r.enabled <;> simp [he]

theorem length_shown (h : t.StandsFor m) : (m.shown.length : ℤ) = t.enabledCount := by
  rw [← h.shown, List.length_map, length_order]

theorem rank (h : t.StandsFor m) (hr : t.lookup k = some r) : r.rank = m.rank k := by
  unfold Menu.rank
  cases he : r.enabled with
  | false =>
    have hout : k ∉ m.shown := fun hk => by
      rw [(h.enabled_iff hr).2 hk] at he
      cases he
    rw [if_neg hout]
    exact (h.parked k r hr he).1
  | true =>
    have hin : k ∈ m.shown := (h.enabled_iff hr).1 he
    have hlt' : m.shown.idxOf k < (t.order.map (·.val)).length := by
      rw [h.shown]
      exact List.idxOf_lt_length_of_mem hin
    have hlt : m.shown.idxOf k < t.order.length := by rwa [List.length_map] at hlt'
    have hget : t.order[m.shown.idxOf k] = r.id := by
      have hval := List.getElem_of_eq h.shown hlt'
      rw [List.getElem_map, List.getElem_idxOf] at hval
      exact Text.ext (hval.trans (lookup_eq_some_iff.1 hr).2.symm)
    have hrank := (ranksExact_iff.1 h.exact).rank _ hlt
    rw [hget, rankOf_of_find (find_of_lookup hr)] at hrank
    rw [if_pos hin, hrank]

theorem rank_nonneg (h : t.StandsFor m) (hr : t.lookup k = some r) : 0 ≤ r.rank := by
  cases he : r.enabled with
  | false => exact (h.parked k r hr he).2
  | true => exact le_trans (by decide) (one_le_rank h.exact (lookup_eq_some_iff.1 hr).1 he)

/-! ## Updates -/

section Updates

variable (h : t.StandsFor m) (hl : t.lookup cate.id = some row)
  (hok : m.Allowed cate.id cate.rank cate.enabled)
include h hl hok

theorem not_misplaced : ¬t.Misplaced cate := by
  rintro ⟨row', hl', he, hc, hle, hlast⟩
  obtain rfl : row = row' := Option.some.inj (hl.symm.trans hl')
  have hout : cate.id ∉ m.shown := by rw [← h.enabled_iff hl, he]; decide
  have hparked := (h.parked _ row hl he).1
  unfold Menu.Allowed at hok
  rw [if_neg hout, h.length_shown, ← hparked] at hok
  rcases hok hc with hlt | hend
  · omega
  · exact hlast hend

theorem order_put : (t.updated row cate).order = listUpdate t.order row.id cate.rank cate.enabled ∧
    (t.updated row cate).RanksExact := by
  have hx := ranksExact_iff.1 h.exact
  cases hc : cate.enabled with
  | true =>
    rw [listUpdate_order hl hc]
    cases he : row.enabled with
    | true => exact order_move hx hl he hc
    | false =>
      have hout : row.id ∉ t.order := by rw [mem_order_of_lookup hl, he]; decide
      rw [List.erase_of_not_mem hout]
      exact order_enable hx hl he hc (h.not_misplaced hl hok) rfl
  | false =>
    show _ = t.order.erase row.id ∧ _
    cases he : row.enabled with
    | true =>
      unfold Menu.Allowed at hok
      rw [if_pos ((h.enabled_iff hl).1 he), h.length_shown] at hok
      exact order_disable hx hl (hok hc) he hc
    | false =>
      have hout : row.id ∉ t.order := by rw [mem_order_of_lookup hl, he]; decide
      rw [List.erase_of_not_mem hout]
      exact order_keep hx hl he hc

omit hok in
/-- The rank the row keeps when it is disabled. -/
theorem newRank_parked (hc : cate.enabled = false) : t.newRank row cate =
    (m.put cate.id cate.rank cate.enabled cate.name).parked cate.id := by
  unfold Menu.put
  dsimp only
  rw [Function.update_self]
  unfold newRank clampRank countEnabledCate
  cases he : row.enabled with
  | true => simp [hc, (h.enabled_iff hl).1 he]
  | false =>
    have hout : cate.id ∉ m.shown := by rw [← h.enabled_iff hl, he]; decide
    simp [hc, hout, h.length_shown]

/-- **An allowed update of the table is `put` on the menu.** -/
theorem updated :
    (t.updated row cate).StandsFor (m.put cate.id cate.rank cate.enabled cate.name) := by
  obtain ⟨horder, hexact⟩ := h.order_put hl hok
  have hinj : Function.Injective fun x : Text => x.val := fun _ _ => Text.ext
  refine ⟨hexact, ?_, fun k => ?_, fun k r' hr' he => ?_, fun k r' hr' => ?_⟩
  · rw [horder, map_listUpdate hinj, h.shown]
    exact congrArg (listUpdate m.shown · _ _) (lookup_eq_some_iff.1 hl).2
  · rw [lookup_updated_eq hl]
    unfold Menu.put
    by_cases hk : k = cate.id
    · rw [if_pos hk, hk]
      cases cate.enabled <;> simp
    · rw [if_neg hk]
      have hsame : k ∈ m.hidden ↔ ∃ r', (t.lookup k).map (fun r =>
          { r with rank := t.shiftedRank row cate r }) = some r' ∧ r'.enabled = false := by
        rw [h.hidden]
        simp
      rw [← hsame]
      cases cate.enabled <;> simp [hk]
  · rw [lookup_updated_eq hl] at hr'
    split_ifs at hr' with hk
    · obtain rfl := Option.some.inj hr'
      rw [hk]
      exact ⟨h.newRank_parked hl he, newRank_nonneg⟩
    · obtain ⟨r, hr, rfl⟩ := Option.map_eq_some_iff.1 hr'
      have he : r.enabled = false := he
      unfold Menu.put
      dsimp only
      rw [Function.update_of_ne hk, shiftedRank_disabled he]
      exact h.parked k r hr he
  · rw [lookup_updated_eq hl] at hr'
    unfold Menu.put
    split_ifs at hr' with hk
    · obtain rfl := Option.some.inj hr'
      subst hk
      unfold newName
      dsimp only
      split_ifs
      · exact h.name _ row hl
      · rw [Function.update_self]
    · obtain ⟨r, hr, rfl⟩ := Option.map_eq_some_iff.1 hr'
      dsimp only
      rw [h.name k r hr]
      split_ifs
      · rfl
      · rw [Function.update_of_ne hk]

end Updates

/-- A new row is `register` on the menu. -/
theorem inserted (h : t.StandsFor m) (hn : NulFree cate.id)
    (ht : t.insert (newRow t cate) = some t') : t'.StandsFor (m.register cate.id cate.name) := by
  obtain ⟨horder, hexact⟩ := ranksExact_insert h.exact ht
  have hid : (newRow t cate).id.val = cate.id := Text.ofCStr_of_nulFree hn
  have hnew : ¬m.Knows cate.id := by
    rw [h.knows_iff, lookup_eq_find hn, Option.not_isSome_iff_eq_none]
    by_contra hne
    have hnone : t.insert (newRow t cate) = none := Table.insert_eq_none_iff.2 hne
    rw [hnone] at ht
    cases ht
  have hfind (k : String) : t'.lookup k =
      if cate.id = k then some (newRow t cate) else t.lookup k := by
    rw [lookup_insert ht, hid]
  unfold Menu.register
  rw [dif_neg hnew]
  refine ⟨hexact, ?_, fun k => ?_, fun k r hr he => ?_, fun k r hr => ?_⟩
  · rw [horder, List.map_append, h.shown, List.map_singleton, hid]
  · rw [h.hidden, hfind]
    split_ifs with hk
    · have hout : k ∉ m.hidden := fun hh => hnew (.inr (hk ▸ hh))
      rw [h.hidden] at hout
      refine iff_of_false hout ?_
      rintro ⟨r, hr, he⟩
      obtain rfl := Option.some.inj hr
      cases he
    · rfl
  · rw [hfind] at hr
    split_ifs at hr
    · obtain rfl := Option.some.inj hr
      cases he
    · exact h.parked k r hr he
  · rw [hfind] at hr
    dsimp only
    split_ifs at hr with hk
    · obtain rfl := Option.some.inj hr
      rw [← hk, Function.update_self]
      rfl
    · rw [Function.update_of_ne (Ne.symm hk)]
      exact h.name k r hr

end StandsFor

end CategoryTable

end UnifiedSearch
