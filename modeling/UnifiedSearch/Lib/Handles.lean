import Mathlib.Logic.Function.Basic
import UnifiedSearch.Lib.Heap

/-!
# Handles with an owner

A handle is open from when it is made until it is ended, and an owner has one
slot for its handle. Whether a handle that is assigned to a slot ends the one
before is a parameter (`ends`). Where it does, the open handles are exactly the
ones in the slots (`Owned`), so an owner never has two of them. Handles are
numbered in the order they are made.
-/

namespace UnifiedSearch.Lib

structure Handle (ι α : Type) where
  owner : ι
  value : α
  live : Bool

instance {ι α : Type} [Inhabited ι] [Inhabited α] : Inhabited (Handle ι α) :=
  ⟨⟨default, default, false⟩⟩

def Handle.kill {ι α : Type} (handle : Handle ι α) : Handle ι α := { handle with live := false }

structure Handles (ι α : Type) where
  handles : Heap (Handle ι α)
  slot : ι → Option ℕ

namespace Handles

variable {ι α : Type} (s : Handles ι α)

def empty [Inhabited ι] [Inhabited α] : Handles ι α := ⟨.empty, fun _ => none⟩

/-- `h` is an open handle of `i`. -/
def Live (i : ι) (h : ℕ) : Prop := (s.handles.cell h).live = true ∧ (s.handles.cell h).owner = i

/-- The open handles are the ones in the slots. -/
structure Owned : Prop where
  live_iff : ∀ i h, s.Live i h ↔ s.slot i = some h
  fresh : ∀ h, s.handles.next ≤ h → (s.handles.cell h).live = false

theorem owned_empty [Inhabited ι] [Inhabited α] : (empty : Handles ι α).Owned :=
  ⟨fun _ _ => ⟨fun h => (Bool.false_ne_true h.1).elim, fun h => by cases h⟩, fun _ _ => rfl⟩

section Owned

variable {s} {i : ι} {h h' : ℕ}

theorem Owned.unique (ho : s.Owned) (hh : s.Live i h) (hh' : s.Live i h') : h = h' := by
  rw [ho.live_iff] at hh hh'
  exact Option.some.inj (hh.symm.trans hh')

theorem Owned.lt_next (ho : s.Owned) (hh : s.Live i h) : h < s.handles.next := by
  by_contra hn
  have hdead := ho.fresh h (Nat.le_of_not_lt hn)
  exact Bool.false_ne_true (hdead.symm.trans hh.1)

end Owned

/-! ## The two operations -/

variable [DecidableEq ι]

instance (i : ι) (h : ℕ) : Decidable (s.Live i h) := inferInstanceAs (Decidable (_ ∧ _))

/-- End the handle of the slot. -/
def cancel (i : ι) : Handles ι α :=
  match s.slot i with
  | none => s
  | some h => ⟨s.handles.modify h Handle.kill, Function.update s.slot i none⟩

/-- Make a handle and assign it to the slot, which ends the handle there if it is one of `ends`. -/
def assign (ends : ℕ → Bool) (i : ι) (a : α) : Handles ι α :=
  let (h, handles) := s.handles.alloc ⟨i, a, true⟩
  let s := if (s.slot i).all ends then { s with handles }.cancel i else { s with handles }
  { s with slot := Function.update s.slot i (some h) }

variable {s} {ends : ℕ → Bool} {i j : ι} {h : ℕ} {a : α}

theorem next_cancel : (s.cancel i).handles.next = s.handles.next := by
  unfold cancel
  cases s.slot i <;> rfl

theorem next_assign : (s.assign ends i a).handles.next = s.handles.next + 1 := by
  unfold assign
  dsimp only
  split_ifs
  · rw [next_cancel]
    rfl
  · rfl

/-- What is left open, and what was asked for, when the handle of a slot ends. -/
theorem cell_cancel : (s.cancel i).handles.cell h =
    if s.slot i = some h then (s.handles.cell h).kill else s.handles.cell h := by
  unfold cancel
  cases hs : s.slot i with
  | none => rw [if_neg (by simp)]
  | some h' =>
    show (if h = h' then _ else _) = _
    by_cases hh : h = h'
    · rw [if_pos hh, if_pos (by rw [hh]), hh]
    · rw [if_neg hh, if_neg fun e => hh (Option.some.inj e).symm]

theorem slot_cancel : (s.cancel i).slot j = if j = i then none else s.slot j := by
  unfold cancel
  cases hs : s.slot i with
  | none =>
    split_ifs with hj
    · rw [hj, hs]
    · rfl
  | some h => exact Function.update_apply ..

theorem slot_assign :
    (s.assign ends i a).slot j = if j = i then some s.handles.next else s.slot j := by
  unfold assign
  dsimp only
  rw [Function.update_apply]
  split_ifs with hj
  · rfl
  · rw [slot_cancel, if_neg hj]
  · rfl

theorem Owned.cancel (ho : s.Owned) : (s.cancel i).Owned := by
  refine ⟨fun j h => ?_, fun h hn => ?_⟩
  · unfold Live
    rw [cell_cancel, slot_cancel]
    by_cases hi : s.slot i = some h
    · rw [if_pos hi]
      refine iff_of_false (fun hd => Bool.false_ne_true hd.1) ?_
      intro hj
      split_ifs at hj with hji
      exact hji ((((ho.live_iff j h).2 hj).2.symm).trans ((ho.live_iff i h).2 hi).2)
    · rw [if_neg hi]
      refine (ho.live_iff j h).trans ?_
      split_ifs with hji
      · rw [hji]
        exact iff_of_false hi (by simp)
      · rfl
  · rw [cell_cancel]
    rw [next_cancel] at hn
    split_ifs
    · rfl
    · exact ho.fresh h hn

section Assign

variable (ho : s.Owned) (he : (s.slot i).all ends = true)

include ho he

theorem Owned.cell_assign : (s.assign ends i a).handles.cell h =
    if s.slot i = some h then (s.handles.cell h).kill
    else if h = s.handles.next then ⟨i, a, true⟩ else s.handles.cell h := by
  unfold assign
  dsimp only
  rw [if_pos he, cell_cancel]
  by_cases hs : s.slot i = some h
  · have hlt := ho.lt_next ((ho.live_iff i h).2 hs)
    rw [if_pos hs, if_pos hs]
    exact congrArg Handle.kill (Heap.cell_alloc_of_lt hlt)
  · rw [if_neg hs, if_neg hs]
    rfl

theorem Owned.assign : (s.assign ends i a).Owned := by
  refine ⟨fun j h => ?_, fun h hn => ?_⟩
  · unfold Live
    rw [ho.cell_assign he, slot_assign]
    by_cases hs : s.slot i = some h
    · have hlive := (ho.live_iff i h).2 hs
      have hlt := ho.lt_next hlive
      rw [if_pos hs]
      refine iff_of_false (fun hd => Bool.false_ne_true hd.1) ?_
      intro hj
      split_ifs at hj with hji
      · exact Nat.ne_of_lt hlt (Option.some.inj hj).symm
      · exact hji ((((ho.live_iff j h).2 hj).2.symm).trans hlive.2)
    · rw [if_neg hs]
      by_cases hn : h = s.handles.next
      · subst hn
        have hdead := ho.fresh _ (Nat.le_refl _)
        rw [if_pos rfl]
        by_cases hji : j = i
        · rw [if_pos hji]
          exact iff_of_true ⟨rfl, hji.symm⟩ rfl
        · rw [if_neg hji, ← ho.live_iff]
          refine iff_of_false (fun hd => hji hd.2.symm) fun hd => ?_
          exact Bool.false_ne_true (hdead.symm.trans hd.1)
      · rw [if_neg hn]
        refine (ho.live_iff j h).trans ?_
        split_ifs with hji
        · rw [hji]
          exact iff_of_false hs fun e => hn (Option.some.inj e).symm
        · rfl
  · rw [next_assign] at hn
    rw [ho.cell_assign he, if_neg fun hs => ?_, if_neg (by omega)]
    · exact ho.fresh h (by omega)
    · have hlt := ho.lt_next ((ho.live_iff i h).2 hs)
      omega

/-- An open handle after an assignment is the new one, or was open before and is of another slot. -/
theorem Owned.live_assign : (s.assign ends i a).Live j h ↔
    (j = i ∧ h = s.handles.next) ∨ (j ≠ i ∧ s.Live j h) := by
  rw [(ho.assign he).live_iff, slot_assign, ho.live_iff]
  split_ifs with hji
  · simp [hji, eq_comm]
  · simp [hji]

theorem Owned.value_assign (hh : (s.assign ends i a).Live j h) :
    ((s.assign ends i a).handles.cell h).value =
      if j = i then a else (s.handles.cell h).value := by
  rw [ho.cell_assign he]
  rcases (ho.live_assign he).1 hh with ⟨rfl, rfl⟩ | ⟨hji, hold⟩
  · rw [if_neg, if_pos rfl, if_pos rfl]
    intro hs
    exact Nat.lt_irrefl _ (ho.lt_next ((ho.live_iff j _).2 hs))
  · have hlt := ho.lt_next hold
    rw [if_neg hji, if_neg, if_neg (Nat.ne_of_lt hlt)]
    intro hs
    exact hji (hold.2.symm.trans ((ho.live_iff i h).2 hs).2)

end Assign

theorem Owned.live_cancel (ho : s.Owned) : (s.cancel i).Live j h ↔ j ≠ i ∧ s.Live j h := by
  rw [ho.cancel.live_iff, slot_cancel, ho.live_iff]
  split_ifs with hji
  · simp [hji]
  · simp [hji]

theorem value_cancel :
    ((s.cancel i).handles.cell h).value = (s.handles.cell h).value := by
  rw [cell_cancel]
  split_ifs <;> rfl

end Handles

end UnifiedSearch.Lib
