import Mathlib.Data.List.Basic
import Mathlib.Data.Nat.Notation
import Mathlib.Tactic.SplitIfs

/-!
# Shared objects

`Heap α` holds the objects that are reached through shared pointers: a pointer
is a number, everything below `next` has been made. An object that nobody has
made reads as the default one, so that reading is total.
-/

namespace UnifiedSearch.Lib

/-- Objects behind shared pointers. -/
structure Heap (α : Type) where
  next : ℕ
  cell : ℕ → α

namespace Heap

variable {α : Type} {h : Heap α} {p q : ℕ} {a : α} {f : α → α}

def empty [Inhabited α] : Heap α := ⟨0, fun _ => default⟩

/-- `make_shared`: the pointer to the new object, and the objects afterwards. -/
def alloc (h : Heap α) (a : α) : ℕ × Heap α :=
  (h.next, ⟨h.next + 1, fun p => if p = h.next then a else h.cell p⟩)

/-- Write through a pointer. -/
def modify (h : Heap α) (p : ℕ) (f : α → α) : Heap α :=
  ⟨h.next, fun q => if q = p then f (h.cell p) else h.cell q⟩

theorem cell_modify : (h.modify p f).cell q = if q = p then f (h.cell p) else h.cell q := rfl

@[simp] theorem cell_modify_self : (h.modify p f).cell p = f (h.cell p) := if_pos rfl

@[simp] theorem cell_alloc_self : (h.alloc a).2.cell h.next = a := if_pos rfl

theorem cell_alloc_of_lt (hp : p < h.next) : (h.alloc a).2.cell p = h.cell p :=
  if_neg (Nat.ne_of_lt hp)

theorem next_foldl_modify (l : List ℕ) : (l.foldl (fun h p => h.modify p f) h).next = h.next := by
  induction l generalizing h with
  | nil => rfl
  | cons q l ih => exact ih

/-- Writing through each pointer of a list, where a second write changes nothing more. -/
theorem cell_foldl_modify (hf : ∀ a, f (f a) = f a) (l : List ℕ) :
    (l.foldl (fun h p => h.modify p f) h).cell p = if p ∈ l then f (h.cell p) else h.cell p := by
  induction l generalizing h with
  | nil => simp
  | cons q l ih =>
    rw [List.foldl_cons, ih, cell_modify]
    by_cases hq : p = q
    · subst hq; simp [hf]
    · simp [hq]

end Heap

end UnifiedSearch.Lib
