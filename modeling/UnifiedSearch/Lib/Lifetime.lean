import UnifiedSearch.Lib.Heap

/-!
# Counted objects and scoped variables

A `Counted` object lives as long as somebody holds a pointer to it: `retain`
copies a pointer, `release` drops one and says whether it was the last. A
variable of a `Scope` can be read from its declaration to the end of its scope,
by whoever has a reference to it.
-/

namespace UnifiedSearch.Lib

/-- An object with the number of pointers that hold it. -/
structure Counted (α : Type) where
  holders : ℕ
  value : α

instance {α : Type} [Inhabited α] : Inhabited (Counted α) := ⟨⟨0, default⟩⟩

namespace Counted

variable {α : Type} {c : Counted α}

def retain (c : Counted α) : Counted α := { c with holders := c.holders + 1 }

/-- Drop one pointer. -/
def release (c : Counted α) : Counted α := { c with holders := c.holders - 1 }

end Counted

namespace Heap

variable {α : Type} {h : Heap α} {p : ℕ} {f g : α → α}

@[ext] theorem ext {h h' : Heap α} (hn : h.next = h'.next) (hc : ∀ p, h.cell p = h'.cell p) :
    h = h' := by
  cases h; cases h'; cases hn; cases funext hc; rfl

theorem modify_modify : (h.modify p f).modify p g = h.modify p fun a => g (f a) := by
  refine Heap.ext rfl fun q => ?_
  simp only [cell_modify]
  split_ifs <;> rfl

/-- Copying a pointer and dropping the copy leaves the objects as they were. -/
theorem modify_release_retain {h : Heap (Counted α)} :
    (h.modify p Counted.retain).modify p Counted.release = h := by
  rw [modify_modify]
  refine Heap.ext rfl fun q => ?_
  rw [cell_modify]
  split_ifs with e
  · rw [e]; rfl
  · rfl

end Heap

/-! ## Variables -/

/-- The variables declared so far; `none` is one whose scope has ended. -/
abbrev Scope (α : Type) := Heap (Option α)

namespace Scope

variable {α : Type} {v : Scope α} {a : α} {p : ℕ}

def declare (v : Scope α) (a : α) : ℕ × Scope α := v.alloc (some a)

/-- The end of a variable's scope. -/
def close (v : Scope α) (p : ℕ) : Scope α := v.modify p fun _ => none

/-- What a reference reads. -/
def read (v : Scope α) (p : ℕ) : Option α := v.cell p

@[simp] theorem read_declare : (v.declare a).2.read (v.declare a).1 = some a := if_pos rfl

theorem next_foldl_close (l : List ℕ) : (l.foldl close v).next = v.next :=
  Heap.next_foldl_modify l

theorem read_foldl_close (l : List ℕ) :
    (l.foldl close v).read p = if p ∈ l then none else v.read p :=
  Heap.cell_foldl_modify (f := fun _ => none) (fun _ => rfl) l

/-- No variable is in scope. -/
def Closed (v : Scope α) : Prop := ∀ p, v.read p = none

theorem closed_empty : Closed (Heap.empty : Scope α) := fun _ => rfl

/-- After a variable's scope nothing refers to it: the others are as before. -/
theorem Closed.close_declare (h : v.Closed) (a : α) :
    Closed ((v.declare a).2.close (v.declare a).1) := by
  intro p
  by_cases hp : p = v.next
  · subst hp; exact if_pos rfl
  · exact (if_neg hp).trans ((if_neg hp).trans (h p))

end Scope

end UnifiedSearch.Lib
