import Mathlib.Tactic.TypeStar

/-!
# Runs of a deterministic system

`run step s ops` is the state after the operations `ops`. `Always` and `Each`
quantify over the states and over the steps of a run; `always_iff_each` says
when a property of every state comes down to a condition on every step: the
first step that breaks the condition already breaks the property.
-/

namespace UnifiedSearch.Lib

variable {σ ω : Type*} (step : σ → ω → σ)

/-- The state after the operations `ops`, from `s`. -/
def run (s : σ) (ops : List ω) : σ := ops.foldl step s

/-- `P` holds of every state of the run, the first and the last included. -/
def Always (P : σ → Prop) : σ → List ω → Prop
  | s, [] => P s
  | s, op :: ops => P s ∧ Always P (step s op) ops

/-- `ok` holds of every step of the run, in the state it is taken from. -/
def Each (ok : σ → ω → Prop) : σ → List ω → Prop
  | _, [] => True
  | s, op :: ops => ok s op ∧ Each ok (step s op) ops

instance Always.decidable {P : σ → Prop} [DecidablePred P] :
    ∀ s ops, Decidable (Always step P s ops)
  | s, [] => inferInstanceAs (Decidable (P s))
  | s, op :: ops =>
    have : Decidable (Always step P (step s op) ops) := Always.decidable (step s op) ops
    inferInstanceAs (Decidable (P s ∧ Always step P (step s op) ops))

instance Each.decidable {ok : σ → ω → Prop} [∀ s op, Decidable (ok s op)] :
    ∀ s ops, Decidable (Each step ok s ops)
  | _, [] => inferInstanceAs (Decidable True)
  | s, op :: ops =>
    have : Decidable (Each step ok (step s op) ops) := Each.decidable (step s op) ops
    inferInstanceAs (Decidable (ok s op ∧ Each step ok (step s op) ops))

variable {step} {P : σ → Prop} {ok : σ → ω → Prop} {s : σ} {op : ω} {ops : List ω}

theorem Always.head (h : Always step P s ops) : P s := by
  cases ops with
  | nil => exact h
  | cons op ops => exact h.1

theorem Always.last (h : Always step P s ops) : P (run step s ops) := by
  induction ops generalizing s with
  | nil => exact h
  | cons op ops ih => exact ih h.2

theorem Always.imp {Q : σ → Prop} (h : Always step P s ops) (hPQ : ∀ s, P s → Q s) :
    Always step Q s ops := by
  induction ops generalizing s with
  | nil => exact hPQ s h
  | cons op ops ih => exact ⟨hPQ s h.1, ih h.2⟩

theorem always_of_forall (h : ∀ s, P s) : Always step P s ops := by
  induction ops generalizing s with
  | nil => exact h s
  | cons op ops ih => exact ⟨h s, ih⟩

theorem Each.imp {ok' : σ → ω → Prop} (h : Each step ok s ops) (himp : ∀ s op, ok s op → ok' s op) :
    Each step ok' s ops := by
  induction ops generalizing s with
  | nil => trivial
  | cons op ops ih => exact ⟨himp s op h.1, ih h.2⟩

theorem each_congr {ok' : σ → ω → Prop} (h : ∀ s op, ok s op ↔ ok' s op) :
    Each step ok s ops ↔ Each step ok' s ops :=
  ⟨fun he => he.imp fun s op => (h s op).1, fun he => he.imp fun s op => (h s op).2⟩

theorem each_of_forall (h : ∀ op ∈ ops, ∀ s, ok s op) : Each step ok s ops := by
  induction ops generalizing s with
  | nil => trivial
  | cons op ops ih =>
    exact ⟨h op List.mem_cons_self s, ih fun op' h' => h op' (List.mem_cons_of_mem _ h')⟩

/-- One property of the steps gives another, in the states of an invariant and for the operations
that are `good`. -/
theorem Each.imp_of {ok' : σ → ω → Prop} {inv : σ → Prop} {good : ω → Prop}
    (h : Each step ok s ops) (hstep : ∀ s op, inv s → inv (step s op))
    (himp : ∀ s op, inv s → good op → ok s op → ok' s op) (hs : inv s)
    (hgood : ∀ op ∈ ops, good op) : Each step ok' s ops := by
  induction ops generalizing s with
  | nil => trivial
  | cons op ops ih =>
    exact ⟨himp s op hs (hgood op List.mem_cons_self) h.1,
      ih h.2 (hstep s op hs) fun op' h' => hgood op' (List.mem_cons_of_mem _ h')⟩

/-- A property holds of every state of a run iff every step meets the condition that is
exact for one step. `bound` is assumed of the run, `aux` is carried along. -/
theorem always_iff_each {bound good : σ → Prop} (aux : σ → Prop)
    (hgood : ∀ s op, bound s → bound (step s op) → aux s → good s → (good (step s op) ↔ ok s op))
    (haux : ∀ s op, bound s → bound (step s op) → aux s → good s → ok s op → aux (step s op))
    (hb : Always step bound s ops) (ha : aux s) (hg : good s) :
    Always step good s ops ↔ Each step ok s ops := by
  induction ops generalizing s with
  | nil => exact ⟨fun _ => trivial, fun _ => hg⟩
  | cons op ops ih =>
    obtain ⟨hb0, hb1⟩ := hb
    have hiff := hgood s op hb0 hb1.head ha hg
    constructor
    · rintro ⟨-, h⟩
      have hok := hiff.1 h.head
      exact ⟨hok, (ih hb1 (haux s op hb0 hb1.head ha hg hok) h.head).1 h⟩
    · rintro ⟨hok, h⟩
      exact ⟨hg, (ih hb1 (haux s op hb0 hb1.head ha hg hok) (hiff.2 hok)).2 h⟩

/-! ## The last write -/

section LastWrite

variable {β : Type*} {read : σ → Option β} {g : ω → Option β}

/-- Where each step writes `g op`, if anything, a run leaves what was written last. -/
theorem read_foldl (h : ∀ s op, read (step s op) = (g op).or (read s)) (ops : List ω) (s : σ) :
    read (ops.foldl step s) = ((ops.filterMap g).getLast?).or (read s) := by
  induction ops generalizing s with
  | nil => rfl
  | cons op ops ih =>
    rw [List.foldl_cons, ih, h, List.filterMap_cons]
    cases g op with
    | none => rfl
    | some b => simp only [List.getLast?_cons, Option.some_or, Option.or_some]

end LastWrite

/-! ## Invariants and outputs -/

theorem run_append (s : σ) (ops ops' : List ω) :
    run step s (ops ++ ops') = run step (run step s ops) ops' := List.foldl_append

theorem always_append {ops' : List ω} (h : Always step P s (ops ++ ops')) :
    Always step P s ops ∧ Always step P (run step s ops) ops' := by
  induction ops generalizing s with
  | nil => exact ⟨h.head, h⟩
  | cons op ops ih =>
    obtain ⟨hs, h⟩ := h
    obtain ⟨h1, h2⟩ := ih h
    exact ⟨⟨hs, h1⟩, h2⟩

theorem each_append {ops' : List ω} : Each step ok s (ops ++ ops') ↔
    Each step ok s ops ∧ Each step ok (run step s ops) ops' := by
  induction ops generalizing s with
  | nil => exact (true_and _).symm.to_iff
  | cons op ops ih =>
    show ok s op ∧ Each step ok (step s op) (ops ++ ops') ↔ _
    rw [ih, ← and_assoc]
    rfl

/-- What holds at the start and is kept by every step holds at the end. -/
theorem run_invariant (hstep : ∀ s op, P s → P (step s op)) (hs : P s) (ops : List ω) :
    P (run step s ops) := by
  induction ops generalizing s with
  | nil => exact hs
  | cons op ops ih => exact ih (hstep s op hs)

/-- The same where the steps are taken by operations that are `good`. -/
theorem run_invariant_of {good : ω → Prop} (hstep : ∀ s op, good op → P s → P (step s op))
    (hs : P s) (hgood : ∀ op ∈ ops, good op) : P (run step s ops) := by
  induction ops generalizing s with
  | nil => exact hs
  | cons op ops ih =>
    exact ih (hstep s op (hgood op List.mem_cons_self) hs)
      fun op' h' => hgood op' (List.mem_cons_of_mem _ h')

section Outputs

variable {β τ : Type*} {out : σ → ω → List β} {proj : σ → τ} {step' : τ → β → τ}

variable (step out) in
/-- What the steps of a run give out, in order. -/
def outputs : σ → List ω → List β
  | _, [] => []
  | s, op :: ops => out s op ++ outputs (step s op) ops

theorem outputs_concat (op : ω) : outputs step out s (ops ++ [op]) =
    outputs step out s ops ++ out (run step s ops) op := by
  induction ops generalizing s with
  | nil => exact List.append_nil _
  | cons op' ops ih =>
    show out s op' ++ outputs step out (step s op') (ops ++ [op]) = _
    rw [ih]
    exact (List.append_assoc ..).symm

/-- A component that each step moves along what it gives out is moved by a run along all of it. -/
theorem run_outputs (h : ∀ s op, proj (step s op) = run step' (proj s) (out s op)) (s : σ)
    (ops : List ω) : proj (run step s ops) = run step' (proj s) (outputs step out s ops) := by
  induction ops generalizing s with
  | nil => rfl
  | cons op ops ih =>
    show proj (run step (step s op) ops) = run step' (proj s) (out s op ++ outputs step out _ ops)
    rw [ih, h, run_append]

theorem outputs_filterMap {γ : Type*} {out' : σ → ω → List γ} {g : β → Option γ}
    (h : ∀ s op, out' s op = (out s op).filterMap g) (s : σ) (ops : List ω) :
    outputs step out' s ops = (outputs step out s ops).filterMap g := by
  induction ops generalizing s with
  | nil => rfl
  | cons op ops ih =>
    show out' s op ++ outputs step out' (step s op) ops = (out s op ++ _).filterMap g
    rw [h, ih, List.filterMap_append]

/-- A relation between two states that tells what has been given out between them: where it composes
and every step is in it, so is every run. -/
theorem run_accumulates {R : List β → σ → σ → Prop} {good : β → Prop} (hrefl : ∀ s, R [] s s)
    (htrans : ∀ l l' s s' s'', R l s s' → R l' s' s'' → R (l ++ l') s s'')
    (hstep : ∀ s op, (∀ b ∈ out s op, good b) → R (out s op) s (step s op))
    (hgood : ∀ b ∈ outputs step out s ops, good b) :
    R (outputs step out s ops) s (run step s ops) := by
  induction ops generalizing s with
  | nil => exact hrefl s
  | cons op ops ih =>
    exact htrans _ _ _ _ _ (hstep s op fun b hb => hgood b (List.mem_append_left _ hb))
      (ih fun b hb => hgood b (List.mem_append_right _ hb))

section Component

variable {γ υ : Type*} {out' : σ → ω → List γ} {step'' : υ → γ → υ} {ok' : τ → β → Prop}
  {ok'' : υ → γ → Prop} (part : τ → υ)
  (hpart : ∀ s t op, part (run step' t (out s op)) = run step'' (part t) (out' s op))

include hpart

/-- A component of the second state that hears outputs of its own. -/
theorem part_run (s : σ) (t : τ) (ops : List ω) : part (run step' t (outputs step out s ops)) =
    run step'' (part t) (outputs step out' s ops) := by
  induction ops generalizing s t with
  | nil => rfl
  | cons op ops ih =>
    show part (run step' t (out s op ++ _)) = run step'' (part t) (out' s op ++ _)
    rw [run_append, run_append, ih, hpart]

/-- A condition that is about the component only. -/
theorem each_part
    (h : ∀ s t op, Each step' ok' t (out s op) ↔ Each step'' ok'' (part t) (out' s op))
    (s : σ) (t : τ) (ops : List ω) : Each step' ok' t (outputs step out s ops) ↔
      Each step'' ok'' (part t) (outputs step out' s ops) := by
  induction ops generalizing s t with
  | nil => exact Iff.rfl
  | cons op ops ih =>
    show Each step' ok' t (out s op ++ _) ↔ Each step'' ok'' (part t) (out' s op ++ _)
    rw [each_append, each_append, h, ih, hpart]

end Component

/-- A relation to a second state, which is moved along what the steps give out. -/
theorem run_related {R : σ → τ → Prop} {G : ω → Prop} {t : τ}
    (h : ∀ s t op, G op → R s t → R (step s op) (run step' t (out s op))) (hs : R s t)
    (hgood : ∀ op ∈ ops, G op) :
    R (run step s ops) (run step' t (outputs step out s ops)) := by
  induction ops generalizing s t with
  | nil => exact hs
  | cons op ops ih =>
    show R (run step (step s op) ops) (run step' t (out s op ++ outputs step out _ ops))
    rw [run_append]
    exact ih (h s t op (hgood op List.mem_cons_self) hs)
      fun op' h' => hgood op' (List.mem_cons_of_mem _ h')

/-- The same where the second run meets a condition at each of its steps. -/
theorem run_related_each {R : σ → τ → Prop} {G : ω → Prop} {ok' : τ → β → Prop} {t : τ}
    (h : ∀ s t op, G op → Each step' ok' t (out s op) → R s t →
      R (step s op) (run step' t (out s op))) (hs : R s t) (hgood : ∀ op ∈ ops, G op)
    (hok : Each step' ok' t (outputs step out s ops)) :
    R (run step s ops) (run step' t (outputs step out s ops)) := by
  induction ops generalizing s t with
  | nil => exact hs
  | cons op ops ih =>
    obtain ⟨hhead, htail⟩ := each_append.1 hok
    show R (run step (step s op) ops) (run step' t (out s op ++ outputs step out _ ops))
    rw [run_append]
    exact ih (h s t op (hgood op List.mem_cons_self) hhead hs)
      (fun op' h' => hgood op' (List.mem_cons_of_mem _ h')) htail

end Outputs

end UnifiedSearch.Lib
