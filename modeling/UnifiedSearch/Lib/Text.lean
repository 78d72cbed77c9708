import Mathlib.Data.List.TakeWhile
import Mathlib.Data.String.Basic

/-!
# Text crossing a C interface

`Text` is text without a NUL, as a database stores what is bound as a C
string; `Text.ofCStr` cuts a string at its first NUL. `readLiteral` reads the
body of an SQL string literal: it ends at the first single quote that is not
doubled.
-/

namespace UnifiedSearch.Lib

/-- A string without a NUL character. -/
def NulFree (s : String) : Prop := '\x00' ∉ s.toList

instance (s : String) : Decidable (NulFree s) := inferInstanceAs (Decidable (_ ∉ _))

/-- Text without a NUL. -/
structure Text where
  val : String
  nulFree : NulFree val

namespace Text

@[ext] theorem ext {a b : Text} (h : a.val = b.val) : a = b := by
  cases a; cases b; cases h; rfl

instance : DecidableEq Text := fun a b => decidable_of_iff (a.val = b.val) Text.ext_iff.symm

/-- What a C function sees of a string: everything before the first NUL. -/
def ofCStr (s : String) : Text :=
  ⟨String.ofList (s.toList.takeWhile (· ≠ '\x00')), by
    intro h
    rw [String.toList_ofList] at h
    simpa using List.mem_takeWhile_imp h⟩

theorem ofCStr_of_nulFree {s : String} (h : NulFree s) : (ofCStr s).val = s := by
  have : s.toList.takeWhile (· ≠ '\x00') = s.toList :=
    List.takeWhile_eq_self_iff.2 fun c hc => by
      simpa using fun e : c = '\x00' => h (e ▸ hc)
  calc (ofCStr s).val = String.ofList (s.toList.takeWhile (· ≠ '\x00')) := rfl
    _ = s := by rw [this, String.ofList_toList]

@[simp] theorem ofCStr_val (t : Text) : ofCStr t.val = t := Text.ext (ofCStr_of_nulFree t.nulFree)

theorem ofCStr_val_eq_iff {s : String} : (ofCStr s).val = s ↔ NulFree s :=
  ⟨fun h => h ▸ (ofCStr s).nulFree, ofCStr_of_nulFree⟩

/-- A NUL-free beginning is kept. -/
theorem ofCStr_append {a : String} (ha : NulFree a) (b : String) :
    (ofCStr (a ++ b)).val = a ++ (ofCStr b).val := by
  have hall : ∀ c ∈ a.toList, (decide (c ≠ '\x00')) = true := fun c hc => by
    simpa using fun e : c = '\x00' => ha (e ▸ hc)
  show String.ofList ((a ++ b).toList.takeWhile _) = a ++ String.ofList (b.toList.takeWhile _)
  rw [String.toList_append, List.takeWhile_append_of_pos hall, String.ofList_append,
    String.ofList_toList]

/-- Nothing after a NUL is seen. -/
theorem ofCStr_append_of_nul {a : String} (ha : ¬NulFree a) (b : String) :
    ofCStr (a ++ b) = ofCStr a := by
  apply Text.ext
  show String.ofList ((a ++ b).toList.takeWhile _) = String.ofList (a.toList.takeWhile _)
  rw [String.toList_append, List.takeWhile_append, if_neg]
  intro hlen
  have heq := (List.takeWhile_prefix _).eq_of_length hlen
  exact ha fun hmem => by simpa using List.takeWhile_eq_self_iff.1 heq _ hmem

theorem mem_ofCStr {s : String} {c : Char} (h : c ∈ (ofCStr s).val.toList) : c ∈ s.toList := by
  have h : c ∈ (String.ofList (s.toList.takeWhile (· ≠ '\x00'))).toList := h
  rw [String.toList_ofList] at h
  exact (List.takeWhile_sublist _).mem h

end Text

/-! ## String literals -/

/-- The body of a string literal and what follows its closing quote; `none` when the
literal is not closed. -/
def readLiteral : List Char → Option (List Char × List Char)
  | [] => none
  | [c] => if c = '\'' then some ([], []) else none
  | c :: d :: cs =>
    if c ≠ '\'' then (readLiteral (d :: cs)).map fun r => (c :: r.1, r.2)
    else if d = '\'' then (readLiteral cs).map fun r => ('\'' :: r.1, r.2)
    else some ([], d :: cs)

theorem readLiteral_cons {c : Char} (h : c ≠ '\'') (cs : List Char) :
    readLiteral (c :: cs) = (readLiteral cs).map fun r => (c :: r.1, r.2) := by
  cases cs <;> simp [readLiteral, h]

/-- A body without quotes is read back as it is. -/
theorem readLiteral_append {s rest : List Char} (hs : '\'' ∉ s) (hr : rest.head? ≠ some '\'') :
    readLiteral (s ++ '\'' :: rest) = some (s, rest) := by
  induction s with
  | nil =>
    cases rest with
    | nil => rfl
    | cons d rest =>
      have hd : d ≠ '\'' := by simpa using hr
      simp [readLiteral, hd]
  | cons c s ih =>
    obtain ⟨hc, hs⟩ := List.ne_and_not_mem_of_not_mem_cons hs
    rw [List.cons_append, readLiteral_cons (Ne.symm hc), ih hs]
    rfl

theorem readLiteral_unclosed {s : List Char} (hs : '\'' ∉ s) : readLiteral s = none := by
  induction s with
  | nil => rfl
  | cons c s ih =>
    obtain ⟨hc, hs⟩ := List.ne_and_not_mem_of_not_mem_cons hs
    rw [readLiteral_cons (Ne.symm hc), ih hs]
    rfl

/-- What a literal reads is made of the characters of the text, with each quote read for two. -/
theorem readLiteral_spec {l : List Char} {body rest : List Char}
    (h : readLiteral l = some (body, rest)) :
    l.count '\'' = 2 * body.count '\'' + 1 + rest.count '\'' ∧ body ⊆ l ∧ rest ⊆ l := by
  induction l using readLiteral.induct generalizing body rest with
  | case1 => cases h
  | case2 =>
    unfold readLiteral at h
    rw [if_pos rfl] at h
    cases h
    simp
  | case3 c hc =>
    unfold readLiteral at h
    rw [if_neg hc] at h
    cases h
  | case4 c d cs hc ih =>
    unfold readLiteral at h
    rw [if_pos hc] at h
    obtain ⟨⟨body', rest'⟩, hr, he⟩ := Option.map_eq_some_iff.1 h
    cases he
    obtain ⟨hcount, hbody, hrest⟩ := ih hr
    refine ⟨?_, List.cons_subset_cons c hbody, List.subset_cons_of_subset c hrest⟩
    rw [List.count_cons_of_ne hc, List.count_cons_of_ne hc, hcount]
  | case5 c cs hc ih =>
    obtain rfl := not_not.1 hc
    unfold readLiteral at h
    rw [if_neg hc, if_pos rfl] at h
    obtain ⟨⟨body', rest'⟩, hr, he⟩ := Option.map_eq_some_iff.1 h
    cases he
    obtain ⟨hcount, hbody, hrest⟩ := ih hr
    refine ⟨?_, List.cons_subset_cons _ (List.subset_cons_of_subset _ hbody),
      List.subset_cons_of_subset _ (List.subset_cons_of_subset _ hrest)⟩
    simp only [List.count_cons_self, hcount]
    omega
  | case6 c d cs hc hd =>
    obtain rfl := not_not.1 hc
    unfold readLiteral at h
    rw [if_neg hc, if_neg hd] at h
    cases h
    exact ⟨by simp [Nat.add_comm], List.nil_subset _, List.subset_cons_self _ _⟩

end UnifiedSearch.Lib
