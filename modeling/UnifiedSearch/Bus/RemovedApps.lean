import UnifiedSearch.Base.ItemText
import UnifiedSearch.Bus.FullList

/-!
# What a removed app takes with it

The change message `removed` deletes from `sam.apps` by a statement text with the id
of the app in it. Without an id the text has no condition on the key, and all
the applications go. `touchesOnly_iff` is when the rows of the other apps are left.
-/

namespace UnifiedSearch

open Lib Database

variable {env : Env} {db db' : Db} {id : String} {r : ItemRow}

/-! ## The statement text -/

theorem items_removeFromDatabase (env : Env) (db : Db) (id : String) :
    (Applications.removeFromDatabase env db id).2.items =
      if env.fault db.clock then db.items else
      match readDelete (Text.ofCStr (normalQuery Applications.categoryId id)).val with
      | .delete category key => db.items.filter fun r => !r.meets category key
      | .unclosed => db.items
      | .other => (env.execOther (Text.ofCStr (normalQuery Applications.categoryId id)).val
          db.toTables).2.items := by
  unfold Applications.removeFromDatabase removeItem Db.exec
  split_ifs
  · rfl
  · dsimp only
    cases readDelete (Text.ofCStr (normalQuery Applications.categoryId id)).val <;> rfl

/-- A quote in the id: the key that is read, if the text ends after it, is another one. -/
theorem ne_of_readLiteral {key : List Char} (hq : '\'' ∈ (Text.ofCStr id).val.toList)
    (h : readLiteral (keyText id) = some (key, [';'])) : String.ofList key ≠ id := by
  rintro rfl
  obtain ⟨hcount, hsub, -⟩ := readLiteral_spec h
  have hnul : NulFree (String.ofList key) := fun hm => by
    rw [String.toList_ofList] at hm
    exact (Text.ofCStr _).nulFree (hsub hm)
  have htail : (Text.ofCStr deleteTail).val.toList.count '\'' = 1 := by decide
  have hsemi : [';'].count '\'' = 0 := by decide
  rw [Text.ofCStr_of_nulFree hnul, String.toList_ofList, ← List.count_pos_iff] at hq
  unfold keyText at hcount
  rw [Text.ofCStr_append hnul, String.toList_append, String.toList_ofList, List.count_append,
    htail, hsemi] at hcount
  omega

/-! ## The rows of the other apps -/

/-- Neither the `sam.apps` row of the app nor a row of its own category. -/
def other (id : String) (r : ItemRow) : Bool :=
  !(r.category.val = Applications.categoryId && r.key.val = id) && !(r.category.val = id)

/-- The rows of the other apps are left; without an id, all rows are. -/
def Spares (id : String) (items items' : List ItemRow) : Prop :=
  (id = "" → items' = items) ∧ items'.filter (other id) = items.filter (other id)

theorem Spares.refl (id : String) (items : List ItemRow) : Spares id items items :=
  ⟨fun _ => rfl, rfl⟩

theorem filter_filter_eq_iff {α : Type} {l : List α} {p q : α → Bool} :
    (l.filter p).filter q = l.filter q ↔ ∀ a ∈ l, q a = true → p a = true := by
  rw [List.filter_filter]
  constructor
  · intro h a ha hq
    have hmem : a ∈ l.filter fun a => q a && p a := by rw [h]; exact List.mem_filter.2 ⟨ha, hq⟩
    exact (Bool.and_eq_true_iff.1 (List.mem_filter.1 hmem).2).2
  · intro h
    refine List.filter_congr fun a ha => ?_
    cases hq : q a with
    | false => rfl
    | true => rw [h a ha hq]; rfl

/-- A removed app leaves the others, whatever SQLite makes of a text of another shape. -/
def TouchesOnly (env : Env) (sam : Sam) (w : Service) (payload app : JValue) : Prop :=
  ∀ execOther, Spares (Sam.appId app) w.db.items
    (Sam.onListApps { env with execOther } sam w payload).db.items

/-- There is no row to lose, or the id has no quote, or the text with the quotes in it means no row
of `sam.apps`. -/
def Harmless (items : List ItemRow) (id : String) : Prop :=
  if id = "" then ∀ r ∈ items, r.category.val ≠ Applications.categoryId else
  '\'' ∉ (Text.ofCStr id).val.toList ∨
    match readLiteral (keyText id) with
    | none => True
    | some (key, rest) => rest = [';'] ∧ ∀ r ∈ items,
        ¬(r.category.val = Applications.categoryId ∧ r.key.val = String.ofList key)

theorem spares_all_iff (items : List ItemRow) :
    Spares "" items (items.filter fun r => !r.meets Applications.categoryId none) ↔
      ∀ r ∈ items, r.category.val ≠ Applications.categoryId := by
  have hself : (items.filter fun r => !r.meets Applications.categoryId none) = items ↔
      ∀ r ∈ items, r.category.val ≠ Applications.categoryId := by
    rw [List.filter_eq_self]
    simp [ItemRow.meets]
  rw [← hself]
  constructor
  · exact fun h => h.1 rfl
  · intro h
    rw [h]
    exact .refl _ _

theorem spares_named (hid : id ≠ "") (items : List ItemRow) :
    Spares id items (items.filter fun r => !r.meets Applications.categoryId (some id)) := by
  refine ⟨fun h => absurd h hid, filter_filter_eq_iff.2 fun r _ ho => ?_⟩
  unfold other at ho
  unfold ItemRow.meets
  rw [Bool.and_eq_true] at ho
  exact ho.1

/-- With an id that is read as another key: the rows of `sam.apps` with that key go. -/
theorem spares_misread_iff {key : String} (hid : id ≠ "") (hkey : key ≠ id)
    (hcat : Applications.categoryId ≠ id) (items : List ItemRow) :
    Spares id items (items.filter fun r => !r.meets Applications.categoryId (some key)) ↔
      ∀ r ∈ items, ¬(r.category.val = Applications.categoryId ∧ r.key.val = key) := by
  unfold Spares
  rw [filter_filter_eq_iff, and_iff_right fun h => absurd h hid]
  refine forall₂_congr fun r _ => ?_
  unfold other ItemRow.meets
  simp only [Option.all_some, Bool.not_eq_true', Bool.and_eq_false_iff, decide_eq_false_iff_not,
    Bool.and_eq_true, not_and_or]
  constructor
  · intro h
    by_cases hr : r.category.val = Applications.categoryId
    · refine .inr fun hk => ?_
      have := h ⟨.inr (by rw [hk]; exact hkey), by rw [hr]; exact hcat⟩
      exact this.elim (fun hn => hn hr) fun hn => hn hk
    · exact .inl hr
  · exact fun h _ => h

/-- A row that no app is named by. -/
def strayRow : ItemRow := ⟨⟨"", by decide⟩, ⟨"", by decide⟩, ⟨"", by decide⟩, ⟨"", by decide⟩,
  ⟨"", by decide⟩⟩

theorem not_spares_stray (hid : id ≠ "") (items : List ItemRow) :
    ¬ Spares id items (items ++ [strayRow]) := by
  rintro ⟨-, h⟩
  have hstray : other id strayRow = true := by
    simp [other, strayRow, Applications.categoryId, Ne.symm hid]
  rw [List.filter_append, List.filter_singleton, hstray] at h
  simpa using congrArg List.length h

theorem items_onListApps_removed {sam : Sam} {w : Service} {payload app : JValue}
    (hl : Sam.fullList payload = none) (hc : Sam.changeOf payload = some ("removed", app)) :
    (Sam.onListApps env sam w payload).db.items =
      (Applications.removeFromDatabase env w.db (Sam.appId app)).2.items := by
  unfold Sam.onListApps
  rw [hl]
  dsimp only
  rw [hc]
  dsimp only
  rw [if_neg (by decide), if_pos rfl, Service.db_removeCategory]
  rfl

/-- **A removed app leaves the others iff its id is harmless**, or the delete fails. -/
theorem touchesOnly_iff (env : Env) (sam : Sam) (w : Service) (payload app : JValue)
    (hl : Sam.fullList payload = none) (hc : Sam.changeOf payload = some ("removed", app)) :
    TouchesOnly env sam w payload app ↔
      env.fault w.db.clock = true ∨ Harmless w.db.items (Sam.appId app) := by
  have hquote : '\'' ∉ Applications.categoryId.toList := by decide
  have hread := readDelete_normalQuery hquote (by decide)
  unfold TouchesOnly Harmless
  simp only [items_onListApps_removed hl hc, items_removeFromDatabase, hread]
  generalize Sam.appId app = id
  by_cases hf : env.fault w.db.clock = true
  · simp only [hf, if_true, true_or, iff_true]
    exact fun _ => .refl _ _
  simp only [hf, Bool.false_eq_true, if_false, false_or]
  have hany {P : Prop} : (∀ _ : String → Tables → Bool × Tables, P) ↔ P :=
    ⟨fun h => h env.execOther, fun h _ => h⟩
  by_cases hid : id = ""
  · subst hid
    simp only [if_true]
    exact hany.trans (spares_all_iff w.db.items)
  simp only [if_neg hid]
  by_cases hq : '\'' ∈ (Text.ofCStr id).val.toList
  · cases hr : readLiteral (keyText id) with
    | none => simpa [hr] using fun _ => Spares.refl id w.db.items
    | some r =>
      obtain ⟨key, rest⟩ := r
      have hcat : Applications.categoryId ≠ id := by
        rintro rfl
        revert hq
        decide
      simp only [hq, not_true_eq_false, false_or]
      by_cases hrest : rest = [';']
      · subst hrest
        simp only [if_true, true_and]
        exact hany.trans (spares_misread_iff hid (ne_of_readLiteral hq hr) hcat w.db.items)
      · simp only [hrest, false_and, iff_false]
        intro h
        exact not_spares_stray hid w.db.items
          (h fun _ t => (true, { t with items := t.items ++ [strayRow] }))
  · refine iff_of_true (fun execOther => ?_) (.inl hq)
    rw [readLiteral_keyText hq]
    by_cases hn : NulFree id
    · simp only [if_pos hn, if_true, String.ofList_toList]
      exact spares_named hid w.db.items
    · simp only [if_neg hn]
      exact .refl _ _

/-- A table with the rows of two applications. -/
def appRow (key : Text) : ItemRow :=
  { category := .ofCStr Applications.categoryId, key, text := key, display := key, extra := key }

def twoApps : Service :=
  .start ⟨⟨.empty, [appRow (.ofCStr "a"), appRow (.ofCStr "b")]⟩, 0⟩ "en"

def removedPayload (app : JValue) : JValue := .obj [("change", .str "removed"), ("app", app)]

theorem touchesOnly_sample :
    TouchesOnly Env.sample ⟨0, 0⟩ twoApps (removedPayload (.obj [("id", .str "a")]))
      (.obj [("id", .str "a")]) :=
  (touchesOnly_iff Env.sample ⟨0, 0⟩ twoApps _ _ rfl rfl).2 (.inr (.inl (by decide)))

/-- A message without an id empties the category of the applications. -/
theorem not_touchesOnly_anonymous :
    Sam.changeOf (removedPayload .object) = some ("removed", .object) ∧
      ¬ TouchesOnly Env.sample ⟨0, 0⟩ twoApps (removedPayload .object) .object := by
  refine ⟨rfl, fun h => ?_⟩
  have hkept := (h Env.sample.execOther).1 rfl
  revert hkept
  decide

end UnifiedSearch
