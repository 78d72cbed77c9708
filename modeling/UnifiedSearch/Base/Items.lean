import UnifiedSearch.Base.Database

/-!
# What the item methods do to the table

`insertItem` appends one row. `removeItem` sends a statement text:
`removeItem_eq` is its effect when the strings in it have no single quote, on
the characters before their first NUL.
-/

namespace UnifiedSearch

open Lib Database

variable {env : Env} {db : Db} {category key : String}

/-- The row an item is stored as. -/
def itemRow (env : Env) (item : SearchItem) : ItemRow where
  category := .ofCStr item.category
  key := .ofCStr item.key
  text := .ofCStr item.value
  display := .ofCStr (env.stringify item.display)
  extra := .ofCStr (env.stringify item.extra)

theorem insertItem_eq (item : SearchItem) : insertItem env.healthy db item =
    (true, ⟨{ db.toTables with items := db.items ++ [itemRow env item] }, db.clock + 1⟩) := rfl

theorem insertItem_items (env : Env) (db : Db) (item : SearchItem) :
    (insertItem env db item).2.items = db.items ∨
      (insertItem env db item).2.items = db.items ++ [itemRow env item] := by
  have hquery : statementQueries.lookup "ITEM_INSERT" = some .itemInsert := rfl
  unfold insertItem Db.step
  simp only [hquery]
  cases env.fault db.clock with
  | true => exact .inl rfl
  | false => exact .inr rfl

theorem insertItem_category (env : Env) (db : Db) (item : SearchItem) :
    (insertItem env db item).2.category = db.category := by
  have hquery : statementQueries.lookup "ITEM_INSERT" = some .itemInsert := rfl
  unfold insertItem Db.step
  simp only [hquery]
  cases env.fault db.clock <;> rfl

/-! ## Reading the text of a delete -/

theorem after?_append (pre l : List Char) : after? pre (pre ++ l) = some l := by
  unfold after?
  rw [if_pos (List.isPrefixOf_iff_prefix.2 (List.prefix_append _ _)), List.drop_left]

theorem readDelete_head (q : String) : readDelete (deleteHead ++ q) =
    match readLiteral q.toList with
    | none => .unclosed
    | some (category, rest) => readRest category rest := by
  have hafter : after? deleteHead.toList (deleteHead ++ q).toList = some q.toList := by
    rw [String.toList_append, after?_append]
  unfold readDelete
  split
  · next h => rw [hafter] at h; cases h
  · next l h => rw [hafter] at h; cases h; rfl

theorem deleteTail_toList : deleteTail.toList = ['\'', ';'] := by decide

theorem deleteKey_toList : deleteKey.toList = '\'' :: ' ' :: deleteKey.toList.drop 2 := by decide

theorem readRest_end (category : String) :
    readRest category.toList [';'] = .delete category none := by
  unfold readRest
  rw [if_pos rfl, String.ofList_toList]

theorem readRest_key (category : List Char) (q : List Char) :
    readRest category (deleteKey.toList.drop 1 ++ q) =
      match readLiteral q with
      | none => .unclosed
      | some (key, rest) =>
        if rest = [';'] then .delete (String.ofList category) (some (String.ofList key))
        else .other := by
  have hne : deleteKey.toList.drop 1 ++ q ≠ [';'] := fun e => by
    rw [deleteKey_toList, List.drop_one, List.tail_cons, List.cons_append] at e
    cases e
  unfold readRest
  rw [if_neg hne]
  split
  · next h => rw [after?_append] at h; cases h
  · next l h => rw [after?_append] at h; cases h; rfl

theorem readDelete_literal (hc : '\'' ∉ category.toList) {q : String} {rest : List Char}
    (hq : q.toList = '\'' :: rest) (hr : rest.head? ≠ some '\'') :
    readDelete (deleteHead ++ (category ++ q)) = readRest category.toList rest := by
  rw [readDelete_head, String.toList_append, hq, readLiteral_append hc hr]

theorem readDelete_category (hc : '\'' ∉ category.toList) :
    readDelete (deleteHead ++ (category ++ deleteTail)) = .delete category none := by
  rw [readDelete_literal hc deleteTail_toList (by decide), readRest_end]

theorem readDelete_key (hc : '\'' ∉ category.toList) (q : String) :
    readDelete (deleteHead ++ (category ++ (deleteKey ++ q))) =
      readRest category.toList (deleteKey.toList.drop 1 ++ q.toList) := by
  refine readDelete_literal hc ?_ ?_
  · rw [String.toList_append]
    nth_rewrite 1 [deleteKey_toList]
    rfl
  · rw [deleteKey_toList, List.drop_one, List.tail_cons, List.cons_append, List.head?_cons]
    decide

theorem readDelete_unclosed (hc : '\'' ∉ category.toList) :
    readDelete (deleteHead ++ category) = .unclosed := by
  rw [readDelete_head, readLiteral_unclosed hc]

/-- The literal of the key in the text of a delete, and what follows. -/
def keyText (key : String) : List Char := (Text.ofCStr (key ++ deleteTail)).val.toList

/-- A key without a quote is closed, or a NUL cuts it off. -/
theorem readLiteral_keyText (hk : '\'' ∉ (Text.ofCStr key).val.toList) :
    readLiteral (keyText key) = if NulFree key then some (key.toList, [';']) else none := by
  have htail : (Text.ofCStr deleteTail).val.toList = ['\'', ';'] := by decide
  unfold keyText
  split_ifs with hn
  · rw [Text.ofCStr_of_nulFree hn] at hk
    rw [Text.ofCStr_append hn, String.toList_append, htail, readLiteral_append hk (by decide)]
  · rw [Text.ofCStr_append_of_nul hn, readLiteral_unclosed hk]

theorem readDelete_normalQuery (hc : '\'' ∉ category.toList) (hn : NulFree category)
    (key : String) :
    readDelete (Text.ofCStr (normalQuery category key)).val =
      if key = "" then .delete category none else
      match readLiteral (keyText key) with
      | none => .unclosed
      | some (key, rest) =>
        if rest = [';'] then .delete category (some (String.ofList key)) else .other := by
  have hhead : NulFree deleteHead := by decide
  have hkeyNul : NulFree deleteKey := by decide
  rw [normalQuery, String.append_assoc, String.append_assoc, Text.ofCStr_append hhead,
    Text.ofCStr_append hn]
  by_cases hkey : key = ""
  · subst hkey
    have htail : (Text.ofCStr ((if ("" : String) ≠ "" then deleteKey ++ "" else "") ++
      deleteTail)).val = deleteTail := by decide
    rw [htail, readDelete_category hc, if_pos rfl]
  · rw [if_pos hkey, if_neg hkey, String.append_assoc, Text.ofCStr_append hkeyNul,
      readDelete_key hc, readRest_key]
    simp only [String.ofList_toList]
    rfl

/-! ## The delete -/

/-- The rows a delete of an item leaves: a text that a NUL cuts is no statement. -/
def deleted (items : List ItemRow) (category key : String) : List ItemRow :=
  if NulFree category ∧ NulFree key then
    items.filter fun r => !r.meets category (if key = "" then none else some key)
  else items

theorem exec_eq (query : String) : db.exec env.healthy query =
    match readDelete (Text.ofCStr query).val with
    | .delete category key => (true, ⟨{ db.toTables with
        items := db.items.filter fun r => !r.meets category key }, db.clock + 1⟩)
    | .unclosed => (false, ⟨db.toTables, db.clock + 1⟩)
    | .other => ((env.execOther (Text.ofCStr query).val db.toTables).1,
        ⟨(env.execOther (Text.ofCStr query).val db.toTables).2, db.clock + 1⟩) := by
  unfold Db.exec
  rw [Env.fault_healthy]
  rfl

/-- The delete cannot touch the categories: it fails, or its text is that of a delete from the
items, or a syntax error. -/
def itemsOnly (env : Env) (db : Db) (category : String) (key : String := "") : Bool :=
  env.fault db.clock || match readDelete (Text.ofCStr (normalQuery category key)).val with
    | .delete .. | .unclosed => true
    | .other => false

theorem removeItem_category (h : itemsOnly env db category key = true) :
    (removeItem env db category key).2.category = db.category := by
  unfold itemsOnly at h
  unfold removeItem Db.exec
  split_ifs with hf
  · rfl
  · rw [Bool.or_eq_true, or_iff_right hf] at h
    dsimp only
    cases hread : readDelete (Text.ofCStr (normalQuery category key)).val with
    | delete _ _ => rfl
    | unclosed => rfl
    | other => rw [hread] at h; cases h

/-- The effect of `removeItem`, for strings whose C strings have no single quote. -/
theorem removeItem_eq (hc : '\'' ∉ (Text.ofCStr category).val.toList)
    (hk : '\'' ∉ (Text.ofCStr key).val.toList) :
    (removeItem env.healthy db category key).2 =
      ⟨{ db.toTables with items := deleted db.items category key }, db.clock + 1⟩ := by
  unfold removeItem deleted
  rw [exec_eq]
  by_cases hcn : NulFree category
  · rw [Text.ofCStr_of_nulFree hcn] at hc
    rw [readDelete_normalQuery hc hcn]
    by_cases hkey : key = ""
    · subst hkey
      rw [if_pos rfl, if_pos ⟨hcn, by decide⟩, if_pos rfl]
    · rw [if_neg hkey, readLiteral_keyText hk, if_neg hkey]
      by_cases hkn : NulFree key
      · simp only [if_pos hkn, if_true, String.ofList_toList, if_pos (And.intro hcn hkn)]
      · simp only [if_neg hkn, if_neg fun h : NulFree category ∧ NulFree key => hkn h.2]
  · have hhead : NulFree deleteHead := by decide
    have hread : readDelete (Text.ofCStr (normalQuery category key)).val = .unclosed := by
      rw [normalQuery, String.append_assoc, String.append_assoc, Text.ofCStr_append hhead,
        Text.ofCStr_append_of_nul hcn, readDelete_unclosed hc]
    rw [hread, if_neg fun h => hcn h.1]

/-- Such strings make a delete of the category, or a syntax error. -/
theorem readDelete_quoteFree (hc : '\'' ∉ (Text.ofCStr category).val.toList)
    (hk : '\'' ∉ (Text.ofCStr key).val.toList) :
    readDelete (Text.ofCStr (normalQuery category key)).val = .unclosed ∨
      ∃ k, readDelete (Text.ofCStr (normalQuery category key)).val = .delete category k := by
  by_cases hcn : NulFree category
  · rw [Text.ofCStr_of_nulFree hcn] at hc
    rw [readDelete_normalQuery hc hcn]
    by_cases hkey : key = ""
    · exact .inr ⟨none, if_pos hkey⟩
    · rw [if_neg hkey, readLiteral_keyText hk]
      by_cases hkn : NulFree key
      · refine .inr ⟨some key, ?_⟩
        simp only [if_pos hkn, if_true, String.ofList_toList]
      · exact .inl (by rw [if_neg hkn])
  · have hhead : NulFree deleteHead := by decide
    left
    rw [normalQuery, String.append_assoc, String.append_assoc, Text.ofCStr_append hhead,
      Text.ofCStr_append_of_nul hcn, readDelete_unclosed hc]

/-- Whatever fails, only rows of the category go. -/
theorem removeItem_items (env : Env) (db : Db) (hc : '\'' ∉ (Text.ofCStr category).val.toList)
    (hk : '\'' ∉ (Text.ofCStr key).val.toList) :
    (removeItem env db category key).2.items = db.items ∨
      ∃ k, (removeItem env db category key).2.items =
        db.items.filter fun r => !r.meets category k := by
  unfold removeItem Db.exec
  dsimp only
  split_ifs
  · exact .inl rfl
  · obtain hread | ⟨k, hread⟩ := readDelete_quoteFree hc hk
    · rw [hread]
      exact .inl rfl
    · rw [hread]
      exact .inr ⟨k, rfl⟩

end UnifiedSearch
