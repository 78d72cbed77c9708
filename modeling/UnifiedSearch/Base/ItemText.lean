import UnifiedSearch.Base.Items

/-!
# Items as text

An item is stored as five texts and deleted by a statement text. What is
stored is read back, but for an extra of less than two characters
(`roundTrips_iff`). The statement text means the given category and key iff
neither has a quote or a NUL (`deletesExactly_iff`).
-/

namespace UnifiedSearch

open Lib Database

variable {env : Env} {category key : String}

/-! ## Stored and read back -/

/-- The text of a value has no NUL and is parsed to the value. -/
structure JsonText (env : Env) (v : JValue) : Prop where
  nulFree : NulFree (env.stringify v)
  undone : env.fromString (env.stringify v) = v

/-- The row that an item is written to is read back as the item. -/
def RoundTrips (env : Env) (item : SearchItem) : Prop :=
  ∀ db, ∃ row, (insertItem env.healthy db item).2.items = db.items ++ [row] ∧
    readItem env row = item

/-- The reader takes a text of less than two bytes for no extra at all. -/
theorem readItem_itemRow (item : SearchItem) (hc : NulFree item.category) (hk : NulFree item.key)
    (hv : NulFree item.value) (hd : JsonText env item.display) (he : JsonText env item.extra) :
    readItem env (itemRow env item) =
      { item with extra := if 2 ≤ (env.stringify item.extra).utf8ByteSize then item.extra
          else .null } := by
  unfold readItem itemRow
  simp only [Text.ofCStr_of_nulFree hc, Text.ofCStr_of_nulFree hk, Text.ofCStr_of_nulFree hv,
    Text.ofCStr_of_nulFree hd.nulFree, Text.ofCStr_of_nulFree he.nulFree, hd.undone, he.undone]
  split_ifs <;> rfl

/-- **An item is read back iff its extra is null or has a text of at least two bytes.** -/
theorem roundTrips_iff (env : Env) (item : SearchItem) (hc : NulFree item.category)
    (hk : NulFree item.key) (hv : NulFree item.value) (hd : JsonText env item.display)
    (he : JsonText env item.extra) :
    RoundTrips env item ↔ item.extra = .null ∨ 2 ≤ (env.stringify item.extra).utf8ByteSize := by
  have hread := readItem_itemRow item hc hk hv hd he
  have hitem : RoundTrips env item ↔ readItem env (itemRow env item) = item := by
    constructor
    · intro h
      obtain ⟨row, hrow, hr⟩ := h .fresh
      rw [insertItem_eq] at hrow
      have : itemRow env item = row := by simpa using hrow
      rw [this, hr]
    · exact fun h db => ⟨itemRow env item, by rw [insertItem_eq], h⟩
  rw [hitem, hread]
  split_ifs with hlen
  · exact iff_of_true rfl (.inr hlen)
  · constructor
    · intro h
      exact .inl (congrArg SearchItem.extra h).symm
    · intro h
      rw [← h.resolve_right hlen]

/-- `stringify` and `fromString` on a few values. -/
def Env.json : Env := { Env.sample with
  stringify := fun
    | .num q => if q = 5 then "5" else ""
    | .obj [] => "{}"
    | .arr [] => "[]"
    | _ => "null"
  fromString := fun s =>
    if s = "5" then .num 5 else if s = "{}" then .object else if s = "[]" then .array else .null }

/-- An item with an extra. -/
def itemWith (extra : JValue) : SearchItem :=
  { category := "c", key := "k", value := "v", display := .object, extra }

theorem roundTrips_sample : RoundTrips Env.json (itemWith .array) :=
  (roundTrips_iff Env.json (itemWith .array) (by decide) (by decide) (by decide)
    ⟨by decide, rfl⟩ ⟨by decide, rfl⟩).2 (.inr (by decide))

/-- The extra `5` is stored as `5` and read back as null. -/
theorem not_roundTrips_digit : JsonText Env.json (itemWith (.num 5)).extra ∧
    ¬ RoundTrips Env.json (itemWith (.num 5)) := by
  refine ⟨⟨by decide, rfl⟩, fun h => ?_⟩
  obtain ⟨row, hrow, hr⟩ := h .fresh
  cases List.singleton_injective hrow
  exact absurd (congrArg SearchItem.extra hr) nofun

/-! ## Deleted -/

/-- The statement text is read as the delete of the given category and key. -/
def ReadsExactly (category key : String) : Prop :=
  readDelete (Text.ofCStr (normalQuery category key)).val =
    .delete category (if key = "" then none else some key)

/-- The statement text is read so, and every table loses the rows of the category (and of the
key, where there is one) and no others. -/
def DeletesExactly (env : Env) (category key : String) : Prop :=
  ReadsExactly category key ∧
  ∀ db, removeItem env.healthy db category key = (true, ⟨{ db.toTables with
    items := db.items.filter fun r =>
      !(r.category.val = category && (key = "" || r.key.val = key)) }, db.clock + 1⟩)

/-- Neither string has a quote or a NUL. -/
def Plain (category key : String) : Prop :=
  ('\'' ∉ category.toList ∧ '\'' ∉ key.toList) ∧ NulFree category ∧ NulFree key

instance : Decidable (Plain category key) := inferInstanceAs (Decidable (_ ∧ _))

theorem nulFree_normalQuery (hc : NulFree category) (hk : NulFree key) :
    NulFree (normalQuery category key) := by
  have hhead : NulFree deleteHead := by decide
  have hkey : NulFree deleteKey := by decide
  have htail : NulFree deleteTail := by decide
  unfold normalQuery
  unfold NulFree at *
  split_ifs <;> simp [hhead, hkey, htail, hc, hk]

theorem Plain.readsExactly (h : Plain category key) : ReadsExactly category key := by
  obtain ⟨⟨hc, hk⟩, hcn, hkn⟩ := h
  have hk' : '\'' ∉ (Text.ofCStr key).val.toList := fun hm => hk (Text.mem_ofCStr hm)
  unfold ReadsExactly
  rw [readDelete_normalQuery hc hcn, readLiteral_keyText hk', if_pos hkn]
  by_cases hkey : key = ""
  · rw [if_pos hkey, if_pos hkey]
  · rw [if_neg hkey, if_neg hkey]
    simp only [if_true, String.ofList_toList]

theorem Plain.itemsOnly (h : Plain category key) (env : Env) (db : Db) :
    itemsOnly env db category key = true := by
  have hread := h.readsExactly
  unfold ReadsExactly at hread
  unfold UnifiedSearch.itemsOnly
  rw [hread, Bool.or_true]

/-! ### What a text must be to be read so

The quotes are counted: each quote of a literal takes two of the text. -/

theorem eq_append_of_after? {pre l r : List Char} (h : after? pre l = some r) : l = pre ++ r := by
  unfold after? at h
  split_ifs at h with hp
  cases h
  obtain ⟨r, rfl⟩ := List.isPrefixOf_iff_prefix.1 hp
  rw [List.drop_left]

theorem readRest_spec {body rest : List Char} {c : String} {k : Option String}
    (h : readRest body rest = .delete c k) : c.toList = body ∧
      (k = none ∧ rest = [';'] ∨ ∃ key, k = some key ∧
        rest.count '\'' = 2 * key.toList.count '\'' + 2 ∧ key.toList ⊆ rest) := by
  unfold readRest at h
  split_ifs at h with hend
  · cases h
    exact ⟨String.toList_ofList, .inl ⟨rfl, hend⟩⟩
  · split at h
    · cases h
    · rename_i q hq
      split at h
      · cases h
      · rename_i key rest' hr
        split_ifs at h with hend'
        cases h
        obtain ⟨hcount, hsub, -⟩ := readLiteral_spec hr
        refine ⟨String.toList_ofList, .inr ⟨_, rfl, ?_, ?_⟩⟩
        · rw [eq_append_of_after? hq, List.count_append, hcount, hend', String.toList_ofList]
          have hkey : (deleteKey.toList.drop 1).count '\'' = 1 := by decide
          have hsemi : [';'].count '\'' = 0 := by decide
          omega
        · rw [eq_append_of_after? hq, String.toList_ofList]
          exact fun c hc => List.mem_append_right _ (hsub hc)

theorem readDelete_spec {query c : String} {k : Option String}
    (h : readDelete query = .delete c k) : c.toList ⊆ query.toList ∧
      (k = none ∧ query.toList.count '\'' = 2 * c.toList.count '\'' + 2 ∨
        ∃ key, k = some key ∧ key.toList ⊆ query.toList ∧ query.toList.count '\'' =
          2 * c.toList.count '\'' + 2 * key.toList.count '\'' + 4) := by
  have hhead : deleteHead.toList.count '\'' = 1 := by decide
  unfold readDelete at h
  split at h
  · cases h
  · rename_i q hq
    split at h
    · cases h
    · rename_i body rest hr
      obtain ⟨hcount, hbody, hrest⟩ := readLiteral_spec hr
      obtain ⟨rfl, hk⟩ := readRest_spec h
      rw [eq_append_of_after? hq, List.count_append, hhead, hcount]
      refine ⟨fun a ha => List.mem_append_right _ (hbody ha), hk.imp ?_ ?_⟩
      · rintro ⟨rfl, rfl⟩
        have hsemi : [';'].count '\'' = 0 := by decide
        exact ⟨rfl, by omega⟩
      · rintro ⟨key, rfl, hcount', hsub⟩
        exact ⟨key, rfl, fun a ha => List.mem_append_right _ (hrest (hsub ha)), by omega⟩

theorem ReadsExactly.plain (h : ReadsExactly category key) : Plain category key := by
  obtain ⟨hsub, hk⟩ := readDelete_spec h
  have hnul : NulFree (Text.ofCStr (normalQuery category key)).val := Text.nulFree _
  have hcn : NulFree category := fun hm => hnul (hsub hm)
  have hkn : NulFree key := by
    by_cases hkey : key = ""
    · subst hkey; decide
    · rw [if_neg hkey] at hk
      obtain ⟨k, he, hksub, -⟩ := hk.resolve_left (by rintro ⟨⟨⟩, -⟩)
      cases he
      exact fun hm => hnul (hksub hm)
  rw [Text.ofCStr_of_nulFree (nulFree_normalQuery hcn hkn)] at hk
  have hhead : deleteHead.toList.count '\'' = 1 := by decide
  have hkeyText : deleteKey.toList.count '\'' = 2 := by decide
  have htail : deleteTail.toList.count '\'' = 1 := by decide
  refine ⟨?_, hcn, hkn⟩
  rw [← List.count_eq_zero, ← List.count_eq_zero]
  by_cases hkey : key = ""
  · subst hkey
    obtain ⟨-, hcount⟩ := hk.resolve_right (by rintro ⟨_, he, -⟩; cases he)
    simp only [normalQuery, String.toList_append, List.count_append, hhead, htail] at hcount
    simp at hcount ⊢
    omega
  · rw [if_neg hkey] at hk
    obtain ⟨k, he, -, hcount⟩ := hk.resolve_left (by rintro ⟨⟨⟩, -⟩)
    cases he
    simp only [normalQuery, if_pos hkey, String.toList_append, List.count_append, hhead,
      hkeyText, htail] at hcount
    omega

/-- **The delete is exact iff neither string has a quote or a NUL.** -/
theorem deletesExactly_iff (env : Env) (category key : String) :
    DeletesExactly env category key ↔ Plain category key := by
  constructor
  · exact fun h => h.1.plain
  · intro h
    refine ⟨h.readsExactly, fun db => ?_⟩
    have hread := h.readsExactly
    unfold ReadsExactly at hread
    unfold removeItem
    rw [exec_eq, hread]
    have hmeets : ∀ r : ItemRow, r.meets category (if key = "" then none else some key) =
        (r.category.val = category && (key = "" || r.key.val = key) : Bool) := by
      intro r
      unfold ItemRow.meets
      split_ifs with hkey <;> simp [hkey]
    simp only [hmeets]

/-- A doubled quote is read as one, and the rows of another category go. -/
theorem not_deletesExactly_quotes : ¬ DeletesExactly Env.sample "a''b" "" := by
  rintro ⟨-, h⟩
  have := h ⟨⟨.empty, [⟨⟨"a'b", by decide⟩, ⟨"k", by decide⟩, ⟨"", by decide⟩, ⟨"", by decide⟩,
    ⟨"", by decide⟩⟩]⟩, 0⟩
  exact absurd (congrArg (fun r => r.2.items) this) (by decide)

end UnifiedSearch
