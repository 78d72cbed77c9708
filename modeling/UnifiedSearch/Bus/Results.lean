import UnifiedSearch.Base.CategoryTable
import UnifiedSearch.Bus.Methods

/-!
# The answer of a search

What the sources return, which of it is accepted, and the intents of a
category, said without the task the callbacks fill and without the fast path
over disabled sets. `search_results` is the response in these terms.
-/

namespace UnifiedSearch

open Lib

namespace Service

variable {w : Service} {key : String} {s : SearchSetPtr} {item : SearchItem} {c : String}

/-- Every item of every source, in the order of the set ids and then of the source, with the
set it comes from. -/
def returned (w : Service) (key : String) : List (SearchSetPtr × SearchItem) :=
  w.searchSets.values.flatMap fun s => ((w.set s).source w.db key).map fun item => (s, item)

/-- The category of the same set with the item's category id, if it is enabled in memory. -/
def acceptor (w : Service) (s : SearchSetPtr) (item : SearchItem) : Option CategoryPtr :=
  (w.findCategoryIn s item.category).filter fun p => (w.category p).enabled

/-- The accepted items, each with the category that accepts it. -/
def accepted (w : Service) (key : String) : List (CategoryPtr × SearchItem) :=
  (w.returned key).filterMap fun e => (w.acceptor e.1 e.2).map fun p => (p, e.2)

/-- The intent of an accepted item. -/
def intentOf (w : Service) (e : CategoryPtr × SearchItem) : Option Intent :=
  (w.category e.1).intent w.language e.2

/-- The intents of the accepted items of a category. -/
def intentsOf (w : Service) (key c : String) : List Intent :=
  ((w.accepted key).filter fun e => e.2.category = c).filterMap w.intentOf

/-- Every category of an attached set produces non-null intents. -/
def NonNullIntents (w : Service) : Prop :=
  ∀ s ∈ w.searchSets.values, ∀ p ∈ (w.set s).categories.values, ∀ item,
    ((w.category p).intent w.language item).isSome

/-- `search` without the fast path: every source is searched. -/
def searchAll (w : Service) (key : String) : Intents :=
  w.searchSets.values.foldl
    (fun task s => ((w.set s).source w.db key).foldl (w.fileItem s) task) .empty

/-! ## The task -/

theorem fileItem_eq (task : Intents) : w.fileItem s task item =
    match w.acceptor s item with
    | none => task
    | some p => task.push item.category (w.intentOf (p, item)) := by
  unfold fileItem acceptor
  cases w.findCategoryIn s item.category with
  | none => rfl
  | some p =>
    rw [Option.filter_some]
    by_cases he : (w.category p).enabled = true
    · simp only [if_pos he]; rfl
    · simp only [if_neg he]

theorem acceptor_disabled
    (h : ¬((w.set s).categories.values.any fun p => (w.category p).enabled) = true) :
    w.acceptor s item = none := by
  unfold acceptor
  cases hf : w.findCategoryIn s item.category with
  | none => rfl
  | some p =>
    rw [Option.filter_some, if_neg]
    intro he
    exact h (List.any_eq_true.2 ⟨p, OrdMap.mem_values_iff.2 ⟨_, hf⟩, he⟩)

/-- The fast path changes nothing. -/
theorem search_eq_searchAll : w.search key = w.searchAll key := by
  unfold search searchAll
  congr 1
  funext task s
  by_cases h : ((w.set s).categories.values.any fun p => (w.category p).enabled) = true
  · rw [if_pos h]
  · rw [if_neg h]
    generalize (w.set s).source w.db key = items
    induction items with
    | nil => rfl
    | cons item items ih => rw [List.foldl_cons, fileItem_eq, acceptor_disabled h]; exact ih

theorem searchAll_eq : w.searchAll key =
    ((w.accepted key).map fun e => (e.2.category, w.intentOf e)).foldl
      (fun task e => task.push e.1 e.2) .empty := by
  have hstep : ∀ (task : Intents) (e : SearchSetPtr × SearchItem), w.fileItem e.1 task e.2 =
      match (w.acceptor e.1 e.2).map fun p => (p, e.2) with
      | none => task
      | some e => task.push e.2.category (w.intentOf e) := fun task e => by
    rw [fileItem_eq]; cases w.acceptor e.1 e.2 <;> rfl
  have hall : w.searchAll key =
      (w.returned key).foldl (fun task e => w.fileItem e.1 task e.2) .empty := by
    unfold searchAll returned
    rw [List.foldl_flatMap]
    simp only [List.foldl_map]
  rw [hall, List.foldl_map, accepted, List.foldl_filterMap]
  congr 1
  funext task e
  rw [hstep]
  cases w.acceptor e.1 e.2 <;> rfl

theorem intents_eq (h : w.NonNullIntents) :
    (((w.accepted key).filter fun e => e.2.category = c).map w.intentOf) =
      (w.intentsOf key c).map some := by
  unfold intentsOf
  have hsome : ∀ e ∈ (w.accepted key).filter (fun e => e.2.category = c),
      (w.intentOf e).isSome := by
    intro e he
    obtain ⟨⟨s, item⟩, hr, ha⟩ := List.mem_filterMap.1 (List.mem_filter.1 he).1
    obtain ⟨p, hp, rfl⟩ := Option.map_eq_some_iff.1 ha
    obtain ⟨s', hs', hi⟩ := List.mem_flatMap.1 hr
    obtain ⟨item', -, hsi⟩ := List.mem_map.1 hi
    cases hsi
    exact h s hs' p (OrdMap.mem_values_iff.2 ⟨_, (Option.filter_eq_some_iff.1 hp).1⟩) item
  generalize (w.accepted key).filter (fun e => e.2.category = c) = l at hsome
  induction l with
  | nil => rfl
  | cons e l ih =>
    obtain ⟨i, hi⟩ := Option.isSome_iff_exists.1 (hsome e List.mem_cons_self)
    rw [List.map_cons, List.filterMap_cons_some hi, List.map_cons, hi,
      ih fun e he => hsome e (List.mem_cons_of_mem _ he)]

theorem intentsOf_eq_nil_iff (h : w.NonNullIntents) :
    w.intentsOf key c = [] ↔ ¬∃ e ∈ w.accepted key, e.2.category = c := by
  rw [← List.map_eq_nil_iff (f := some), ← intents_eq h, List.map_eq_nil_iff,
    List.filter_eq_nil_iff]
  simp

theorem find_search (h : w.NonNullIntents) : (w.search key).find c =
    if w.intentsOf key c = [] then none else some ((w.intentsOf key c).map some) := by
  have hfilter : ((w.accepted key).map fun e => (e.2.category, w.intentOf e)).filter
      (fun e => e.1 = c) = ((w.accepted key).filter fun e => e.2.category = c).map
        fun e => (e.2.category, w.intentOf e) := List.filter_map
  rw [search_eq_searchAll, searchAll_eq, OrdMap.find_foldl_push, hfilter, List.map_map]
  show (if ((w.accepted key).filter fun e => e.2.category = c).map w.intentOf = [] then _ else
    some (_ ++ ((w.accepted key).filter fun e => e.2.category = c).map w.intentOf)) = _
  rw [intents_eq h]
  by_cases hnil : w.intentsOf key c = []
  · rw [if_pos hnil, if_pos (by rw [hnil]; rfl)]; rfl
  · rw [if_neg hnil, if_neg (by simpa using hnil)]; rfl

end Service

namespace Bus

open Service

variable {w : Service} {requestPayload : JValue} {key : String}

/-- One entry of the `results` array. -/
def entry (cateId : String) (intents : List Intent) : JValue :=
  (JValue.object.put "categoryId" (.str cateId)).put "items" (.arr (intents.map Intent.toJson))

theorem foldlM_append (intents : List Intent) (acc : List JValue) :
    (intents.map some).foldlM
        (fun arr intent => Option.map (fun intent => arr.append intent.toJson) intent)
        (JValue.arr acc) =
      some (JValue.arr (acc ++ intents.map Intent.toJson)) := by
  induction intents generalizing acc with
  | nil => simp
  | cons i l ih =>
    have := ih (acc ++ [i.toJson])
    rw [List.append_assoc, List.singleton_append] at this
    exact this

theorem appendCategory_eq (h : w.NonNullIntents) (acc : List JValue) (category : Category) :
    appendCategory (w.search key) (.arr acc) category = some (.arr (acc ++
      if category.enabled = true ∧ w.intentsOf key category.id ≠ [] then
        [entry category.id (w.intentsOf key category.id)]
      else [])) := by
  unfold appendCategory
  rw [find_search h]
  by_cases he : category.enabled = true
  · by_cases hi : w.intentsOf key category.id = []
    · simp [he, hi]
    · simp only [he, hi, if_true, if_false, ne_eq, not_false_eq_true, and_self]
      show (List.foldlM _ (JValue.arr []) _ >>= _) = _
      rw [foldlM_append]
      rfl
  · simp [he]

theorem appendResults_eq (h : w.NonNullIntents) (categories : List Category) (acc : List JValue) :
    categories.foldlM (appendCategory (w.search key)) (.arr acc) = some (.arr (acc ++
      (categories.filter fun c => c.enabled ∧ w.intentsOf key c.id ≠ []).map fun c =>
        entry c.id (w.intentsOf key c.id))) := by
  induction categories generalizing acc with
  | nil => rw [List.filter_nil, List.map_nil, List.append_nil]; rfl
  | cons c l ih =>
    rw [List.foldlM_cons, appendCategory_eq h]
    show l.foldlM _ _ = _
    rw [ih, List.append_assoc, List.filter_cons]
    by_cases hc : c.enabled = true ∧ w.intentsOf key c.id ≠ []
    · rw [if_pos hc, if_pos (by simpa using hc)]; rfl
    · rw [if_neg hc, if_neg (by simpa using hc)]; rfl

/-- The rows the answer has an entry for. -/
def answered (w : Service) (key : String) : List CategoryRow :=
  (w.db.category.orderBy (·.rank)).filter fun row => row.enabled ∧ w.intentsOf key row.id.val ≠ []

theorem search_eq (hkey : requestPayload.get "key" = some (.str key))
    (hlen : 2 ≤ key.utf8ByteSize) (h : w.NonNullIntents) :
    search w requestPayload = some ((JValue.object.put "results" (.arr ((answered w key).map
      fun row => entry row.id.val (w.intentsOf key row.id.val)))).put
        "returnValue" (.bool true)) := by
  have hget : JValueUtil.getString requestPayload "key" "" = (true, key) := by
    unfold JValueUtil.getString; rw [hkey]
  have hne : ¬(key = "" ∨ key.utf8ByteSize < 2) := by
    rintro (rfl | hlt)
    · exact absurd hlen (by decide)
    · omega
  have hres : (Database.getCategories w.db).foldlM (appendCategory (w.search key)) (.arr []) = _ :=
    appendResults_eq h _ _
  unfold search
  simp only [hget, if_neg hne]
  unfold appendResults JValue.array
  rw [hres, List.nil_append]
  unfold Database.getCategories
  rw [rows_cateRank, List.filter_map, List.map_map]
  rfl

/-- **The `results` of a search**: one entry for each row that is enabled and has an accepted item,
by rank, with the intents of exactly the accepted items; searching the totally disabled sets too
would give the same intents. -/
theorem search_results (hkey : requestPayload.get "key" = some (.str key))
    (hlen : 2 ≤ key.utf8ByteSize) (h : w.NonNullIntents) :
    ∃ (rows : List CategoryRow) (response : JValue),
      search w requestPayload = some response ∧
      response.get "results" = some (.arr (rows.map fun row =>
        entry row.id.val (w.intentsOf key row.id.val))) ∧
      (∀ row, row ∈ rows ↔ row ∈ w.db.category.rows ∧ row.enabled = true ∧
        ∃ e ∈ w.accepted key, e.2.category = row.id.val) ∧
      (rows.map (·.id)).Nodup ∧ rows.Pairwise (fun a b => a.rank ≤ b.rank) ∧
      w.search key = w.searchAll key := by
  refine ⟨answered w key, _, search_eq hkey hlen h, ?_, fun row => ?_, ?_, ?_, search_eq_searchAll⟩
  · rw [JValue.get_put rfl, if_neg (by decide), JValue.get_put rfl, if_pos rfl]
  · rw [answered, List.mem_filter, Table.mem_orderBy, decide_eq_true_iff, ne_eq,
      intentsOf_eq_nil_iff h, not_not]
  · exact (w.db.category.nodup_keys_orderBy _).sublist (List.filter_sublist.map _)
  · exact (w.db.category.orderBy_sorted _).filter _

/-- A set with two categories whose source returns an item of each and one of neither. -/
def sampleService : Service :=
  let category id : Category :=
    { id, generateIntent := fun _ _ item => some { category := id, uri := item.key } }
  let item category key : SearchItem := { category, key, value := key, display := .null }
  let w : Service :=
    { db := .fresh
      categories := ⟨2, fun p => category (if p = 0 then "a" else "b")⟩
      sets := ⟨1, fun _ =>
        { id := "media",
          source := fun _ _ => [item "b" "1", item "c" "2", item "a" "3", item "b" "4"],
          categories := (OrdMap.empty.insert "a" 0).insert "b" 1 }⟩
      searchSets := .empty
      language := "en" }
  (w.addSearchSet .sample 0).2

theorem search_results_sample :
    ∃ (rows : List CategoryRow) (response : JValue),
      search sampleService (JValue.object.put "key" (.str "ke")) = some response ∧
      response.get "results" = some (.arr (rows.map fun row =>
        entry row.id.val (sampleService.intentsOf "ke" row.id.val))) ∧
      ∀ row, row ∈ rows → row ∈ sampleService.db.category.rows := by
  have hp : ∀ s ∈ sampleService.searchSets.values,
    ∀ p ∈ (sampleService.set s).categories.values, p = 0 ∨ p = 1 := by decide
  have hint : sampleService.NonNullIntents := fun s hs p hp' item => by
    rcases hp s hs p hp' with rfl | rfl <;> rfl
  obtain ⟨rows, response, hs, hr, hm, -⟩ := @search_results sampleService
    (JValue.object.put "key" (.str "ke")) "ke" rfl (by decide) hint
  exact ⟨rows, response, hs, hr, fun row h => ((hm row).1 h).1⟩

example : (answered sampleService "ke").map (·.id.val) = ["a", "b"] := by decide

end Bus

end UnifiedSearch
