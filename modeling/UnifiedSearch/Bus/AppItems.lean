import UnifiedSearch.Base.UpdateFaults
import UnifiedSearch.Bus.FullList

/-!
# The items of the applications

The rows of category `sam.apps` (`appRows`) against what the messages describe.
`appKeys` are their keys; `describe` is the set of installed applications,
each with its last description. `Indexed` relates the two, and `indexed_run`
carries it along the runs in which no visible application is announced again
before it is removed.
-/

namespace UnifiedSearch

open Lib Database

variable {env : Env} {db : Db} {k c : String}

theorem items_updateCategory {fault : ℕ → Bool} (db : Db) (cate : Category) :
    (updateCategory fault db cate).2.items = db.items := by
  cases h : db.category.lookup cate.id with
  | none => rw [updateCategory_absent h]
  | some row =>
    by_cases h0 : row.rank < 0
    · rw [updateCategory_negative h h0]
    · have hshift : (shiftStep fault db row cate).items = db.items := by
        unfold shiftStep
        cases db.category.shift row cate with
        | none => rfl
        | some range =>
          dsimp only [updateRanks]
          rw [step_changerank_fault]
          split_ifs <;> rfl
      rw [updateCategory_steps h (not_lt.1 h0), step_cateUpdate_fault, ← hshift]
      split_ifs <;> rfl

theorem filter_deleted (items : List ItemRow) (hk : k ≠ c) :
    (deleted items k "").filter (·.category.val = c) = items.filter (·.category.val = c) := by
  unfold deleted
  by_cases hn : NulFree k ∧ NulFree ""
  · rw [if_pos hn, if_pos rfl, List.filter_filter]
    apply List.filter_congr
    intro r _
    by_cases hr : r.category.val = c
    · have hmeets : r.meets k none = false := by simp [ItemRow.meets, hr, Ne.symm hk]
      rw [hmeets]; simp
    · simp [hr]
  · rw [if_neg hn]

theorem items_foldl_adjustOrCreateCategory (env : Env) (w : Service) (l : List CategoryPtr) :
    (l.foldl (Service.adjustOrCreateCategory env) w).db.items = w.db.items := by
  induction l generalizing w with
  | nil => rfl
  | cons p l ih => exact (ih _).trans (Service.adjustOrCreateCategory_db env w p).1

theorem items_addSearchSet (env : Env) (w : Service) (s : SearchSetPtr) :
    (w.addSearchSet env s).2.db.items = w.db.items := by
  unfold Service.addSearchSet
  split_ifs
  · rfl
  · exact items_foldl_adjustOrCreateCategory env _ _

namespace Sam

open Service

variable {sam : Sam} {w : Service} {app : JValue} {apps : List JValue} {keys : List String}

/-- The rows of category `sam.apps`. -/
def appRows (db : Db) : List ItemRow :=
  db.items.filter (·.category.val = Applications.categoryId)

/-- The row of an application. -/
def appRow (env : Env) (app : JValue) : ItemRow := itemRow env (Applications.item app)

/-- The rows of the visible ones of a list. -/
def listRows (env : Env) (apps : List JValue) : List ItemRow :=
  (apps.filter Applications.visible).map (appRow env)

def appKeys (db : Db) : List String := (appRows db).map (·.key.val)

/-- The key an application's row gets. -/
def appKey (app : JValue) : String := (Text.ofCStr (appId app)).val

theorem appRows_congr {db db' : Db} (h : db'.items = db.items) : appRows db' = appRows db := by
  unfold appRows; rw [h]

/-! ## What a message does to the rows -/

theorem appRows_addToDatabase (env : Env) (db : Db) (app : JValue) :
    appRows (Applications.addToDatabase env.healthy db app).2 =
      appRows db ++ listRows env [app] := by
  unfold Applications.addToDatabase listRows
  cases hv : Applications.visible app with
  | false => simp [hv]
  | true =>
    have hcat : (itemRow env (Applications.item app)).category.val = Applications.categoryId :=
      Text.ofCStr_of_nulFree (s := Applications.categoryId) (by decide)
    simp only [Bool.not_true, Bool.false_eq_true, if_false]
    rw [insertItem_eq, List.filter_cons_of_pos hv]
    unfold appRows
    rw [List.filter_append, List.filter_singleton, hcat]
    simp [appRow]

/-- The id of the app is not empty, has no single quote in it, and is not `sam.apps`. -/
structure Named (app : JValue) : Prop where
  ne_empty : appId app ≠ ""
  quote : '\'' ∉ (appId app).toList
  ne_apps : appId app ≠ Applications.categoryId

/-- The content of the app is not filed under `sam.apps`. -/
def Apart (app : JValue) : Prop := isContent app = true → appKey app ≠ Applications.categoryId

instance : Decidable (Apart app) := inferInstanceAs (Decidable (_ = true → _))

theorem appRows_addAppContents (env : Env) (w : Service) (hn : Named app) (ha : Apart app) :
    appRows (addAppContents env.healthy sam w app).2.db = appRows w.db := by
  cases hc : isContent app with
  | false => rw [addAppContents_other hc]
  | true =>
    obtain ⟨db, -, hdel, happ⟩ := AppContents.make_db env w (appTitle app) app
      fun hmem => hn.quote (Text.mem_ofCStr hmem)
    rw [addAppContents_content hc]
    refine (appRows_congr (addCategory_db _ _ _ _).1).trans ?_
    unfold appRows
    rw [happ.filter_items (ha hc), hdel, filter_deleted _ hn.ne_apps]

theorem appRows_listApp (env : Env) (w : Service) (hn : Named app) (ha : Apart app) :
    appRows (listApp env.healthy sam w app).db = appRows w.db ++ listRows env [app] := by
  rw [← appRows_addToDatabase env w.db app]
  cases h : w.findCategoryIn sam.searchSet (appId app) with
  | some p =>
    rw [listApp_registered h]
    exact appRows_congr (items_updateCategory _ _)
  | none => rw [listApp_new h, appRows_addAppContents env _ hn ha]

theorem appRows_removeFromDatabase (hk : k ≠ "") (hq : '\'' ∉ k.toList) :
    appRows (Applications.removeFromDatabase env.healthy db k).2 =
      (appRows db).filter (·.key.val ≠ k) := by
  unfold Applications.removeFromDatabase
  rw [removeItem_eq (by decide) fun hmem => hq (Text.mem_ofCStr hmem)]
  by_cases hn : NulFree k
  · unfold appRows deleted
    rw [if_pos ⟨by decide, hn⟩, if_neg hk, List.filter_filter, List.filter_filter]
    refine List.filter_congr fun r _ => ?_
    by_cases hr : r.category.val = Applications.categoryId <;> simp [ItemRow.meets, hr]
  · have hkeep : (appRows db).filter (·.key.val ≠ k) = appRows db := by
      apply List.filter_eq_self.2
      intro r _
      have hne : r.key.val ≠ k := fun e => hn (e ▸ r.key.nulFree)
      simpa using hne
    rw [hkeep]
    apply appRows_congr
    unfold deleted
    rw [if_neg fun h => hn h.2]

theorem appRows_cleared : appRows (Applications.removeFromDatabase env.healthy db).2 = [] := by
  unfold Applications.removeFromDatabase
  rw [removeItem_eq (by decide) (by decide)]
  unfold appRows deleted
  rw [if_pos (by decide), List.filter_filter, List.filter_eq_nil_iff]
  intro r _
  by_cases hr : r.category.val = Applications.categoryId <;> simp [ItemRow.meets, hr]

theorem appRows_onInitialized (env : Env) (db : Db) (language : String) :
    appRows (onInitialized env.healthy (start db language)).2.db = [] := by
  rw [← appRows_cleared]
  apply appRows_congr
  unfold onInitialized
  dsimp only
  rw [items_addSearchSet, (addCategory_db _ _ _ _).1]

/-! ## What it does to the keys -/

theorem key_listRows (env : Env) (app : JValue) : (listRows env [app]).map (·.key.val) =
    if Applications.visible app then [appKey app] else [] := by
  unfold listRows
  cases hv : Applications.visible app with
  | false => rw [List.filter_cons_of_neg (by rw [hv]; decide)]; rfl
  | true => rw [List.filter_cons_of_pos hv]; rfl

theorem appKeys_listApp (env : Env) (w : Service) (hn : Named app) (ha : Apart app) :
    appKeys (listApp env.healthy sam w app).db =
      appKeys w.db ++ if Applications.visible app then [appKey app] else [] := by
  unfold appKeys
  rw [appRows_listApp env w hn ha, List.map_append, key_listRows]

theorem appKeys_removeFromDatabase (hk : k ≠ "") (hq : '\'' ∉ k.toList) :
    appKeys (Applications.removeFromDatabase env.healthy db k).2 = (appKeys db).filter (· ≠ k) := by
  unfold appKeys
  rw [appRows_removeFromDatabase hk hq, List.filter_map]
  rfl

/-! ## The installed applications -/

/-- What the messages describe as installed: the last description of each id. -/
abbrev Installed := String → Option JValue

def Installed.empty : Installed := fun _ => none

def install (d : Installed) (app : JValue) : Installed := Function.update d (appId app) (some app)

/-- What a message makes of it. -/
def describe (d : Installed) (payload : JValue) : Installed :=
  match fullList payload with
  | some apps => apps.foldl install .empty
  | none =>
    match changeOf payload with
    | some (change, app) =>
      if change = "added" then install d app
      else if change = "removed" then Function.update d (appId app) none
      else d
    | none => d

/-- Installed, and visible by its last description. -/
def shown (d : Installed) (id : String) : Bool := (d id).any Applications.visible

theorem shown_install {d : Installed} {id : String} : shown (install d app) id =
    if id = appId app then Applications.visible app else shown d id := by
  unfold shown install
  by_cases h : id = appId app
  · subst h; rw [Function.update_self, if_pos rfl]; rfl
  · rw [Function.update_of_ne h, if_neg h]

/-- The keys are those of the visible installed applications, each once. -/
structure Indexed (keys : List String) (d : Installed) : Prop where
  nodup : keys.Nodup
  mem : ∀ id, id ∈ keys ↔ shown d id = true

/-- The app is not among the visible ones, and its row keeps its id. -/
def Fresh (d : Installed) (app : JValue) : Prop :=
  shown d (appId app) = false ∧ (Applications.visible app = true → NulFree (appId app))

instance (d : Installed) : Decidable (Fresh d app) :=
  inferInstanceAs (Decidable (_ ∧ (_ = true → _)))

variable {d : Installed}

theorem indexed_empty : Indexed [] .empty :=
  ⟨List.nodup_nil, fun id => by simp [shown, Installed.empty]⟩

/-- An app that is not visible only changes its description. -/
theorem indexed_hidden_iff (h : Indexed keys d) (hv : Applications.visible app = false) :
    Indexed keys (install d app) ↔ shown d (appId app) = false := by
  constructor
  · intro h'
    have hnot : appId app ∉ keys := fun hmem => by
      have hs := (h'.mem _).1 hmem
      rw [shown_install, if_pos rfl, hv] at hs
      cases hs
    exact Bool.eq_false_iff.2 fun hs => hnot ((h.mem _).2 hs)
  · intro hs
    refine ⟨h.nodup, fun id => ?_⟩
    rw [shown_install, h.mem]
    by_cases hid : id = appId app
    · rw [if_pos hid, hv, hid, hs]
    · rw [if_neg hid]

theorem indexed_visible_iff (h : Indexed keys d) (hv : Applications.visible app = true) :
    Indexed (keys ++ [appKey app]) (install d app) ↔
      shown d (appId app) = false ∧ NulFree (appId app) := by
  constructor
  · intro h'
    have hkey : appKey app ∉ keys := fun hmem =>
      (List.nodup_append.1 h'.nodup).2.2 _ hmem _ (List.mem_singleton_self _) rfl
    -- the cut key is an id of the set, and it can only be the new one
    have hid : appKey app = appId app := by
      by_contra hne
      have hs := (h'.mem (appKey app)).1 (List.mem_append_right _ (List.mem_singleton_self _))
      rw [shown_install, if_neg hne] at hs
      exact hkey ((h.mem _).2 hs)
    refine ⟨Bool.eq_false_iff.2 fun hs => hkey ?_, Text.ofCStr_val_eq_iff.1 hid⟩
    rw [hid]
    exact (h.mem _).2 hs
  · rintro ⟨hs, hnul⟩
    have hid : appKey app = appId app := Text.ofCStr_of_nulFree hnul
    have hnot : appId app ∉ keys := fun hmem => by
      rw [(h.mem _).1 hmem] at hs
      cases hs
    rw [hid]
    refine ⟨List.nodup_append.2 ⟨h.nodup, List.nodup_singleton _, ?_⟩, fun id => ?_⟩
    · intro a ha b hb e
      rw [List.mem_singleton.1 hb] at e
      exact hnot (e ▸ ha)
    · rw [shown_install, List.mem_append, List.mem_singleton, h.mem]
      by_cases he : id = appId app <;> simp [he, hv]

theorem indexed_install_iff (h : Indexed keys d) :
    Indexed (keys ++ if Applications.visible app then [appKey app] else []) (install d app) ↔
      Fresh d app := by
  unfold Fresh
  cases hv : Applications.visible app with
  | false =>
    simp only [Bool.false_eq_true, if_false, List.append_nil, false_imp_iff, and_true]
    exact indexed_hidden_iff h hv
  | true =>
    simp only [if_true, true_imp_iff]
    exact indexed_visible_iff h hv

theorem indexed_remove (h : Indexed keys d) (k : String) :
    Indexed (keys.filter (· ≠ k)) (Function.update d k none) := by
  refine ⟨h.nodup.filter _, fun id => ?_⟩
  rw [List.mem_filter, h.mem]
  unfold shown
  by_cases hid : id = k
  · subst hid; simp
  · rw [Function.update_of_ne hid]; simp [hid]

/-! ## Runs of messages -/

/-- The apps a message carries. -/
def messageApps (payload : JValue) : List JValue :=
  match fullList payload with
  | some apps => apps
  | none => ((changeOf payload).map (·.2)).toList

/-- No app of the message is announced while it is visible already. -/
def Announces (d : Installed) (payload : JValue) : Prop :=
  (∀ apps ∈ fullList payload,
    Each install (fun d app => Fresh d app ∧ Apart app) .empty apps) ∧
  ((fullList payload).isNone = true → ∀ change ∈ changeOf payload, change.1 = "added" →
    Fresh d change.2 ∧ Apart change.2)

instance (d : Installed) (payload : JValue) : Decidable (Announces d payload) :=
  inferInstanceAs (Decidable ((∀ apps ∈ fullList payload, _) ∧
    (_ = true → ∀ change ∈ changeOf payload, change.1 = "added" → _)))

theorem indexed_foldl_listApp (hi : Indexed (appKeys w.db) d) (hn : ∀ app ∈ apps, Named app)
    (hf : Each install (fun d app => Fresh d app ∧ Apart app) d apps) :
    Indexed (appKeys (apps.foldl (listApp env.healthy sam) w).db) (apps.foldl install d) := by
  induction apps generalizing w d with
  | nil => exact hi
  | cons app apps ih =>
    obtain ⟨⟨hfresh, hapart⟩, hf⟩ := hf
    refine ih ?_ (fun a ha => hn a (List.mem_cons_of_mem _ ha)) hf
    rw [appKeys_listApp env w (hn app List.mem_cons_self) hapart]
    exact (indexed_install_iff hi).2 hfresh

theorem indexed_onListApps {payload : JValue} (hi : Indexed (appKeys w.db) d)
    (hn : ∀ app ∈ messageApps payload, Named app) (hf : Announces d payload) :
    Indexed (appKeys (onListApps env.healthy sam w payload).db) (describe d payload) := by
  obtain ⟨hlist, hchange⟩ := hf
  unfold messageApps at hn
  cases hl : fullList payload with
  | some apps =>
    have hd : describe d payload = apps.foldl install .empty := by unfold describe; rw [hl]
    rw [hl] at hn
    rw [onListApps_full hl, hd]
    refine indexed_foldl_listApp ?_ hn (hlist apps (Option.mem_def.2 hl))
    unfold appKeys
    dsimp only
    rw [appRows_cleared]
    exact indexed_empty
  | none =>
    unfold onListApps describe
    rw [hl] at hn ⊢
    dsimp only at hn ⊢
    cases hc : changeOf payload with
    | none => exact hi
    | some c =>
      obtain ⟨change, app⟩ := c
      rw [hc] at hn
      have hnamed : Named app := hn app (by simp)
      dsimp only
      split_ifs with hadded hremoved
      · obtain ⟨hfresh, hapart⟩ := hchange (by rw [hl]; rfl) (change, app) hc hadded
        unfold appKeys
        rw [appRows_addAppContents env _ hnamed hapart, appRows_addToDatabase, List.map_append,
          key_listRows]
        exact (indexed_install_iff hi).2 hfresh
      · have hid : (JValueUtil.getString app "id" "").2 = appId app := rfl
        rw [db_removeCategory, hid]
        dsimp only
        rw [appKeys_removeFromDatabase hnamed.ne_empty hnamed.quote]
        exact indexed_remove hi (appId app)
      · exact hi

/-- The service and the described set, message by message. -/
def track (env : Env) (sam : Sam) (s : Service × Installed) (payload : JValue) :
    Service × Installed :=
  (onListApps env sam s.1 payload, describe s.2 payload)

theorem always_indexed {payloads : List JValue} (hi : Indexed (appKeys w.db) d)
    (hn : ∀ payload ∈ payloads, ∀ app ∈ messageApps payload, Named app)
    (hf : Each describe Announces d payloads) :
    Always (track env.healthy sam) (fun s => Indexed (appKeys s.1.db) s.2) (w, d) payloads := by
  induction payloads generalizing w d with
  | nil => exact hi
  | cons payload payloads ih =>
    refine ⟨hi, ih ?_ (fun p hp => hn p (List.mem_cons_of_mem _ hp)) hf.2⟩
    exact indexed_onListApps hi (hn payload List.mem_cons_self) hf.1

/-- **The rows of `sam.apps` are the visible installed applications, each once**, in every state of
every run that announces no visible application twice; where an announcement is taken, this is also
necessary. -/
theorem indexed_run (env : Env) (db : Db) (language : String) (payloads : List JValue)
    (hn : ∀ payload ∈ payloads, ∀ app ∈ messageApps payload, Named app) :
    let s := onInitialized env.healthy (start db language)
    (Each describe Announces .empty payloads →
      Always (track env.healthy s.1) (fun s => Indexed (appKeys s.1.db) s.2) (s.2, .empty)
        payloads) ∧
    ∀ w d app, Named app → Apart app → Indexed (appKeys w.db) d →
      (Indexed (appKeys (listApp env.healthy s.1 w app).db) (install d app) ↔ Fresh d app) := by
  intro s
  constructor
  · intro hf
    have h0 : Indexed (appKeys s.2.db) .empty := by
      unfold appKeys
      rw [appRows_onInitialized]
      exact indexed_empty
    exact always_indexed h0 hn hf
  · intro w d app hnamed hapart hi
    rw [appKeys_listApp env w hnamed hapart]
    exact indexed_install_iff hi

def changePayload (change : String) (app : JValue) : JValue :=
  .obj [("change", .str change), ("app", app)]

/-- A list, a removal, and the removed app added again. -/
def announced : List JValue :=
  [listPayload [webApp "a", webApp "b"], changePayload "removed" (webApp "a"),
    changePayload "added" (webApp "a")]

theorem indexed_run_sample :
    let s := onInitialized Env.sample.healthy (start .fresh "en")
    Always (track Env.sample.healthy s.1) (fun s => Indexed (appKeys s.1.db) s.2) (s.2, .empty)
      announced := by
  refine (indexed_run Env.sample .fresh "en" announced ?_).1 (by decide)
  have hnamed (id : String) (h : id = "a" ∨ id = "b") : Named (webApp id) := by
    rcases h with rfl | rfl <;> exact ⟨by decide, by decide, by decide⟩
  intro payload hp app happ
  simp only [announced, List.mem_cons, List.not_mem_nil, or_false] at hp
  rcases hp with rfl | rfl | rfl
  · rcases List.mem_cons.1 happ with rfl | happ
    · exact hnamed "a" (.inl rfl)
    · rw [List.mem_singleton.1 happ]; exact hnamed "b" (.inr rfl)
  · rw [List.mem_singleton.1 happ]; exact hnamed "a" (.inl rfl)
  · rw [List.mem_singleton.1 happ]; exact hnamed "a" (.inl rfl)

/-- An installed app that is added again has two rows. -/
theorem not_indexed_updated :
    let s := onInitialized Env.sample.healthy (start .fresh "en")
    let s' := run (track Env.sample.healthy s.1) (s.2, .empty)
      [listPayload [webApp "a"], changePayload "added" (webApp "a")]
    ¬Indexed (appKeys s'.1.db) s'.2 := by
  intro s s' h
  have hnodup : (appKeys s'.1.db).Nodup := h.nodup
  revert hnodup
  decide +kernel

end Sam

end UnifiedSearch
