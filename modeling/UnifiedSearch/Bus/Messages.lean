import UnifiedSearch.Bus.AppItems
import UnifiedSearch.Bus.Results

/-!
# What the messages of SAM keep

A message is a sequence of a few writes: items of `sam.apps` are deleted and
inserted, content is registered, a registered category is written back to its
row, a category is taken out of the set. What each of these keeps, every
message keeps (`onListApps_induct`), whatever statements fail. `Intact` is such
an invariant, and with it no search follows a null intent.
-/

namespace UnifiedSearch

open Lib Service

namespace Sam

variable {env : Env} {sam : Sam} {w : Service} {app : JValue} {apps : List JValue}
  {payload : JValue} {p : CategoryPtr}

/-- A registered category is named by the title and written back to its row. -/
def refresh (env : Env) (w : Service) (p : CategoryPtr) (app : JValue) : Service :=
  { w.setCategoryName p (appTitle app) with
    db := (Database.updateCategory env.fault w.db
      { w.category p with name := appTitle app }).2 }

/-- What a `removed` change does. -/
def dropApp (env : Env) (sam : Sam) (w : Service) (app : JValue) : Service :=
  ({ w with db := (Applications.removeFromDatabase env w.db (appId app)).2 }.removeCategory env
    sam.searchSet (appId app)).2

def addItem (env : Env) (w : Service) (app : JValue) : Service :=
  { w with db := (Applications.addToDatabase env w.db app).2 }

theorem listApp_refresh (h : w.findCategoryIn sam.searchSet (appId app) = some p) :
    listApp env sam w app = refresh env (addItem env w app) p app := by
  rw [listApp_registered h]
  rfl

/-- What each part of a message keeps. -/
structure Kept (env : Env) (sam : Sam) (apps : List JValue) (P : Service → Prop) : Prop where
  clear : ∀ w, P w → P { w with db := (Applications.removeFromDatabase env w.db).2 }
  item : ∀ w, ∀ app ∈ apps, P w → P (addItem env w app)
  content : ∀ w, ∀ app ∈ apps, isContent app = true → P w →
    P (addAppContents env sam w app).2
  refresh : ∀ w p, ∀ app ∈ apps, w.findCategoryIn sam.searchSet (appId app) = some p → P w →
    P (refresh env w p app)
  drop : ∀ w, ∀ app ∈ apps, P w → P (dropApp env sam w app)

variable {P : Service → Prop}

theorem Kept.addAppContents (hk : Kept env sam apps P) (happ : app ∈ apps) (h : P w) :
    P (addAppContents env sam w app).2 := by
  cases hc : isContent app with
  | false => rw [addAppContents_other hc]; exact h
  | true => exact hk.content w app happ hc h

theorem Kept.listApp (hk : Kept env sam apps P) (happ : app ∈ apps) (h : P w) :
    P (listApp env sam w app) := by
  have hitem := hk.item w app happ h
  cases hf : w.findCategoryIn sam.searchSet (appId app) with
  | none =>
    rw [listApp_new hf]
    exact hk.addAppContents happ hitem
  | some p =>
    rw [listApp_refresh hf]
    exact hk.refresh _ p app happ hf hitem

theorem Kept.foldl_listApp (hk : Kept env sam apps P) {l : List JValue} (hl : l ⊆ apps) (h : P w) :
    P (l.foldl (Sam.listApp env sam) w) := by
  induction l generalizing w with
  | nil => exact h
  | cons app l ih =>
    obtain ⟨happ, hl⟩ := List.cons_subset.1 hl
    exact ih hl (hk.listApp happ h)

/-- **What every part of a message keeps, the message keeps.** -/
theorem onListApps_induct (hk : Kept env sam (messageApps payload) P) (h : P w) :
    P (onListApps env sam w payload) := by
  have hclear := hk.clear w h
  cases hl : fullList payload with
  | some apps =>
    have hmsg : messageApps payload = apps := by unfold messageApps; rw [hl]
    rw [onListApps_full hl]
    exact hk.foldl_listApp (fun _ ha => hmsg ▸ ha) hclear
  | none =>
    unfold onListApps
    rw [hl]
    dsimp only
    cases hc : changeOf payload with
    | none => exact h
    | some c =>
      obtain ⟨change, app⟩ := c
      have happ : app ∈ messageApps payload := by unfold messageApps; rw [hl, hc]; simp
      dsimp only
      split_ifs
      · exact hk.addAppContents happ (hk.item w app happ h)
      · exact hk.drop w app happ h
      · exact h

end Sam

/-! ## The language -/

namespace Service

variable {env : Env} {w : Service} {s : SearchSetPtr} {p c : CategoryPtr} {k : String}

theorem language_adjustOrCreateCategory (env : Env) (w : Service) (p : CategoryPtr) :
    (w.adjustOrCreateCategory env p).language = w.language := by
  obtain ⟨db, cate, heq, -⟩ := adjustOrCreateCategory_frame env w p
  rw [heq]
  rfl

theorem language_addCategory (env : Env) (w : Service) (s : SearchSetPtr) (c : CategoryPtr) :
    (w.addCategory env s c).2.language = w.language := by
  unfold addCategory categoryAdded
  dsimp only
  split_ifs
  · rfl
  · exact language_adjustOrCreateCategory ..
  · rfl

theorem language_addSearchSet (env : Env) (w : Service) (s : SearchSetPtr) :
    (w.addSearchSet env s).2.language = w.language := by
  unfold addSearchSet
  split_ifs
  · rfl
  · show (((w.attach s).set s).categories.values.foldl _ (w.attach s)).language = _
    generalize ((w.attach s).set s).categories.values = l
    have hatt : (w.attach s).language = w.language := rfl
    generalize w.attach s = w' at hatt
    induction l generalizing w' with
    | nil => exact hatt
    | cons p l ih => exact ih _ ((language_adjustOrCreateCategory env w' p).trans hatt)

theorem language_removeCategory (env : Env) (w : Service) (s : SearchSetPtr) (k : String) :
    (w.removeCategory env s k).2.language = w.language := by
  rw [removeCategory_snd]
  split_ifs <;> rfl

end Service

theorem Sam.language_onListApps (env : Env) (sam : Sam) (w : Service) (payload : JValue) :
    (onListApps env sam w payload).language = w.language := by
  refine onListApps_induct (P := fun w' => w'.language = w.language) ⟨?_, ?_, ?_, ?_, ?_⟩ rfl
  · exact fun _ h => h
  · exact fun _ _ _ h => h
  · intro w' app _ hc h
    rw [addAppContents_content hc, language_addCategory]
    exact h
  · exact fun _ _ _ _ _ h => h
  · intro w' app _ h
    unfold dropApp
    rw [language_removeCategory]
    exact h

theorem Bus.language_updateCategory (env : Env) (w : Service) (requestPayload : JValue) :
    (Bus.updateCategory env w requestPayload).2.language = w.language := by
  unfold Bus.updateCategory
  split
  · rfl
  · split
    · rfl
    · dsimp only
      split <;> rfl

/-! ## Intents -/

/-- The pointers of the sets point to objects, and these give an intent for every item. -/
structure Intact (w : Service) : Prop where
  held : ∀ s k p, (w.set s).categories.find k = some p → p < w.categories.next
  produces : ∀ p, p < w.categories.next → ∀ language name item,
    ((w.category p).generateIntent language name item).isSome = true

namespace Intact

variable {env : Env} {sam : Sam} {w w' : Service} {s : SearchSetPtr} {p c : CategoryPtr}
  {k : String}

theorem nonNullIntents (h : Intact w) : w.NonNullIntents := by
  intro s _ p hp item
  obtain ⟨k, hk⟩ := OrdMap.mem_values_iff.1 hp
  exact h.produces p (h.held s k p hk) w.language _ item

/-- Writes that leave the sets and the methods of the objects. -/
theorem frame (h : Intact w) (hsets : w'.sets = w.sets)
    (hnext : w'.categories.next = w.categories.next)
    (hgen : ∀ p, (w'.category p).generateIntent = (w.category p).generateIntent) : Intact w' := by
  refine ⟨fun s k p hp => ?_, fun p hp => ?_⟩
  · unfold Service.set at hp
    rw [hsets] at hp
    rw [hnext]
    exact h.held s k p hp
  · rw [hnext] at hp
    rw [hgen]
    exact h.produces p hp

theorem write (h : Intact w) {cate : Category}
    (hgen : cate.generateIntent = (w.category p).generateIntent) : Intact (w.write p cate) := by
  refine h.frame rfl rfl fun q => ?_
  rw [category_write]
  split_ifs with hq
  · rw [hq]
    exact hgen
  · rfl

theorem adjustOrCreateCategory (h : Intact w) (env : Env) (p : CategoryPtr) :
    Intact (w.adjustOrCreateCategory env p) := by
  cases hf : w.db.category.find (.ofCStr (w.category p).id) with
  | some row =>
    rw [adjustOrCreateCategory_known env hf]
    exact h.write rfl
  | none =>
    obtain ⟨t, -, heq⟩ := adjustOrCreateCategory_new env hf
    rw [heq]
    have hw : Intact (w.write p { w.category p with rank := w.db.category.maxRank.getD 0 + 1 }) :=
      h.write rfl
    exact { hw with }

theorem newCategory (h : Intact w) (cate : Category)
    (hgen : ∀ language name item, (cate.generateIntent language name item).isSome = true) :
    Intact { w with categories := (w.categories.alloc cate).2 } := by
  refine ⟨fun s k p hp => Nat.lt_succ_of_lt (h.held s k p hp), fun p hp => ?_⟩
  have hcell : { w with categories := (w.categories.alloc cate).2 }.category p =
      if p = w.categories.next then cate else w.category p := rfl
  rw [hcell]
  split_ifs with he
  · exact hgen
  · exact h.produces p (Nat.lt_of_le_of_ne (Nat.le_of_lt_succ hp) he)

theorem newSearchSet (h : Intact w) (id : String) (source : Db → String → List SearchItem) :
    Intact { w with sets := (w.sets.alloc { id, source }).2 } := by
  refine ⟨fun s k p hp => ?_, h.produces⟩
  have hcell : { w with sets := (w.sets.alloc { id, source }).2 }.set s =
      if s = w.sets.next then { id, source } else w.set s := rfl
  rw [hcell] at hp
  split_ifs at hp
  · cases hp
  · exact h.held s k p hp

theorem addCategory (h : Intact w) (env : Env) (s : SearchSetPtr) (hc : c < w.categories.next) :
    Intact (w.addCategory env s c).2 := by
  cases hf : (w.set s).categories.find (w.category c).id with
  | some p =>
    rw [addCategory_refused (by rw [hf]; rfl)]
    exact h
  | none =>
    have hins : Intact (w.modifySet s fun set =>
        { set with categories := set.categories.insert (w.category c).id c }) := by
      refine ⟨fun t k p hp => ?_, h.produces⟩
      rw [find_insert_set hf] at hp
      split_ifs at hp
      · cases hp
        exact hc
      · exact h.held t k p hp
    rw [addCategory_eq hf]
    dsimp only
    split_ifs
    · exact hins.adjustOrCreateCategory env c
    · exact hins

theorem addSearchSet (h : Intact w) (env : Env) (s : SearchSetPtr) :
    Intact (w.addSearchSet env s).2 := by
  unfold Service.addSearchSet
  split_ifs
  · exact h
  · have hatt : Intact (w.attach s) := by
      refine ⟨fun t k p hp => ?_, h.produces⟩
      rw [set_attach] at hp
      split_ifs at hp
      · exact h.held s k p hp
      · exact h.held t k p hp
    show Intact (((w.attach s).set s).categories.values.foldl _ (w.attach s))
    generalize ((w.attach s).set s).categories.values = l
    generalize w.attach s = w' at hatt
    induction l generalizing w' with
    | nil => exact hatt
    | cons p l ih => exact ih _ (hatt.adjustOrCreateCategory env p)

theorem removeCategory (h : Intact w) (env : Env) (s : SearchSetPtr) (k : String) :
    Intact (w.removeCategory env s k).2 := by
  rw [removeCategory_snd]
  split_ifs
  · exact h
  · refine ⟨fun t k' p hp => ?_, h.produces⟩
    rw [find_erase_set] at hp
    split_ifs at hp
    exact h.held t k' p hp

theorem onListApps (h : Intact w) (env : Env) (sam : Sam) (payload : JValue) :
    Intact (Sam.onListApps env sam w payload) := by
  refine Sam.onListApps_induct (P := Intact) ⟨?_, ?_, ?_, ?_, ?_⟩ h
  · exact fun _ h => { h with }
  · exact fun _ _ _ h => { h with }
  · intro w app _ hc h
    rw [Sam.addAppContents_content hc]
    have hnew : Intact { w with
        categories :=
          (AppContents.make env w (Sam.appId app) (Sam.appTitle app) app).2.categories } :=
      h.newCategory _ fun _ _ _ => rfl
    have hmade : Intact (AppContents.make env w (Sam.appId app) (Sam.appTitle app) app).2 :=
      { hnew with }
    exact hmade.addCategory env sam.searchSet (Nat.lt_succ_self _)
  · intro w p app _ _ h
    have hw : Intact (w.setCategoryName p (Sam.appTitle app)) := h.write rfl
    exact { hw with }
  · intro w app _ h
    have hdb : Intact { w with
      db := (Applications.removeFromDatabase env w.db (Sam.appId app)).2 } := { h with }
    exact hdb.removeCategory env sam.searchSet (Sam.appId app)

theorem updateCategory (h : Intact w) (env : Env) (requestPayload : JValue) :
    Intact (Bus.updateCategory env w requestPayload).2 := by
  unfold Bus.updateCategory
  split
  · exact h
  · split
    · exact { h with }
    · dsimp only
      split
      · exact { h with }
      · next db _ _ org _ =>
        have hdb : Intact { w with db } := { h with }
        exact hdb.write rfl

end Intact

end UnifiedSearch
