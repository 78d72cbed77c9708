import UnifiedSearch.Base.ItemText
import UnifiedSearch.Bus.Flags

/-!
# From the messages of the application manager to the answers

What a running service has heard from the application manager decides what it
finds. `has_run` is about content: SAM has a category for each id that has been
announced with content and not removed since. `apps_found` is about the
applications themselves: a search finds the standing announcements of visible
ones whose rows match, in their order. They are the visible applications, each
once, only where none is announced again while it is visible.
-/

namespace UnifiedSearch

open Lib Service CategoryTable

/-! ## What stays as it was made -/

namespace Service

variable {env : Env} {w w' : Service} {s t : SearchSetPtr} {p c : CategoryPtr} {k : String}

/-- The sources of the sets, which are attached under the same ids, and the methods of the
objects. -/
structure Fixed (w w' : Service) : Prop where
  searchSets : w'.searchSets = w.searchSets
  source : ∀ t, (w'.set t).source = (w.set t).source
  next : w.categories.next ≤ w'.categories.next
  generateIntent : ∀ p, p < w.categories.next →
    (w'.category p).generateIntent = (w.category p).generateIntent

theorem Fixed.refl (w : Service) : Fixed w w := ⟨rfl, fun _ => rfl, le_rfl, fun _ _ => rfl⟩

theorem Fixed.trans {w'' : Service} (h : Fixed w w') (h' : Fixed w' w'') : Fixed w w'' :=
  ⟨h'.searchSets.trans h.searchSets, fun t => (h'.source t).trans (h.source t),
    h.next.trans h'.next, fun p hp => (h'.generateIntent p (lt_of_lt_of_le hp h.next)).trans
      (h.generateIntent p hp)⟩

theorem fixed_write {cate : Category}
    (hgen : cate.generateIntent = (w.category p).generateIntent) : Fixed w (w.write p cate) := by
  refine ⟨rfl, fun _ => rfl, le_rfl, fun q _ => ?_⟩
  rw [category_write]
  split_ifs with hq
  · rw [hq]
    exact hgen
  · rfl

theorem fixed_adjustOrCreateCategory (env : Env) (w : Service) (p : CategoryPtr) :
    Fixed w (w.adjustOrCreateCategory env p) := by
  cases hf : w.db.category.find (.ofCStr (w.category p).id) with
  | some row =>
    rw [adjustOrCreateCategory_known env hf]
    exact fixed_write rfl
  | none =>
    obtain ⟨t, -, heq⟩ := adjustOrCreateCategory_new env hf
    have hw : Fixed w (w.write p { w.category p with rank := w.db.category.maxRank.getD 0 + 1 }) :=
      fixed_write rfl
    rw [heq]
    exact { hw with }

theorem fixed_addCategory (env : Env) (w : Service) (s : SearchSetPtr) (c : CategoryPtr) :
    Fixed w (w.addCategory env s c).2 := by
  cases hf : (w.set s).categories.find (w.category c).id with
  | some p =>
    rw [addCategory_refused (by rw [hf]; rfl)]
    exact .refl w
  | none =>
    have hins : Fixed w (w.modifySet s fun set =>
        { set with categories := set.categories.insert (w.category c).id c }) := by
      refine ⟨rfl, fun t => ?_, le_rfl, fun _ _ => rfl⟩
      rw [set_modifySet]
      split_ifs with ht
      · rw [ht]
      · rfl
    rw [addCategory_eq hf]
    dsimp only
    split_ifs
    · exact hins.trans (fixed_adjustOrCreateCategory env _ c)
    · exact hins

theorem find_addCategory (hf : (w.set s).categories.find (w.category c).id = none) (k : String) :
    ((w.addCategory env s c).2.set s).categories.find k =
      if k = (w.category c).id then some c else (w.set s).categories.find k := by
  have hset : (w.addCategory env s c).2.set s = (w.modifySet s fun set =>
      { set with categories := set.categories.insert (w.category c).id c }).set s := by
    rw [addCategory_eq hf]
    dsimp only
    split_ifs <;> rfl
  rw [hset, find_insert_set hf]
  simp only [true_and]

theorem find_addCategory_other (hk : k ≠ (w.category c).id)
    (h : (w.set s).categories.find k = some p) :
    ((w.addCategory env s c).2.set s).categories.find k = some p := by
  cases hf : (w.set s).categories.find (w.category c).id with
  | some q =>
    rw [addCategory_refused (by rw [hf]; rfl)]
    exact h
  | none => rw [find_addCategory hf, if_neg hk, h]

theorem fixed_removeCategory (env : Env) (w : Service) (s : SearchSetPtr) (k : String) :
    Fixed w (w.removeCategory env s k).2 := by
  rw [removeCategory_snd]
  split_ifs
  · exact .refl w
  · refine ⟨rfl, fun t => ?_, le_rfl, fun _ _ => rfl⟩
    rw [set_modifySet]
    split_ifs with ht
    · rw [ht]
    · rfl

theorem fixed_make (env : Env) (w : Service) (id name : String) (app : JValue) :
    Fixed w (AppContents.make env w id name app).2 :=
  ⟨rfl, fun _ => rfl, Nat.le_succ _, fun _ hp =>
    congrArg Category.generateIntent (Heap.cell_alloc_of_lt hp)⟩

theorem fixed_onListApps (env : Env) (sam : Sam) (w : Service) (payload : JValue) :
    Fixed w (Sam.onListApps env sam w payload) := by
  refine Sam.onListApps_induct (P := Fixed w) ⟨?_, ?_, ?_, ?_, ?_⟩ (.refl w)
  · exact fun _ h => { h with }
  · exact fun _ _ _ h => { h with }
  · intro w' app _ hc h
    rw [Sam.addAppContents_content hc]
    exact (h.trans (fixed_make env w' _ _ app)).trans (fixed_addCategory env _ _ _)
  · intro w' p app _ _ h
    have hw : Fixed w (w'.setCategoryName p (Sam.appTitle app)) := h.trans (fixed_write rfl)
    exact { hw with }
  · intro w' app _ h
    have hdb : Fixed w { w' with
      db := (Applications.removeFromDatabase env w'.db (Sam.appId app)).2 } := { h with }
    exact hdb.trans (fixed_removeCategory env _ _ _)

theorem fixed_updateCategory (env : Env) (w : Service) (requestPayload : JValue) :
    Fixed w (Bus.updateCategory env w requestPayload).2 := by
  have h := Fixed.refl w
  unfold Bus.updateCategory
  split
  · exact h
  · split
    · exact { h with }
    · dsimp only
      split
      · exact { h with }
      · next db _ _ org _ =>
        have hdb : Fixed w { w with db } := { h with }
        exact hdb.trans (fixed_write rfl)

theorem fixed_addSearchSet (env : Env) (hfree : w.searchSets.find (w.set s).id = none) :
    Fixed (w.attach s) (w.addSearchSet env s).2 := by
  rw [addSearchSet_eq hfree]
  generalize (w.set s).categories.values = l
  generalize w.attach s = w'
  induction l generalizing w' with
  | nil => exact .refl w'
  | cons p l ih => exact (fixed_adjustOrCreateCategory env w' p).trans (ih _)

/-- A set with one category has been added. -/
structure Made (cate : Category) (source : Db → String → List SearchItem) (w w' : Service) :
    Prop where
  source : ∀ t, (w'.set t).source = if t = w.sets.next then source else (w.set t).source
  next : w.categories.next < w'.categories.next
  generateIntent : ∀ p ≤ w.categories.next, (w'.category p).generateIntent =
    if p = w.categories.next then cate.generateIntent else (w.category p).generateIntent

theorem made_attachNew {cate : Category} {id : String} {source : Db → String → List SearchItem}
    (env : Env) (hfree : w.searchSets.find id = none) :
    Made cate source w ((w.newSet env cate id source).addSearchSet env w.sets.next).2 := by
  have hf := fixed_addSearchSet env (@find_newSet env w cate id source hfree)
  have hnext : ((w.newSet env cate id source).attach w.sets.next).categories.next =
      w.categories.next + 1 := by
    show (w.newSet env cate id source).categories.next = _
    rw [newSet_eq]
    rfl
  refine ⟨fun t => ?_, ?_, fun p hp => ?_⟩
  · rw [hf.source, set_attach, set_newSet, set_newSet, if_pos rfl]
    split_ifs <;> rfl
  · have hle := hf.next
    omega
  · rw [hf.generateIntent p (by omega)]
    show ((w.newSet env cate id source).category p).generateIntent = _
    rw [newSet_eq]
    exact apply_ite Category.generateIntent _ _ _

end Service

/-- What `MainDaemon::initialize` has made: the sources that are searched, and the object of the
category `sam.apps`. -/
structure Wired (env : Env) (w : Service) : Prop where
  values : w.searchSets.values = [1, 0]
  sam : (w.set 0).source = Database.search env
  media : (w.set 1).source = fun _ _ => []
  next : 0 < w.categories.next
  generateIntent : (w.category 0).generateIntent = Applications.generateIntent

theorem Wired.returned {env : Env} {w : Service} (h : Wired env w) (key : String) :
    w.returned key = (Database.search env w.db key).map fun item => (0, item) := by
  unfold Service.returned
  rw [h.values]
  show ((w.set 1).source w.db key).map _ ++ (((w.set 0).source w.db key).map _ ++ []) = _
  rw [h.media, h.sam, List.map_nil, List.nil_append, List.append_nil]

theorem Wired.set_of_returned {env : Env} {w : Service} (h : Wired env w) {key : String}
    {t : SearchSetPtr} {item : SearchItem} (hr : (t, item) ∈ w.returned key) : t = 0 := by
  rw [h.returned] at hr
  obtain ⟨_, -, he⟩ := List.mem_map.1 hr
  exact (Prod.mk.inj he).1.symm

namespace System

variable {env : Env} {s : System}

theorem wired_fixed {w w' : Service} (h : Wired env w) (hf : Fixed w w') : Wired env w' :=
  ⟨hf.searchSets ▸ h.values, (hf.source 0).trans h.sam, (hf.source 1).trans h.media,
    lt_of_lt_of_le h.next hf.next, (hf.generateIntent 0 h.next).trans h.generateIntent⟩

theorem wired_plugin (env : Env) {w : Service} (hval : w.searchSets = OrdMap.empty.insert "SAM" 0)
    (hsets : w.sets.next = 1) (hnext : 0 < w.categories.next)
    (hsource : (w.set 0).source = Database.search env)
    (hgen : (w.category 0).generateIntent = Applications.generateIntent) :
    Wired env ((w.newSet env audioCategory "Media" fun _ _ => []).addSearchSet env
      w.sets.next).2 := by
  have hfree : w.searchSets.find "Media" = none := by rw [hval]; decide
  have hreg := (@registry_attachNew w audioCategory "Media" (fun _ _ => []) env hfree 0).1
  have hmade := @made_attachNew w audioCategory "Media" (fun _ _ => []) env hfree
  refine ⟨?_, ?_, ?_, hnext.trans hmade.next, ?_⟩
  · rw [hreg, hval, hsets]
    decide
  · rw [hmade.source, if_neg (by rw [hsets]; decide), hsource]
  · rw [hmade.source, if_pos hsets.symm]
  · rw [hmade.generateIntent 0 hnext.le, if_neg hnext.ne, hgen]

theorem wired_initial (env : Env) (db : Db) : Wired env (initial env db).service := by
  rw [service_initial]
  generalize (Applications.removeFromDatabase env db).2 = db'
  have hreg := @registry_attachNew (start db' "") samCategory "SAM" (Database.search env) env rfl 0
  have hmade := @made_attachNew (start db' "") samCategory "SAM" (Database.search env) env rfl
  exact wired_plugin env hreg.1 hreg.2.1 hmade.next ((hmade.source 0).trans (if_pos rfl))
    ((hmade.generateIntent 0 le_rfl).trans (if_pos rfl))

theorem wired_step (h : Wired env s.service) (event : SystemEvent) :
    Wired env (s.step env event).service := by
  obtain ⟨-, -, _, heq⟩ | ⟨_, payload, -, -, heq⟩ | ⟨requestPayload, -, heq⟩ :=
    service_step env s event
  · rw [heq]
    exact { h with }
  · rw [heq]
    exact wired_fixed h (fixed_onListApps (env.reading s.files) s.sam s.service payload)
  · rw [heq]
    exact wired_fixed h (fixed_updateCategory env s.service requestPayload)

theorem wired_reachable (env : Env) (db : Db) (events : List SystemEvent) :
    Wired env (run (step env) (initial env db) events).service :=
  run_invariant (P := fun s : System => Wired env s.service)
    (fun _ event h => wired_step h event) (wired_initial env db) events

theorem categories_initial (env : Env) (db : Db) :
    ((initial env db).service.set 0).categories =
      OrdMap.empty.insert Applications.categoryId 0 := by
  rw [service_initial]
  generalize (Applications.removeFromDatabase env db).2 = db'
  have hreg := @registry_attachNew (start db' "") samCategory "SAM" (Database.search env) env rfl 0
  exact (categories_plugin env hreg.1 hreg.2.1).trans (hreg.2.2.trans (if_pos rfl))

end System

/-! ## Content -/

namespace Sam

variable {env : Env} {sam : Sam} {w : Service}

/-- The ids of the categories, after a message. -/
def announce (known : String → Bool) (payload : JValue) : String → Bool :=
  match fullList payload with
  | some apps => fun k => known k || apps.any fun app => isContent app && appId app = k
  | none =>
    match changeOf payload with
    | some (change, app) =>
      if change = "added" then fun k => known k || (isContent app && appId app = k)
      else if change = "removed" then fun k => known k && appId app ≠ k
      else known
    | none => known

/-- SAM has a category for each known id, and no other. -/
def Knows (sam : Sam) (w : Service) (known : String → Bool) : Prop :=
  ∀ k, Has sam w k ↔ known k = true

theorem Knows.congr {w' : Service} {known : String → Bool} (h : Knows sam w known)
    (hset : w'.set sam.searchSet = w.set sam.searchSet) : Knows sam w' known := by
  intro k
  unfold Has
  rw [hset]
  exact h k

theorem has_removeCategory {k x : String} :
    Has sam (w.removeCategory env sam.searchSet x).2 k ↔ Has sam w k ∧ x ≠ k := by
  unfold Has
  rw [removeCategory_snd]
  split_ifs with hx
  · refine ⟨fun hk => ⟨hk, ?_⟩, And.left⟩
    rintro rfl
    rw [Option.isNone_iff_eq_none.1 hx] at hk
    cases hk
  · rw [find_erase_set]
    by_cases hk : k = x
    · simp [hk]
    · simp [hk, Ne.symm hk]

theorem knows_onListApps {known : String → Bool} (h : Knows sam w known) (payload : JValue) :
    Knows sam (onListApps env sam w payload) (announce known payload) := by
  intro k
  unfold announce
  cases hl : fullList payload with
  | some apps =>
    rw [onListApps_full hl, has_foldl_listApp]
    show Has sam w k ∨ _ ↔ _
    rw [h k]
    simp
  | none =>
    unfold onListApps
    rw [hl]
    dsimp only
    cases hc : changeOf payload with
    | none => exact h k
    | some c =>
      obtain ⟨change, app⟩ := c
      dsimp only
      split_ifs
      · rw [has_addAppContents]
        show Has sam w k ∨ _ ↔ _
        rw [h k]
        simp
      · show Has sam (Service.removeCategory env _ sam.searchSet (appId app)).2 k ↔ _
        rw [has_removeCategory]
        show Has sam w k ∧ _ ↔ _
        rw [h k]
        simp
      · exact h k

end Sam

namespace System

variable {env : Env} {s : System}

/-- The messages SAM has heard up to the end of a run. -/
def lists (env : Env) (db : Db) (events : List SystemEvent) : List JValue :=
  outputs (step env) (heard .sam) (initial env db) events

theorem knows_step {known : String → Bool} (h : Sam.Knows s.sam s.service known)
    (event : SystemEvent) :
    Sam.Knows (s.step env event).sam (s.step env event).service
      (run Sam.announce known (heard .sam s event)) := by
  rw [sam_step]
  obtain ⟨-, hheard, _, heq⟩ | ⟨_, payload, -, hheard, heq⟩ | ⟨requestPayload, rfl, heq⟩ :=
    service_step env s event
  · rw [heq, hheard]
    exact h.congr rfl
  · rw [heq, hheard]
    exact Sam.knows_onListApps h payload
  · rw [heq]
    refine h.congr ?_
    show (Bus.updateCategory env s.service requestPayload).2.sets.cell _ = _
    rw [(Bus.registry_updateCategory env s.service requestPayload).1]
    rfl

end System

/-- **SAM has a category for exactly the ids that were announced with content and not removed
since**, in every state of a running service, whatever statements fail; a search accepts items of no
others. -/
theorem has_run (env : Env) (db : Db) (events : List SystemEvent) :
    let s := run (System.step env) (System.initial env db) events
    let known := run Sam.announce (· = Applications.categoryId) (System.lists env db events)
    (∀ k, Sam.Has s.sam s.service k ↔ known k = true) ∧
      ∀ key p item, (p, item) ∈ s.service.accepted key → known item.category = true := by
  intro s known
  have hsam : s.sam = ⟨0, 0⟩ := System.sam_run env db events
  have hw : Wired env s.service := System.wired_reachable env db events
  have h : Sam.Knows s.sam s.service known := by
    refine run_related (G := fun _ => True)
      (R := fun (s : System) known => Sam.Knows s.sam s.service known)
      (fun s known event _ h => System.knows_step h event) (fun k => ?_) fun _ _ => trivial
    show Option.isSome (((System.initial env db).service.set 0).categories.find k) = true ↔ _
    rw [System.categories_initial, OrdMap.find_insert rfl]
    by_cases hk : k = Applications.categoryId <;> simp [hk]
  refine ⟨h, fun key p item hmem => ?_⟩
  obtain ⟨⟨t, item'⟩, hr, ha⟩ := List.mem_filterMap.1 hmem
  obtain ⟨q, hq, he⟩ := Option.map_eq_some_iff.1 ha
  obtain ⟨-, rfl⟩ := Prod.mk.inj he
  obtain rfl : t = 0 := hw.set_of_returned hr
  refine (h _).1 ?_
  unfold Sam.Has
  rw [hsam, show (s.service.set 0).categories.find item'.category = some q from
    (Option.filter_eq_some_iff.1 hq).1]
  rfl

/-! ## Applications -/

namespace Sam

variable {env : Env} {sam : Sam} {w : Service} {app : JValue} {apps : List JValue} {db : Db}
  {k : String}

/-- The announcements of visible applications that stand after a message: those of the last list,
and the ones added since, without the ids removed since. An application that is added again stands
twice. -/
def announceApps (apps : List JValue) (payload : JValue) : List JValue :=
  match fullList payload with
  | some list => list.filter Applications.visible
  | none =>
    match changeOf payload with
    | some (change, app) =>
      if change = "added" then apps ++ [app].filter Applications.visible
      else if change = "removed" then apps.filter (appId · ≠ appId app)
      else apps
    | none => apps

/-- The id is a name of its own, and what is stored of the application is read back. -/
structure Sound (env : Env) (app : JValue) : Prop where
  named : Named app
  nulFree : NulFree (appId app)
  ne_audio : appId app ≠ audioId
  title : NulFree (appTitle app)
  display : JsonText env (Applications.item app).display

theorem Sound.apart (h : Sound env app) : Apart app := fun _ e =>
  h.named.ne_apps ((Text.ofCStr_of_nulFree h.nulFree).symm.trans e)

theorem Sound.proper (h : Sound env app) : Proper app :=
  ⟨h.named.quote, fun _ => ⟨h.nulFree, h.ne_audio⟩⟩

/-- What is read back has nothing to do with the files. -/
theorem sound_reading {files : Files} : Sound (env.reading files) app ↔ Sound env app :=
  ⟨fun h => { h with display := { h.display with } },
    fun h => { h with display := { h.display with } }⟩

theorem key_appRow (h : Sound env app) : (appRow env app).key.val = appId app :=
  Text.ofCStr_of_nulFree h.nulFree

theorem appRows_foldl_listApp (env : Env) (w : Service) (h : ∀ app ∈ apps, Sound env app) :
    appRows (apps.foldl (listApp env.healthy sam) w).db = appRows w.db ++ listRows env apps := by
  induction apps generalizing w with
  | nil => exact (List.append_nil _).symm
  | cons app apps ih =>
    have happ := h app List.mem_cons_self
    rw [List.foldl_cons, ih _ fun a ha => h a (List.mem_cons_of_mem _ ha),
      appRows_listApp env w happ.named happ.apart, List.append_assoc]
    unfold listRows
    rw [← List.map_append, ← List.filter_append, List.singleton_append]

theorem appRows_onListApps (env : Env) {payload : JValue}
    (hs : ∀ app ∈ messageApps payload, Sound env app) (hall : ∀ app ∈ apps, Sound env app)
    (h : appRows w.db = apps.map (appRow env)) :
    appRows (onListApps env.healthy sam w payload).db =
      (announceApps apps payload).map (appRow env) ∧
      ∀ app ∈ announceApps apps payload, Sound env app := by
  unfold messageApps at hs
  unfold announceApps
  cases hl : fullList payload with
  | some list =>
    rw [hl] at hs
    rw [onListApps_full hl, appRows_foldl_listApp env _ hs]
    dsimp only
    rw [appRows_cleared, List.nil_append]
    exact ⟨rfl, fun app happ => hs app (List.mem_filter.1 happ).1⟩
  | none =>
    unfold onListApps
    rw [hl] at hs ⊢
    dsimp only at hs ⊢
    cases hc : changeOf payload with
    | none => exact ⟨h, hall⟩
    | some c =>
      obtain ⟨change, app⟩ := c
      rw [hc] at hs
      have happ : Sound env app := hs app (by simp)
      dsimp only
      split_ifs
      · rw [appRows_addAppContents env _ happ.named happ.apart, appRows_addToDatabase, h,
          List.map_append]
        refine ⟨rfl, fun a ha => ?_⟩
        rcases List.mem_append.1 ha with ha | ha
        · exact hall a ha
        · rw [List.mem_singleton.1 (List.mem_filter.1 ha).1]
          exact happ
      · have hid : (JValueUtil.getString app "id" "").2 = appId app := rfl
        rw [db_removeCategory, hid]
        dsimp only
        rw [appRows_removeFromDatabase happ.named.ne_empty happ.named.quote, h,
          List.filter_map]
        refine ⟨congrArg _ (List.filter_congr fun a ha => ?_), fun a ha =>
          hall a (List.mem_filter.1 ha).1⟩
        simp only [Function.comp_apply, key_appRow (hall a ha)]
      · exact ⟨h, hall⟩

/-- The category object stays in the set: no app that is removed has its id. -/
theorem find_apps_onListApps (env : Env) {payload : JValue} {p : CategoryPtr}
    (hn : ∀ app ∈ messageApps payload, Named app)
    (h : (w.set sam.searchSet).categories.find Applications.categoryId = some p) :
    ((onListApps env.healthy sam w payload).set sam.searchSet).categories.find
      Applications.categoryId = some p := by
  refine onListApps_induct (P := fun w => (w.set sam.searchSet).categories.find
    Applications.categoryId = some p) ⟨?_, ?_, ?_, ?_, ?_⟩ h
  · intro w h
    generalize (Applications.removeFromDatabase env.healthy w.db).2 = db
    exact h
  · exact fun _ _ _ h => h
  · intro w app happ hc h
    have hne : Applications.categoryId ≠ appId app := (hn app happ).ne_apps.symm
    obtain ⟨hptr, -, -, hid⟩ :=
      AppContents.make_frame env.healthy w (appId app) (appTitle app) app
    have hset : (AppContents.make env.healthy w (appId app) (appTitle app) app).2.set
      sam.searchSet = w.set sam.searchSet := rfl
    rw [← hptr] at hid
    rw [addAppContents_content hc]
    generalize AppContents.make env.healthy w (appId app) (appTitle app) app = made at hid hset ⊢
    refine find_addCategory_other ?_ ?_
    · rw [hid]
      exact hne
    · rw [hset]
      exact h
  · exact fun _ _ _ _ _ h => h
  · intro w app happ h
    unfold dropApp
    generalize (Applications.removeFromDatabase env.healthy w.db (appId app)).2 = db
    rw [removeCategory_snd]
    split_ifs
    · exact h
    · rw [find_erase_set, if_neg fun e => (hn app happ).ne_apps e.2.symm]
      exact h

end Sam

namespace System

variable {env : Env} {s : System} {apps : List JValue}

/-- The rows of the applications, and the pointer of their category. -/
structure Lists (env : Env) (s : System) (apps : List JValue) : Prop where
  sam : s.sam = ⟨0, 0⟩
  rows : Sam.appRows s.service.db = apps.map (Sam.appRow env)
  sound : ∀ app ∈ apps, Sam.Sound env app
  find : (s.service.set s.sam.searchSet).categories.find Applications.categoryId = some 0

/-- The apps of a message are sound. -/
def SoundEvent (env : Env) (event : SystemEvent) : Prop :=
  ∀ handle payload, event = .message handle payload →
    ∀ app ∈ Sam.messageApps payload, Sam.Sound env app

theorem items_updateCategory_request (env : Env) (w : Service) (requestPayload : JValue) :
    (Bus.updateCategory env w requestPayload).2.db.items = w.db.items := by
  unfold Bus.updateCategory
  split
  · rfl
  · next cate _ =>
    have hitems := @items_updateCategory env.fault w.db cate
    split
    · next db heq =>
      exact (congrArg (fun r : Bool × Db => r.2.items) heq).symm.trans hitems
    · next db heq =>
      have hdb : db.items = w.db.items :=
        (congrArg (fun r : Bool × Db => r.2.items) heq).symm.trans hitems
      dsimp only
      split <;> exact hdb

theorem lists_step (h : Lists env s apps) (event : SystemEvent) (hs : SoundEvent env event) :
    Lists env (s.step env.healthy event)
      (run Sam.announceApps apps (heard .sam s event)) := by
  have hsam := (sam_step env.healthy s event).trans h.sam
  obtain ⟨-, hheard, _, heq⟩ | ⟨handle, payload, he, hheard, heq⟩ | ⟨requestPayload, rfl, heq⟩ :=
    service_step env.healthy s event
  · rw [hheard]
    refine ⟨hsam, ?_, h.sound, ?_⟩
    · rw [heq]
      exact h.rows
    · rw [heq, sam_step]
      exact h.find
  · have hp := hs handle payload he
    rw [Env.healthy_reading] at heq
    obtain ⟨hrows, hsound⟩ := @Sam.appRows_onListApps s.sam _ _ (env.reading s.files) _
      (fun app happ => Sam.sound_reading.2 (hp app happ))
      (fun app happ => Sam.sound_reading.2 (h.sound app happ)) h.rows
    rw [hheard]
    refine ⟨hsam, ?_, fun app happ => Sam.sound_reading.1 (hsound app happ), ?_⟩
    · rw [heq]
      exact hrows
    · rw [heq, sam_step]
      exact Sam.find_apps_onListApps (env.reading s.files)
        (fun app happ => (hp app happ).named) h.find
  · refine ⟨hsam, ?_, h.sound, ?_⟩
    · rw [heq, Sam.appRows_congr (items_updateCategory_request _ _ _)]
      exact h.rows
    · rw [heq, sam_step]
      show ((Bus.updateCategory env.healthy s.service requestPayload).2.sets.cell
        s.sam.searchSet).categories.find _ = _
      rw [(Bus.registry_updateCategory env.healthy s.service requestPayload).1]
      exact h.find

theorem appRows_initial (env : Env) (db : Db) :
    Sam.appRows (initial env.healthy db).service.db = [] := by
  rw [service_initial, ← @Sam.appRows_cleared env db]
  generalize (Applications.removeFromDatabase env.healthy db).2 = db'
  dsimp only
  rw [Sam.appRows_congr (items_addSearchSet ..), newSet_eq]
  dsimp only
  rw [Sam.appRows_congr (items_addSearchSet ..), newSet_eq]
  rfl

theorem lists_initial (env : Env) (db : Db) : Lists env (initial env.healthy db) [] := by
  refine ⟨rfl, appRows_initial env db, fun _ h => (by cases h), ?_⟩
  show ((initial env.healthy db).service.set 0).categories.find _ = _
  rw [categories_initial, OrdMap.find_insert rfl, if_pos rfl]

/-- The keys of the applications are those of the visible ones, where none is announced again. -/
theorem indexed_step {d : Sam.Installed} (h : Sam.Indexed (Sam.appKeys s.service.db) d)
    (event : SystemEvent) (hs : SoundEvent env event)
    (hok : Each Sam.describe Sam.Announces d (heard .sam s event)) :
    Sam.Indexed (Sam.appKeys (s.step env.healthy event).service.db)
      (run Sam.describe d (heard .sam s event)) := by
  obtain ⟨-, hheard, _, heq⟩ | ⟨handle, payload, he, hheard, heq⟩ | ⟨requestPayload, rfl, heq⟩ :=
    service_step env.healthy s event
  · rw [heq, hheard]
    exact h
  · rw [hheard] at hok ⊢
    rw [heq, Env.healthy_reading]
    exact Sam.indexed_onListApps h (fun app happ => (hs handle payload he app happ).named) hok.1
  · rw [heq]
    unfold Sam.appKeys
    rw [Sam.appRows_congr (items_updateCategory_request _ _ _)]
    exact h

end System

/-! ## The answer -/

/-- The rows of a category. -/
def categoryRows (db : Db) (k : String) : List ItemRow := db.items.filter (·.category.val = k)

/-- The ones that match the key, which is searched as a prefix. -/
def matchingRows (env : Env) (db : Db) (key k : String) : List ItemRow :=
  (categoryRows db k).filter fun row => env.ftsMatch row (.ofCStr (key ++ "*"))

theorem search_of_category (env : Env) (db : Db) (key k : String) :
    (Database.search env db key).filter (·.category = k) =
      (matchingRows env db key k).map (Database.readItem env) := by
  unfold Database.search matchingRows categoryRows
  dsimp only
  rw [List.filter_map, List.filter_filter, List.filter_filter]
  refine congrArg _ (List.filter_congr fun row _ => ?_)
  have hcat : (Database.readItem env row).category = row.category.val := by
    unfold Database.readItem
    dsimp only
    split_ifs <;> rfl
  simp only [Function.comp_apply, hcat]
  rw [Bool.and_comm]

/-- What is accepted for a category: the items of its matching rows, if SAM has it and it is
enabled. -/
theorem Wired.accepted_of_category {env : Env} {w : Service} (h : Wired env w) (key k : String) :
    (w.accepted key).filter (fun e => e.2.category = k) =
      match ((w.set 0).categories.find k).filter fun p => (w.category p).enabled with
      | some p => (matchingRows env w.db key k).map fun row => (p, Database.readItem env row)
      | none => [] := by
  have hall : ∀ items : List SearchItem,
      ((items.map fun item => ((0 : SearchSetPtr), item)).filterMap fun e =>
        (w.acceptor e.1 e.2).map fun p => (p, e.2)).filter (fun e => e.2.category = k) =
      (items.filter (·.category = k)).flatMap fun item =>
        ((((w.set 0).categories.find k).filter fun p => (w.category p).enabled).map
          fun p => (p, item)).toList := by
    intro items
    induction items with
    | nil => rfl
    | cons item items ih =>
      rw [List.map_cons, List.filterMap_cons, List.filter_cons]
      by_cases hc : item.category = k
      · have hacc : w.acceptor 0 item =
            ((w.set 0).categories.find k).filter fun p => (w.category p).enabled := by
          unfold acceptor findCategoryIn
          rw [hc]
        rw [if_pos (by simpa using hc), List.flatMap_cons, ← ih]
        dsimp only
        rw [hacc]
        cases ((w.set 0).categories.find k).filter fun p => (w.category p).enabled with
        | none => rfl
        | some p =>
          rw [Option.map_some]
          dsimp only
          rw [List.filter_cons_of_pos (by simpa using hc)]
          rfl
      · rw [if_neg (by simpa using hc), ← ih]
        dsimp only
        cases w.acceptor 0 item with
        | none => rfl
        | some p => rw [Option.map_some, List.filter_cons_of_neg (by simpa using hc)]
  unfold accepted
  rw [h.returned, hall, search_of_category, List.flatMap_map]
  cases ((w.set 0).categories.find k).filter fun p => (w.category p).enabled with
  | none => simp
  | some p => exact List.map_eq_flatMap.symm

namespace Sam

/-- The intent of an application. -/
def appIntent (app : JValue) : Intent := {
  category := Applications.categoryId
  base := JValue.object.put "name" (.str (appId app))
  display := (Applications.item app).display }

/-- The row matches the key, which is searched as a prefix. -/
def found (env : Env) (key : String) (apps : List JValue) : List JValue :=
  apps.filter fun app => env.ftsMatch (appRow env app) (.ofCStr (key ++ "*"))

variable {env : Env} {w : Service} {apps : List JValue} {key : String} {app : JValue}

theorem readItem_appRow (h : Sound env app) (hnull : JsonText env .null) :
    Database.readItem env (appRow env app) = Applications.item app := by
  have hread := readItem_itemRow (Applications.item app)
    (show NulFree Applications.categoryId by decide) h.nulFree h.title h.display hnull
  refine hread.trans ?_
  split_ifs <;> rfl

theorem items_apps (hrows : appRows w.db = apps.map (appRow env))
    (hs : ∀ app ∈ apps, Sound env app) (hnull : JsonText env .null) :
    (matchingRows env w.db key Applications.categoryId).map (Database.readItem env) =
      (found env key apps).map Applications.item := by
  unfold matchingRows
  rw [show categoryRows w.db Applications.categoryId = apps.map (appRow env) from hrows,
    List.filter_map, List.map_map]
  unfold found
  refine List.map_congr_left fun app happ => ?_
  exact readItem_appRow (hs app (List.mem_filter.1 happ).1) hnull

theorem intentsOf_apps (hw : Wired env w)
    (hfind : (w.set 0).categories.find Applications.categoryId = some 0)
    (hrows : appRows w.db = apps.map (appRow env)) (hs : ∀ app ∈ apps, Sound env app)
    (hnull : JsonText env .null) :
    w.intentsOf key Applications.categoryId =
      if (w.category 0).enabled then (found env key apps).map appIntent else [] := by
  have hintent : ∀ item, w.intentOf (0, item) = Applications.generateIntent "" "" item := by
    intro item
    unfold intentOf Category.intent
    rw [hw.generateIntent]
    rfl
  unfold intentsOf
  rw [hw.accepted_of_category, hfind, Option.filter_some]
  split_ifs
  · dsimp only
    have hmap : ∀ rows : List ItemRow,
        (rows.map fun row => ((0 : CategoryPtr), Database.readItem env row)).filterMap w.intentOf =
          (rows.map (Database.readItem env)).filterMap (Applications.generateIntent "" "") := by
      intro rows
      rw [List.filterMap_map, List.filterMap_map]
      exact List.filterMap_congr fun row _ => hintent _
    rw [hmap, items_apps hrows hs hnull, List.filterMap_map]
    exact congrFun (List.filterMap_eq_map (f := appIntent)) (found env key apps)
  · rfl

end Sam

/-- **A search finds exactly the standing announcements whose rows match**, in their order, and its
answer has them iff the menu has `sam.apps` enabled: for every run in which the announced ids are
names of their own, and what is stored of an application is read back. Where no application is
announced again while it is visible, they are the visible applications, each once. -/
theorem apps_found (env : Env) (db : Db) (events : List SystemEvent) (key : String)
    (hs : ∀ event ∈ events, System.SoundEvent env event) (hnull : JsonText env .null)
    (hkey : 2 ≤ key.utf8ByteSize) :
    let w := (run (System.step env.healthy) (System.initial env.healthy db) events).service
    let apps := run Sam.announceApps [] (System.lists env.healthy db events)
    ∃ response, Bus.search w (JValue.object.put "key" (.str key)) = some response ∧
      response.get "results" = some (.arr ((Bus.answered w key).map fun row =>
        Bus.entry row.id.val (w.intentsOf key row.id.val))) ∧
      (∀ row ∈ Bus.answered w key, row.id.val = Applications.categoryId →
        w.intentsOf key row.id.val = (Sam.found env key apps).map Sam.appIntent) ∧
      ((∃ row ∈ Bus.answered w key, row.id.val = Applications.categoryId) ↔
        Sam.found env key apps ≠ [] ∧ ∃ row,
          w.db.category.lookup Applications.categoryId = some row ∧ row.enabled = true) ∧
      (Each Sam.describe Sam.Announces .empty (System.lists env.healthy db events) →
        Sam.Indexed (apps.map Sam.appId)
          (run Sam.describe .empty (System.lists env.healthy db events))) := by
  intro w apps
  have hproper : ∀ handle payload, .message handle payload ∈ events →
      ∀ app ∈ Sam.messageApps payload, Proper app := fun handle payload hmem app happ =>
    (hs _ hmem handle payload rfl app happ).proper
  have hlists : System.Lists env (run (System.step env.healthy) _ events) apps :=
    run_related (G := System.SoundEvent env) (R := System.Lists env)
      (fun s apps event hgood h => System.lists_step h event hgood)
      (System.lists_initial env db) hs
  have hw : Wired env w :=
    { System.wired_reachable env.healthy db events with }
  have hagrees : Agrees w := agrees_reachable env db events hproper
  have hnonnull := (intact_reachable env.healthy db events).nonNullIntents
  have hfind : (w.set 0).categories.find Applications.categoryId = some 0 := by
    have h := hlists.find
    rw [hlists.sam] at h
    exact h
  have hheld : w.Holds 0 Applications.categoryId 0 := by
    refine ⟨?_, hfind⟩
    rw [hw.values]
    exact List.mem_cons_of_mem _ (List.mem_singleton_self 0)
  obtain ⟨row, hrow, hen⟩ := hagrees.consistent 0 _ 0 hheld
  rw [hagrees.registered.holds_id hheld] at hrow
  have hintents := @Sam.intentsOf_apps _ _ _ key hw hfind hlists.rows hlists.sound hnull
  have hanswered : ∀ r, r ∈ Bus.answered w key ↔ r ∈ w.db.category.rows ∧ r.enabled = true ∧
      w.intentsOf key r.id.val ≠ [] := fun r => by
    rw [Bus.answered, List.mem_filter, Table.mem_orderBy, decide_eq_true_iff]
  have honly : ∀ r ∈ w.db.category.rows, r.id.val = Applications.categoryId → r = row :=
    fun r hr hid => Option.some.inj ((lookup_eq_some_iff.2 ⟨hr, hid⟩).symm.trans hrow)
  have henabled : row.enabled = true →
      w.intentsOf key Applications.categoryId = (Sam.found env key apps).map Sam.appIntent :=
    fun h => by rw [hintents, if_pos (hen ▸ h)]
  refine ⟨_, Bus.search_eq (by rfl) hkey hnonnull, ?_, fun r hr hid => ?_, ⟨?_, ?_⟩, fun hok => ?_⟩
  · rw [JValue.get_put rfl, if_neg (by decide), JValue.get_put rfl, if_pos rfl]
  · obtain ⟨hmem, henr, -⟩ := (hanswered r).1 hr
    rw [hid]
    exact henabled (honly r hmem hid ▸ henr)
  · rintro ⟨r, hr, hid⟩
    obtain ⟨hmem, henr, hne⟩ := (hanswered r).1 hr
    have hsame := honly r hmem hid
    rw [hid, henabled (hsame ▸ henr)] at hne
    exact ⟨fun h => hne (by rw [h]; rfl), row, hrow, hsame ▸ henr⟩
  · rintro ⟨hfound, r, hl, henr⟩
    obtain ⟨hmem, hid⟩ := lookup_eq_some_iff.1 hl
    refine ⟨r, (hanswered r).2 ⟨hmem, henr, ?_⟩, hid⟩
    rw [hid, henabled (honly r hmem hid ▸ henr)]
    exact fun h => hfound (List.map_eq_nil_iff.1 h)
  · have hkeys : Sam.appKeys w.db = apps.map Sam.appId := by
      unfold Sam.appKeys
      rw [show Sam.appRows w.db = _ from hlists.rows, List.map_map]
      exact List.map_congr_left fun app happ => Sam.key_appRow (hlists.sound app happ)
    have hinitial : Sam.Indexed (Sam.appKeys (System.initial env.healthy db).service.db)
        .empty := by
      unfold Sam.appKeys
      rw [System.appRows_initial]
      exact Sam.indexed_empty
    have hindexed : Sam.Indexed (Sam.appKeys w.db) _ :=
      run_related_each (R := fun (s : System) d => Sam.Indexed (Sam.appKeys s.service.db) d)
        (fun s d event hgood hannounces h => System.indexed_step h event hgood hannounces)
        hinitial hs hok
    rw [← hkeys]
    exact hindexed

def webTitle : JValue := .obj [("id", .str "a"), ("title", .str "Web")]

/-- The texts of one display object and of null, and the match of a single word with a prefix. -/
def Env.titles : Env := { Env.sample with
  stringify := fun
    | .null => "null"
    | _ => "\x7b\"icon\":\"/\",\"title\":\"Web\"\x7d"
  fromString := fun s => if s = "null" then .null else (Applications.item webTitle).display
  ftsMatch := fun row key => key.val.toList.dropLast.isPrefixOf row.text.val.toList }

def titleEvents : List SystemEvent :=
  [.serverStatus .sam (System.statusPayload true), .message 0 (Sam.listPayload [webTitle])]

theorem apps_found_sample :
    let w := (run (System.step Env.titles.healthy) (System.initial Env.titles.healthy .fresh)
      titleEvents).service
    let apps := run Sam.announceApps [] (System.lists Env.titles.healthy .fresh titleEvents)
    ∃ response, Bus.search w (JValue.object.put "key" (.str "We")) = some response ∧
      response.get "results" = some (.arr ((Bus.answered w "We").map fun row =>
        Bus.entry row.id.val (w.intentsOf "We" row.id.val))) ∧
      (∀ row ∈ Bus.answered w "We", row.id.val = Applications.categoryId →
        w.intentsOf "We" row.id.val = (Sam.found Env.titles "We" apps).map Sam.appIntent) ∧
      ((∃ row ∈ Bus.answered w "We", row.id.val = Applications.categoryId) ↔
        Sam.found Env.titles "We" apps ≠ [] ∧ ∃ row,
          w.db.category.lookup Applications.categoryId = some row ∧ row.enabled = true) ∧
      Sam.Indexed (apps.map Sam.appId)
        (run Sam.describe .empty (System.lists Env.titles.healthy .fresh titleEvents)) := by
  have hsound : ∀ event ∈ titleEvents, System.SoundEvent .titles event := by
    intro event hmem handle payload he app happ
    subst he
    simp only [titleEvents, List.mem_cons, SystemEvent.message.injEq, List.not_mem_nil, or_false,
      reduceCtorEq, false_or] at hmem
    obtain ⟨-, rfl⟩ := hmem
    rw [List.mem_singleton.1 happ]
    exact ⟨⟨by decide, by decide, by decide⟩, by decide, by decide, by decide, ⟨by decide, rfl⟩⟩
  obtain ⟨response, hsearch, hresults, hintents, hiff, hindexed⟩ :=
    apps_found .titles .fresh titleEvents "We" hsound ⟨by decide, rfl⟩ (by decide)
  exact ⟨response, hsearch, hresults, hintents, hiff, hindexed (by decide +kernel)⟩

/-- The application is found. -/
example : (Sam.found .titles "We" (run Sam.announceApps []
    (System.lists Env.titles.healthy .fresh titleEvents))).map Sam.appId = ["a"] := by
  decide +kernel

end UnifiedSearch
