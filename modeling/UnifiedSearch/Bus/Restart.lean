import UnifiedSearch.Base.CategoryRuns
import UnifiedSearch.Base.RegistrationRuns
import UnifiedSearch.Bus.Flags

/-!
# Starting again

The Category table is what a service leaves to the next one. An object that is
registered takes the rank of its row, so until the user asks for something the
objects know the ranks (`Synced`), and what a message writes back is what the
row says. The menu of the last service is then the beginning of the menu of
this one (`menu_survives`).
-/

namespace UnifiedSearch

open Lib Service CategoryTable Database

namespace CategoryTable

variable {t t' t'' : CategoryTable} {row : CategoryRow} {cate : Category}

/-- The menu of `t`, with nothing but new categories behind it. -/
structure Continues (t t' : CategoryTable) : Prop where
  exact : t'.RanksExact
  order : t.order <+: t'.order
  enabled : ∀ k r, t.find k = some r → ∃ r', t'.find k = some r' ∧ r'.enabled = r.enabled

namespace Continues

theorem refl (hx : t.RanksExact) : Continues t t :=
  ⟨hx, List.prefix_rfl, fun _ r h => ⟨r, h, rfl⟩⟩

theorem trans (h : Continues t t') (h' : Continues t' t'') : Continues t t'' := by
  refine ⟨h'.exact, h.order.trans h'.order, fun k r hr => ?_⟩
  obtain ⟨r', hr', hen⟩ := h.enabled k r hr
  obtain ⟨r'', hr'', hen'⟩ := h'.enabled k r' hr'
  exact ⟨r'', hr'', hen'.trans hen⟩

theorem insert (hx : t.RanksExact) (h : t.insert (newRow t cate) = some t') : Continues t t' := by
  obtain ⟨horder, hexact⟩ := ranksExact_insert hx h
  refine ⟨hexact, ⟨_, horder.symm⟩, fun k r hr => ⟨r, ?_, rfl⟩⟩
  have hnew : t.find (newRow t cate).id = none := by
    by_contra hne
    rw [Table.insert_eq_none_iff.2 hne] at h
    cases h
  have hne : (newRow t cate).id ≠ k := fun e => by
    rw [← e, hnew] at hr
    cases hr
  rw [Table.find_insert h, if_neg hne, hr]

end Continues

/-- A write keeps the menu: the flags, and the ranks of the enabled rows. -/
def Harmless (t : CategoryTable) (g : CategoryRow → CategoryRow) : Prop :=
  ∀ r ∈ t.rows, (g r).enabled = r.enabled ∧ (r.enabled = true → (g r).rank = r.rank)

theorem Harmless.continues {g : CategoryRow → CategoryRow} {hg : ∀ r, (g r).id = r.id}
    (hx : t.RanksExact) (h : t.Harmless g) : Continues t (t.mapRows g hg) := by
  have hfind (k : Text) : (t.mapRows g hg).find k = (t.find k).map g := Table.find_mapRows g hg
  have hranked : Ranked t.order (rankOf (t.mapRows g hg)) := by
    refine (ranksExact_iff.1 hx).congr fun k hk => ?_
    obtain ⟨r, hr, hen⟩ := mem_order.1 hk
    have hg' : (t.mapRows g hg).find k = some (g r) := by rw [hfind, hr]; rfl
    rw [rankOf_of_find hg', rankOf_of_find hr]
    exact (h r (Table.mem_of_find hr)).2 hen
  have hmem (k : Text) : k ∈ t.order ↔ ∃ r, (t.mapRows g hg).find k = some r ∧
      r.enabled = true := by
    rw [mem_order, hfind]
    constructor
    · rintro ⟨r, hr, hen⟩
      exact ⟨g r, by rw [hr]; rfl, by rw [(h r (Table.mem_of_find hr)).1]; exact hen⟩
    · rintro ⟨r', hr', hen⟩
      obtain ⟨r, hr, rfl⟩ := Option.map_eq_some_iff.1 hr'
      exact ⟨r, hr, by rw [← (h r (Table.mem_of_find hr)).1]; exact hen⟩
  obtain ⟨horder, hexact⟩ := order_eq hranked hmem
  refine ⟨hexact, ⟨[], by rw [List.append_nil, horder]⟩, fun k r hr => ⟨g r, ?_, ?_⟩⟩
  · rw [hfind, hr]
    rfl
  · exact (h r (Table.mem_of_find hr)).1

/-- The row of an enabled category says its rank, so it is in sync. -/
theorem inSync_of_rank (hx : t.RanksExact) (hrow : row ∈ t.rows) (hen : cate.enabled = row.enabled)
    (he : row.enabled = true) (hrank : cate.rank = row.rank) : InSync t row cate := by
  obtain ⟨h1, h2⟩ := (hx.2 row.rank).1 (List.mem_map_of_mem (List.mem_filter.2 ⟨hrow, he⟩))
  refine ⟨hen, ?_⟩
  rw [hrank]
  omega

/-- Writing a category back that has the flag of its row, and its rank where that is enabled. -/
theorem harmless_updateRow (hx : t.RanksExact) (h : t.lookup cate.id = some row)
    (hen : cate.enabled = row.enabled) (hrank : row.enabled = true → cate.rank = row.rank) :
    t.Harmless (t.updateRow row cate) := by
  have hrow : row ∈ t.rows := (lookup_eq_some_iff.1 h).1
  intro r hr
  have hsame : r.id = row.id → r = row := fun hid => by
    have h1 := Table.find_of_mem hr
    rw [hid, find_of_lookup h] at h1
    exact (Option.some.inj h1).symm
  refine ⟨?_, fun he => ?_⟩
  · rw [updateRow_enabled]
    split_ifs with hid
    · rw [hsame hid, hen]
    · rfl
  · unfold updateRow
    split_ifs with hid
    · obtain rfl := hsame hid
      show t.newRank r cate = r.rank
      rw [newRank_of_enabled hen]
      exact (inSync_of_rank hx hrow hen he (hrank he)).2
    · show t.shiftedRank row cate r = r.rank
      cases hre : row.enabled with
      | true => exact shiftedRank_of_inSync (inSync_of_rank hx hrow hen hre (hrank hre)) r
      | false =>
        -- the flag does not change and is not set, so nothing is shifted
        have hshift : t.shift row cate = none := by
          unfold shift
          rw [hen, hre]
          simp
        unfold shiftedRank
        rw [hshift]

end CategoryTable

/-! ## What the objects know -/

namespace Service

variable {env : Env} {w w' : Service} {s t : SearchSetPtr} {p q c : CategoryPtr} {k : String}

/-- The object has a row, and its rank where that is enabled. -/
def RankKnown (w : Service) (p : CategoryPtr) : Prop :=
  ∃ row, w.db.category.lookup (w.category p).id = some row ∧
    (row.enabled = true → (w.category p).rank = row.rank)

def Synced (w : Service) : Prop := ∀ s k p, w.Holds s k p → w.RankKnown p

theorem rankKnown_adjust_self (env : Env) (hn : NulFree (w.category p).id) :
    (w.adjustOrCreateCategory env.healthy p).RankKnown p := by
  obtain ⟨row, hrow, hrank, -⟩ := adjusted_self env w p
  have hid : ((w.adjustOrCreateCategory env.healthy p).category p).id = (w.category p).id :=
    (adjusted env w p).id
  refine ⟨row, ?_, fun _ => hrank⟩
  rw [hid, lookup_eq_find hn]
  exact hrow

theorem rankKnown_adjust (env : Env) (q : CategoryPtr) (h : w.RankKnown p) :
    (w.adjustOrCreateCategory env.healthy q).RankKnown p := by
  obtain ⟨row, hrow, hrank⟩ := h
  by_cases hp : p = q
  · subst hp
    exact rankKnown_adjust_self env (nulFree_of_lookup hrow)
  · have ha := adjusted env w q
    unfold RankKnown
    rw [ha.others p hp]
    exact ⟨row, lookup_mono ha.kept hrow, hrank⟩

theorem continues_adjust (env : Env) (w : Service) (p : CategoryPtr)
    (hx : w.db.category.RanksExact) :
    Continues w.db.category (w.adjustOrCreateCategory env.healthy p).db.category := by
  cases h : w.db.category.find (.ofCStr (w.category p).id) with
  | some row =>
    rw [adjustOrCreateCategory_known _ h]
    exact .refl hx
  | none =>
    obtain ⟨t, ht, heq⟩ := adjustOrCreateCategory_unknown env h
    rw [heq]
    exact .insert hx ht

/-- What registering a list of objects does. -/
structure Learns (w w' : Service) (l : List CategoryPtr) : Prop where
  continues : Continues w.db.category w'.db.category
  kept : ∀ p, w.RankKnown p → w'.RankKnown p
  learned : ∀ p ∈ l, NulFree (w.category p).id → w'.RankKnown p

theorem learns (env : Env) (l : List CategoryPtr) (hx : w.db.category.RanksExact) :
    Learns w (l.foldl (adjustOrCreateCategory env.healthy) w) l := by
  induction l generalizing w with
  | nil => exact ⟨.refl hx, fun _ h => h, fun p hp => by cases hp⟩
  | cons q l ih =>
    have hq := continues_adjust env w q hx
    have hl := ih hq.exact
    refine ⟨hq.trans hl.continues, fun p h => hl.kept p (rankKnown_adjust env q h),
      fun p hp hn => ?_⟩
    rcases List.mem_cons.1 hp with rfl | hp
    · exact hl.kept p (rankKnown_adjust_self env hn)
    · refine hl.learned p hp ?_
      rw [(adjusted env w q).category_id]
      exact hn

theorem learns_addSearchSet (env : Env) (hfree : w.searchSets.find (w.set s).id = none)
    (hx : w.db.category.RanksExact) :
    Learns w (w.addSearchSet env.healthy s).2 (w.set s).categories.values := by
  have h : Learns (w.attach s) _ (w.set s).categories.values := learns env _ hx
  rw [addSearchSet_eq hfree]
  exact { h with }

theorem synced_addSearchSet (env : Env) (hfree : w.searchSets.find (w.set s).id = none)
    (hx : w.db.category.RanksExact) (hr : w.Registered) (hlt : s < w.sets.next)
    (hn : ∀ p ∈ (w.set s).categories.values, NulFree (w.category p).id) (h : w.Synced) :
    (w.addSearchSet env.healthy s).2.Synced := by
  have hl := learns_addSearchSet env hfree hx
  have hreg := registers env (w.set s).categories.values (registered_attach hfree hr hlt).backed
  intro t k p hp
  have hheld : (t = s ∨ t ∈ w.searchSets.values) ∧ (w.set t).categories.find k = some p := by
    rw [addSearchSet_eq hfree] at hp
    exact (holds_attach hfree).1 ((holds_congr hreg.sets hreg.searchSets).1 hp)
  rcases hheld with ⟨rfl | ht, hf⟩
  · have hmem := OrdMap.mem_values_iff.2 ⟨k, hf⟩
    exact hl.learned p hmem (hn p hmem)
  · exact hl.kept p (h t k p ⟨ht, hf⟩)

theorem addCategory_synced (env : Env) (s : SearchSetPtr) (hr : w.Registered)
    (hx : w.db.category.RanksExact) (hn : s ∈ w.searchSets.values → NulFree (w.category c).id)
    (h : w.Synced) :
    (w.addCategory env.healthy s c).2.Synced ∧
      Continues w.db.category (w.addCategory env.healthy s c).2.db.category := by
  cases hf : (w.set s).categories.find (w.category c).id with
  | some q =>
    rw [addCategory_refused (by rw [hf]; rfl)]
    exact ⟨h, .refl hx⟩
  | none =>
    rw [addCategory_eq hf]
    dsimp only
    cases hcl : (w.set s).client with
    | false =>
      rw [if_neg (by decide)]
      refine ⟨fun t k p hp => ?_, .refl hx⟩
      rcases holds_insert hf hp with ⟨rfl, -⟩ | hp'
      · rw [(hr.attached _ hp.1).2] at hcl
        cases hcl
      · exact h t k p hp'
    | true =>
      rw [if_pos rfl]
      refine ⟨fun t k p hp => ?_, continues_adjust env _ c hx⟩
      have ha := adjusted env (w.modifySet s fun set => { set with
        categories := set.categories.insert (w.category c).id c }) c
      rcases holds_insert hf ((holds_congr ha.sets ha.searchSets).1 hp) with ⟨-, rfl⟩ | hp'
      · exact rankKnown_adjust_self env (hn (hr.client s hcl))
      · exact rankKnown_adjust env c (h t k p hp')

theorem synced_newCategory (hr : w.Registered) (h : w.Synced) (cate : Category) :
    { w with categories := (w.categories.alloc cate).2 }.Synced := by
  intro s k p hp
  have hlt := (hr.keys s k p hp.2).2
  have hsame : { w with categories := (w.categories.alloc cate).2 }.category p = w.category p :=
    Heap.cell_alloc_of_lt hlt
  unfold RankKnown
  rw [hsame]
  exact h s k p hp

theorem synced_newSearchSet (hr : w.Registered) (h : w.Synced) (set : SearchSet) :
    { w with sets := (w.sets.alloc set).2 }.Synced := by
  rintro s k p ⟨hs, hp⟩
  rw [set_newSearchSet set (hr.attached s hs).1] at hp
  exact h s k p ⟨hs, hp⟩

theorem synced_removeCategory (env : Env) (k : String) (h : w.Synced) :
    (w.removeCategory env s k).2.Synced := by
  rw [removeCategory_snd]
  split_ifs
  · exact h
  · rintro t k' p ⟨ht, hp⟩
    rw [find_erase_set] at hp
    split_ifs at hp
    exact h t k' p ⟨ht, hp⟩

theorem synced_attachNew (env : Env) (cate : Category) (id : String)
    (source : Db → String → List SearchItem) (hr : w.Registered) (hc : w.Consistent)
    (hen : cate.enabled = true) (hnul : NulFree cate.id) (hfree : w.searchSets.find id = none)
    (hx : w.db.category.RanksExact) (h : w.Synced) :
    let w' := ((w.newSet env.healthy cate id source).addSearchSet env.healthy w.sets.next).2
    w'.Synced ∧ Continues w.db.category w'.db.category := by
  intro w'
  have hr1 := registered_newCategory hr cate hen
  have hr2 := registered_newSearchSet hr1 id source
  have hs2 := synced_newSearchSet hr1 (synced_newCategory hr h cate) { id, source }
  have hs3 : (w.newSet env.healthy cate id source).Synced :=
    (addCategory_synced env w.sets.next hr2 hx
      (fun hs => absurd (hr.attached _ hs).1 (lt_irrefl _)) hs2).1
  have hr3 := (@registered_newSet w cate id source env hr hc hen).1
  have hnew := @find_newSet env.healthy w cate id source hfree
  have hdb : (w.newSet env.healthy cate id source).db = w.db := by rw [newSet_eq]
  have hx3 : (w.newSet env.healthy cate id source).db.category.RanksExact := by
    rw [hdb]
    exact hx
  have hlt : w.sets.next < (w.newSet env.healthy cate id source).sets.next := by
    rw [newSet_eq]
    exact Nat.lt_succ_self _
  have hcont := (learns_addSearchSet env hnew hx3).continues
  rw [hdb] at hcont
  refine ⟨synced_addSearchSet env hnew hx3 hr3 hlt (fun p hp => ?_) hs3, hcont⟩
  rw [category_of_newSet hp]
  exact hnul

end Service

/-! ## Messages -/

/-- The service goes on with the menu of `t`. -/
structure GoesOn (t : CategoryTable) (w : Service) : Prop where
  synced : w.Synced
  continues : Continues t w.db.category

namespace GoesOn

variable {t : CategoryTable} {env : Env} {w : Service} {app : JValue} {s : SearchSetPtr}
  {p : CategoryPtr}

theorem with_db (h : GoesOn t w) {db : Db} (hcat : db.category = w.db.category) :
    GoesOn t { w with db } := by
  refine ⟨fun s k p hp => ?_, hcat ▸ h.continues⟩
  have hp : w.Holds s k p := hp
  obtain ⟨row, hrow, hrank⟩ := h.synced s k p hp
  exact ⟨row, by rw [hcat]; exact hrow, hrank⟩

theorem refresh (h : GoesOn t w) (ha : Agrees w) (env : Env) (app : JValue)
    (hp : w.Holds s (Sam.appId app) p) : GoesOn t (Sam.refresh env.healthy w p app) := by
  have hobj (q : CategoryPtr) :
      ((Sam.refresh env.healthy w p app).category q).id = (w.category q).id ∧
        ((Sam.refresh env.healthy w p app).category q).rank = (w.category q).rank := by
    have hcell : (Sam.refresh env.healthy w p app).category q =
        if q = p then { w.category p with name := Sam.appTitle app } else w.category q := rfl
    rw [hcell]
    split_ifs with hq
    · rw [hq]
      exact ⟨rfl, rfl⟩
    · exact ⟨rfl, rfl⟩
  have hholds {s : SearchSetPtr} {k : String} {q : CategoryPtr}
      (hq : (Sam.refresh env.healthy w p app).Holds s k q) : w.RankKnown q := h.synced s k q hq
  obtain ⟨row, hrow, hen⟩ := ha.consistent s _ p hp
  obtain ⟨row', hrow', hrank⟩ := h.synced s _ p hp
  obtain rfl : row = row' := Option.some.inj (hrow.symm.trans hrow')
  obtain ⟨-, heq⟩ | ⟨row', clock, hl, -, heq⟩ :=
    updateCategory_cases w.db { w.category p with name := Sam.appTitle app }
  · have hdb : (Sam.refresh env.healthy w p app).db = w.db := congrArg Prod.snd heq
    refine ⟨fun s k q hq => ?_, by rw [hdb]; exact h.continues⟩
    unfold RankKnown
    rw [hdb, (hobj q).1, (hobj q).2]
    exact hholds hq
  · obtain rfl : row = row' := Option.some.inj (hrow.symm.trans hl)
    have hdb : (Sam.refresh env.healthy w p app).db.category =
        w.db.category.updated row { w.category p with name := Sam.appTitle app } :=
      congrArg (fun r : Bool × Db => r.2.category) heq
    have hharm := harmless_updateRow h.continues.exact hl hen.symm hrank
    refine ⟨fun s k q hq => ?_, ?_⟩
    · obtain ⟨r, hr, hrank⟩ := hholds hq
      obtain ⟨henr, hrankr⟩ := hharm r (lookup_eq_some_iff.1 hr).1
      unfold RankKnown
      rw [hdb, (hobj q).1, (hobj q).2]
      refine ⟨_, lookup_updated.trans (by rw [hr]; rfl), fun he => ?_⟩
      have he : r.enabled = true := henr.symm.trans he
      rw [hrank he, hrankr he]
    · rw [hdb]
      exact h.continues.trans (hharm.continues h.continues.exact)

theorem addAppContents (h : GoesOn t w) (ha : Agrees w) (env : Env) {sam : Sam} (hp : Proper app)
    (hc : Sam.isContent app = true) : GoesOn t (Sam.addAppContents env.healthy sam w app).2 := by
  obtain ⟨hn, -⟩ := hp.content hc
  have hcat : (AppContents.make env.healthy w (Sam.appId app)
      (Sam.appTitle app) app).2.db.category = w.db.category :=
    AppContents.category_make env w _ app fun hmem => hp.quote (Text.mem_ofCStr hmem)
  have hmade : Agrees (AppContents.make env.healthy w (Sam.appId app) (Sam.appTitle app) app).2 :=
    (ha.with_db hcat).newCategory rfl
  have hsynced : (AppContents.make env.healthy w (Sam.appId app) (Sam.appTitle app) app).2.Synced :=
    synced_newCategory (ha.with_db hcat).registered (h.with_db hcat).synced _
  obtain ⟨hptr, -, -, hid⟩ :=
    AppContents.make_frame env.healthy w (Sam.appId app) (Sam.appTitle app) app
  rw [← hptr] at hid
  rw [Sam.addAppContents_content hc]
  generalize AppContents.make env.healthy w (Sam.appId app) (Sam.appTitle app) app = made at *
  have hx : made.2.db.category.RanksExact := by rw [hcat]; exact h.continues.exact
  obtain ⟨hs, hcont⟩ := addCategory_synced env sam.searchSet hmade.registered hx
    (fun _ => hid ▸ hn) hsynced
  refine ⟨hs, h.continues.trans ?_⟩
  rw [← hcat]
  exact hcont

theorem onListApps (h : GoesOn t w) (ha : Agrees w) (env : Env) {sam : Sam}
    (hsam : sam.searchSet = 0) {payload : JValue}
    (hp : ∀ app ∈ Sam.messageApps payload, Proper app) :
    GoesOn t (Sam.onListApps env.healthy sam w payload) := by
  have hk := Agrees.kept env hsam hp
  have hboth : Sam.Kept env.healthy sam (Sam.messageApps payload)
      fun w => Agrees w ∧ GoesOn t w := by
    refine ⟨?_, ?_, ?_, ?_, ?_⟩
    · intro w h
      refine ⟨hk.clear w h.1, h.2.with_db ?_⟩
      rw [Sam.removeFromDatabase_eq]
    · exact fun w app happ h => ⟨hk.item w app happ h.1,
        h.2.with_db (Sam.addToDatabase_category env.healthy w.db app)⟩
    · exact fun w app happ hc h => ⟨hk.content w app happ hc h.1,
        h.2.addAppContents h.1 env (hp app happ) hc⟩
    · intro w p app happ hf h
      refine ⟨hk.refresh w p app happ hf h.1, h.2.refresh h.1 env app (s := 0) ⟨?_, hsam ▸ hf⟩⟩
      rw [h.1.apart.values]
      exact List.mem_cons_of_mem _ (List.mem_singleton_self 0)
    · intro w app happ h
      have hdb : GoesOn t { w with
          db := (Applications.removeFromDatabase env.healthy w.db (Sam.appId app)).2 } :=
        h.2.with_db (category_removeFromDatabase env w.db (hp app happ).quote)
      refine ⟨hk.drop w app happ h.1, ?_, ?_⟩
      · exact synced_removeCategory env.healthy _ hdb.synced
      · unfold Sam.dropApp
        rw [db_removeCategory]
        exact hdb.continues
  exact (Sam.onListApps_induct hboth ⟨ha, h⟩).2

end GoesOn

/-! ## Runs -/

namespace System

theorem goesOn_initial (env : Env) (db : Db) (hx : db.category.RanksExact) :
    GoesOn db.category (initial env.healthy db).service := by
  have hcat : (Applications.removeFromDatabase env.healthy db).2.category = db.category := by
    rw [Sam.removeFromDatabase_eq]
  rw [service_initial]
  generalize (Applications.removeFromDatabase env.healthy db).2 = db' at hcat ⊢
  have hr := registered_start db' ""
  have hc : (start db' "").Consistent := fun _ _ _ h => by cases h.1
  have hx' : (start db' "").db.category.RanksExact := hcat ▸ hx
  obtain ⟨hs1, hcont1⟩ := synced_attachNew env samCategory "SAM" (Database.search env.healthy) hr hc
    rfl (by decide) rfl hx' fun _ _ _ h => by cases h.1
  obtain ⟨hr1, hc1⟩ := @consistent_attachNew (start db' "") samCategory "SAM"
    (Database.search env.healthy) env hr hc rfl (by decide) rfl
  have hval := (@registry_attachNew (start db' "") samCategory "SAM" (Database.search env.healthy)
    env.healthy rfl 0).1
  have hfree : ((OrdMap.empty : OrdMap String SearchSetPtr).insert "SAM" 0).find "Media" = none :=
    by decide
  obtain ⟨hs2, hcont2⟩ := synced_attachNew env audioCategory "Media" (fun _ _ => []) hr1 hc1 rfl
    (by decide) (by rw [hval]; exact hfree) hcont1.exact hs1
  have hgo : GoesOn db'.category _ := ⟨hs2, hcont1.trans hcont2⟩
  rw [hcat] at hgo
  exact hgo

/-- Any event but a request, with proper apps where it is a message. -/
def Quiet (event : SystemEvent) : Prop :=
  (∀ requestPayload, event ≠ .updateCategory requestPayload) ∧
    ∀ handle payload, event = .message handle payload →
      ∀ app ∈ Sam.messageApps payload, Proper app

theorem goesOn_step {t : CategoryTable} {env : Env} {s : System} (h : GoesOn t s.service)
    (ha : Agrees s.service) (hsam : s.sam = ⟨0, 0⟩) (event : SystemEvent) (hq : Quiet event) :
    GoesOn t (s.step env.healthy event).service := by
  obtain ⟨-, -, _, heq⟩ | ⟨handle, payload, he, -, heq⟩ | ⟨requestPayload, he, -⟩ :=
    service_step env.healthy s event
  · rw [heq]
    exact { h with }
  · rw [heq]
    exact h.onListApps ha (env.reading s.files) (congrArg Sam.searchSet hsam)
      (hq.2 handle payload he)
  · exact (hq.1 requestPayload he).elim

theorem goesOn_run (env : Env) (db : Db) (events : List SystemEvent)
    (hx : db.category.RanksExact) (hq : ∀ event ∈ events, Quiet event) :
    GoesOn db.category (run (step env.healthy) (initial env.healthy db) events).service :=
  (run_invariant_of
    (P := fun s : System => GoesOn db.category s.service ∧ Agrees s.service ∧ s.sam = ⟨0, 0⟩)
    (fun s event hgood h => ⟨goesOn_step h.1 h.2.1 h.2.2 event hgood,
      agrees_step h.2.1 h.2.2 event hgood.2, (sam_step _ s event).trans h.2.2⟩)
    ⟨goesOn_initial env db hx, agrees_initial env db, rfl⟩ hq).1

end System

/-- **The menu survives a restart.** From a database whose enabled ranks are exact, in every run of
the service without a request, the enabled categories of the last service come first, in their
order, the ranks are exact again, and no known category changes its flag. -/
theorem menu_survives (env : Env) (db : Db) (events : List SystemEvent)
    (hx : db.category.RanksExact) (hq : ∀ event ∈ events, System.Quiet event) :
    let db' := (run (System.step env.healthy) (System.initial env.healthy db) events).service.db
    (enabledCategories db).map (·.id) <+: (enabledCategories db').map (·.id) ∧
      (enabledCategories db').map (·.rank) =
        (List.range (enabledCategories db').length).map (fun i : ℕ => (i : ℤ) + 1) ∧
      ∀ category ∈ getCategories db, ∃ category' ∈ getCategories db',
        category'.id = category.id ∧ category'.enabled = category.enabled := by
  intro db'
  have h : Continues db.category db'.category :=
    (System.goesOn_run env db events hx hq).continues
  refine ⟨?_, map_rank_enabledCategories h.exact, fun category hmem => ?_⟩
  · rw [map_id_enabledCategories, map_id_enabledCategories]
    exact h.order.map _
  · unfold getCategories at hmem ⊢
    rw [rows_cateRank] at hmem ⊢
    obtain ⟨row, hrow, rfl⟩ := List.mem_map.1 hmem
    obtain ⟨row', hrow', hen⟩ := h.enabled row.id row (Table.find_of_mem (Table.mem_orderBy.1 hrow))
    refine ⟨_, List.mem_map_of_mem (Table.mem_orderBy.2 (Table.mem_of_find hrow')), ?_, hen⟩
    exact congrArg Text.val (Table.key_of_find hrow')

/-- The user has put `b` first and disabled `c`; the next service lists all three, and a new one. -/
def lastTable : CategoryTable :=
  ⟨[⟨.ofCStr "sam.apps", .ofCStr "Applications", 2, true⟩, ⟨.ofCStr "b", .ofCStr "", 1, true⟩,
    ⟨.ofCStr "c", .ofCStr "", 999999, false⟩], by decide⟩

def restartEvents : List SystemEvent := [
  .serverStatus .sam (System.statusPayload true),
  .message 0 (Sam.listPayload [Sam.webApp "a", Sam.webApp "b", Sam.webApp "c"]),
  .message 0 (Sam.listPayload [Sam.webApp "c", Sam.webApp "b"])]

theorem menu_survives_sample :
    let db' := (run (System.step Env.sample.healthy)
      (System.initial Env.sample.healthy ⟨⟨lastTable, []⟩, 0⟩) restartEvents).service.db
    ["b", "sam.apps"] <+: (enabledCategories db').map (·.id) := by
  refine (menu_survives .sample ⟨⟨lastTable, []⟩, 0⟩ restartEvents (by decide)
    fun event hmem => ⟨fun requestPayload he => ?_, fun handle payload he app happ => ?_⟩).1
  · subst he
    simp [restartEvents] at hmem
  · have hid : app = Sam.webApp "a" ∨ app = Sam.webApp "b" ∨ app = Sam.webApp "c" := by
      subst he
      simp only [restartEvents, List.mem_cons, SystemEvent.message.injEq, List.not_mem_nil,
        or_false, reduceCtorEq, false_or] at hmem
      rcases hmem with ⟨rfl, rfl⟩ | ⟨rfl, rfl⟩
      · exact List.mem_cons.1 happ |>.imp id fun h => by simpa using h
      · rcases List.mem_cons.1 happ with rfl | happ
        · exact .inr (.inr rfl)
        · exact .inr (.inl (List.mem_singleton.1 happ))
    rcases hid with rfl | rfl | rfl
    all_goals exact ⟨by decide, fun _ => ⟨by decide, by decide⟩⟩

end UnifiedSearch
