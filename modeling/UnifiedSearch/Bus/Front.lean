import UnifiedSearch.Bus.ContentSearch
import UnifiedSearch.Bus.Menu

/-!
# The front of the service

What a user sees of the service follows from what it has heard: the menu, the
announcements of applications that stand, the content that was indexed last, and
the language. A `Front` is these four and nothing of the database or of the
objects.
`search_refines` is that every answer to a search is the one of the front.
-/

namespace UnifiedSearch

open Lib Service CategoryTable Database

/-! ## The front -/

inductive FrontEvent where
  /-- A message of the application manager, with the files it is handled over. -/
  | apps (files : Files) (payload : JValue)
  | locale (payload : JValue)
  | updateCategory (requestPayload : JValue)

structure Front where
  board : Board
  library : Sam.Library := { known := (· = Applications.categoryId) }
  /-- The announcements of visible applications that stand. -/
  apps : List JValue := []
  settings : SettingService := {}

namespace Front

variable (env : Env) (f : Front)

def step : FrontEvent → Front
  | .apps files payload => { f with
    board := f.board.hear payload
    library := f.library.announce (files, payload)
    apps := Sam.announceApps f.apps payload }
  | .locale payload => { f with settings := (f.settings.onLocaleChanged payload).2 }
  | .updateCategory requestPayload => { f with board := f.board.request requestPayload }

def Allows : FrontEvent → Prop
  | .updateCategory requestPayload => f.board.Allows (.updateCategory requestPayload)
  | _ => True

instance (event : FrontEvent) : Decidable (f.Allows event) :=
  match event with
  | .apps _ _ => inferInstanceAs (Decidable True)
  | .locale _ => inferInstanceAs (Decidable True)
  | .updateCategory requestPayload =>
    inferInstanceAs (Decidable (f.board.Allows (.updateCategory requestPayload)))

/-- The content under an id that matches the key, as it is read back. -/
def content (key k : String) : List SearchItem :=
  (((f.library.items env k).map (itemRow env)).filter fun row =>
    env.ftsMatch row (.ofCStr (key ++ "*"))).map (readItem env)

/-- The intents under an id. -/
def intents (key k : String) : List Intent :=
  if k = Applications.categoryId then (Sam.found env key f.apps).map Sam.appIntent
  else if f.library.known k then
    (f.content env key k).filterMap (AppContents.generateIntent k f.settings.language "")
  else []

/-- The `results` array: what is shown and has something to show. -/
def results (key : String) : List JValue :=
  (f.board.menu.shown.filter fun k => f.intents env key k ≠ []).map fun k =>
    Bus.entry k (f.intents env key k)

def search (requestPayload : JValue) : JValue :=
  match JValueUtil.getString requestPayload "key" "" with
  | (false, _) => Bus.failed 101 "The 'key' isn't specified."
  | (true, key) =>
    if key = "" ∨ key.utf8ByteSize < 2 then
      Bus.failed 102 "The 'key' is empty or too short. (needs >= 2 bytes)"
    else (JValue.object.put "results" (.arr (f.results env key))).put "returnValue" (.bool true)

/-- The front of a service that starts on a menu. -/
def restart (m : Menu) : Front := { board := .restart m }

/-- The front of a service that starts over a database. -/
def start (db : Db) : Front := .restart db.category.menu

end Front

/-! ## Content -/

/-- The content categories of SAM make their intents alike. -/
def Content (w : Service) : Prop := ∀ k p, (w.set 0).categories.find k = some p →
  k ≠ Applications.categoryId → (w.category p).generateIntent = AppContents.generateIntent k

namespace Content

variable {env : Env} {w w' : Service} {sam : Sam} {app : JValue}

theorem mono (h : Content w) (hr : w.Registered) (hf : Fixed w w')
    (hfind : ∀ k p, (w'.set 0).categories.find k = some p →
      (w.set 0).categories.find k = some p) : Content w' := by
  intro k p hp hk
  have hold := hfind k p hp
  rw [hf.generateIntent p (hr.keys 0 k p hold).2]
  exact h k p hold hk

theorem with_db (h : Content w) (db : Db) : Content { w with db } := h

theorem addAppContents (h : Content w) (ha : Agrees w) (env : Env) (hsam : sam.searchSet = 0)
    (hc : Sam.isContent app = true) : Content (Sam.addAppContents env sam w app).2 := by
  obtain ⟨hptr, -, -, hid⟩ := AppContents.make_frame env w (Sam.appId app) (Sam.appTitle app) app
  have hmake := fixed_make env w (Sam.appId app) (Sam.appTitle app) app
  have hset := AppContents.set_make env w (Sam.appId app) (Sam.appTitle app) app 0
  have hgen : ((AppContents.make env w (Sam.appId app) (Sam.appTitle app) app).2.category
      w.categories.next).generateIntent = AppContents.generateIntent (Sam.appId app) :=
    congrArg Category.generateIntent (if_pos rfl)
  have hlt : w.categories.next <
      (AppContents.make env w (Sam.appId app) (Sam.appTitle app) app).2.categories.next :=
    Nat.lt_succ_self _
  rw [← hptr] at hid hgen hlt
  rw [Sam.addAppContents_content hc, hsam]
  generalize AppContents.make env w (Sam.appId app) (Sam.appTitle app) app = made at *
  have hadd := fixed_addCategory env made.2 0 made.1
  intro k p hp hk
  cases hf : (made.2.set 0).categories.find (made.2.category made.1).id with
  | some q =>
    rw [addCategory_refused (by rw [hf]; rfl)] at hp ⊢
    rw [hset] at hp
    rw [hmake.generateIntent p (ha.registered.keys 0 k p hp).2]
    exact h k p hp hk
  | none =>
    rw [find_addCategory hf, hset] at hp
    split_ifs at hp with he
    · obtain rfl := Option.some.inj hp
      rw [hadd.generateIntent _ hlt, hgen, he, hid]
    · have hold := (ha.registered.keys 0 k p hp).2
      rw [hadd.generateIntent p (lt_of_lt_of_le hold hmake.next), hmake.generateIntent p hold]
      exact h k p hp hk

theorem removeCategory (h : Content w) (hr : w.Registered) (env : Env) (id : String) :
    Content (w.removeCategory env 0 id).2 := by
  refine h.mono hr (fixed_removeCategory env w 0 id) fun k p hp => ?_
  rw [removeCategory_snd] at hp
  split_ifs at hp
  · exact hp
  · rw [find_erase_set] at hp
    split_ifs at hp
    exact hp

theorem onListApps (h : Content w) (ha : Agrees w) (env : Env) (hsam : sam.searchSet = 0)
    {payload : JValue} (hp : ∀ app ∈ Sam.messageApps payload, Proper app) :
    Content (Sam.onListApps env.healthy sam w payload) := by
  have hk := Agrees.kept env hsam hp
  refine (Sam.onListApps_induct (P := fun w => Agrees w ∧ Content w) ⟨?_, ?_, ?_, ?_, ?_⟩
    ⟨ha, h⟩).2
  · exact fun w h => ⟨hk.clear w h.1, h.2⟩
  · exact fun w app happ h => ⟨hk.item w app happ h.1, h.2⟩
  · exact fun w app happ hc h => ⟨hk.content w app happ hc h.1,
      h.2.addAppContents h.1 env.healthy hsam hc⟩
  · intro w p app happ hf h
    have hfixed : Fixed w (w.setCategoryName p (Sam.appTitle app)) := fixed_write rfl
    exact ⟨hk.refresh w p app happ hf h.1, (h.2.mono h.1.registered hfixed fun _ _ hp => hp :)⟩
  · intro w app happ h
    refine ⟨hk.drop w app happ h.1, ?_⟩
    have hdb := h.1.with_db (category_removeFromDatabase env w.db (hp app happ).quote)
    unfold Sam.dropApp
    rw [hsam]
    exact (h.2.with_db _).removeCategory hdb.registered env.healthy _

theorem updateCategory (h : Content w) (hr : w.Registered) (env : Env) (requestPayload : JValue) :
    Content (Bus.updateCategory env w requestPayload).2 := by
  refine h.mono hr (fixed_updateCategory env w requestPayload) fun k p hp => ?_
  have hset : (Bus.updateCategory env w requestPayload).2.set 0 = w.set 0 :=
    congrArg (fun sets : Heap SearchSet => sets.cell 0)
      (Bus.registry_updateCategory env w requestPayload).1
  rw [hset] at hp
  exact hp

end Content

/-! ## Runs -/

namespace System

variable {env : Env} {s : System} {f : Front} {old : String → List ItemRow}

/-- What an event is to the front. -/
def frontEvents (s : System) : SystemEvent → List FrontEvent
  | .message handle payload =>
    if s.calls.Live .sam handle then [.apps s.files payload]
    else if s.calls.Live .settingService handle then [.locale payload] else []
  | .updateCategory requestPayload => [.updateCategory requestPayload]
  | _ => []

/-- What a running service has heard and been asked for. -/
def fronts (env : Env) (db : Db) (events : List SystemEvent) : List FrontEvent :=
  outputs (step env) frontEvents (initial env db) events

/-- The service stands for the front; `old` are the rows of an earlier service. -/
structure Presents (env : Env) (old : String → List ItemRow) (s : System) (f : Front) : Prop where
  serves : Serves s.service f.board
  agrees : Agrees s.service
  lists : Lists env s f.apps
  stocks : Sam.Stocks env old s.sam s.service f.library
  content : Content s.service
  settings : s.settingService = f.settings
  language : s.service.language = s.settingService.language

/-- Each part of the front hears its own events. -/
theorem run_front (f : Front) (s : System) (event : SystemEvent) :
    run Front.step f (frontEvents s event) = {
      board := run Board.step f.board (menuEvents s event)
      library := run Sam.Library.announce f.library (reads s event)
      apps := run Sam.announceApps f.apps (heard .sam s event)
      settings := run (fun settings payload => (SettingService.onLocaleChanged settings payload).2)
        f.settings (heard .settingService s event) } := by
  cases event with
  | message handle payload =>
    unfold frontEvents menuEvents reads heard
    dsimp only
    by_cases hs : s.calls.Live .sam handle
    · rw [if_pos hs, if_pos hs, if_neg (not_live_both hs)]
      rfl
    · rw [if_neg hs, if_neg hs]
      split_ifs <;> rfl
  | _ => rfl

theorem each_frontEvents (s : System) (f : Front) (event : SystemEvent) :
    Each Front.step Front.Allows f (frontEvents s event) ↔
      Each Board.step Board.Allows f.board (menuEvents s event) := by
  cases event with
  | message handle payload =>
    unfold frontEvents menuEvents heard
    dsimp only
    split_ifs
    · exact Iff.rfl
    · exact iff_of_true ⟨trivial, trivial⟩ trivial
    · exact Iff.rfl
  | _ => exact Iff.rfl

theorem content_step (h : Content s.service) (ha : Agrees s.service) (hsam : s.sam = ⟨0, 0⟩)
    (event : SystemEvent) (hp : ∀ handle payload, event = .message handle payload →
      ∀ app ∈ Sam.messageApps payload, Proper app) :
    Content (s.step env.healthy event).service := by
  obtain ⟨-, -, _, heq⟩ | ⟨handle, payload, he, -, heq⟩ | ⟨requestPayload, -, heq⟩ :=
    service_step env.healthy s event
  · rw [heq]
    exact h
  · rw [heq]
    exact h.onListApps ha (env.reading s.files) (congrArg Sam.searchSet hsam)
      (hp handle payload he)
  · rw [heq]
    exact h.updateCategory ha.registered env.healthy requestPayload

theorem presents_step (h : Presents env old s f) (event : SystemEvent) (hs : SoundEvent env event)
    (hok : Each Front.step Front.Allows f (frontEvents s event)) :
    Presents env old (s.step env.healthy event) (run Front.step f (frontEvents s event)) := by
  have hp : ∀ handle payload, event = .message handle payload →
      ∀ app ∈ Sam.messageApps payload, Proper app := fun handle payload he app happ =>
    (hs handle payload he app happ).proper
  rw [run_front]
  exact ⟨serves_step h.serves h.agrees h.lists.sam event hp ((each_frontEvents s f event).1 hok),
    agrees_step h.agrees h.lists.sam event hp, lists_step h.lists event hs,
    stocks_step h.stocks event hp, content_step h.content h.agrees h.lists.sam event hp,
    h.settings ▸ settingService_step s event, language_step s h.language event⟩

theorem presents_restart (env : Env) {db : Db} {m : Menu} (h : db.category.StandsFor m) :
    Presents env (categoryRows db) (initial env.healthy db) (.restart m) := by
  refine ⟨serves_restart env h, agrees_initial env db, lists_initial env db,
    stocks_initial env db, fun k p hp hk => ?_, rfl, language_initial env.healthy db⟩
  rw [categories_initial, OrdMap.find_insert rfl, if_neg hk] at hp
  cases hp

theorem presents_run (env : Env) {db : Db} {m : Menu} (events : List SystemEvent)
    (h : db.category.StandsFor m) (hs : ∀ event ∈ events, SoundEvent env event)
    (hok : Each Front.step Front.Allows (.restart m) (fronts env.healthy db events)) :
    Presents env (categoryRows db) (run (step env.healthy) (initial env.healthy db) events)
      (run Front.step (.restart m) (fronts env.healthy db events)) :=
  run_related_each (R := Presents env (categoryRows db))
    (fun _ _ event hsound hallows h => presents_step h event hsound hallows)
    (presents_restart env h) hs hok

/-! ## Answers -/

namespace Presents

variable {key k : String}

theorem intentsOf_content (h : Presents env old s f) (hw : Wired env s.service) (key : String)
    (hk : k ∈ f.board.menu.shown) (hne : k ≠ Applications.categoryId) :
    s.service.intentsOf key k = if f.library.known k then
      (f.content env key k).filterMap (AppContents.generateIntent k f.settings.language "")
    else [] := by
  have hknown : f.library.known k = ((s.service.set 0).categories.find k).isSome := by
    have hknows := h.stocks.knows k
    rw [h.lists.sam] at hknows
    exact Bool.eq_iff_iff.2 hknows.symm
  unfold intentsOf
  rw [hw.accepted_of_category, hknown]
  cases hf : (s.service.set 0).categories.find k with
  | none => rfl
  | some p =>
    obtain ⟨-, -, -, hen⟩ := h.serves.flag h.agrees hf
    have hrows : categoryRows s.service.db k = (f.library.items env k).map (itemRow env) := by
      rw [h.stocks.rows k hne]
      exact if_pos (h.stocks.indexed k hne (by rw [hknown, hf]; rfl))
    have hintent : ∀ item, s.service.intentOf (p, item) =
        AppContents.generateIntent k f.settings.language "" item := by
      intro item
      unfold intentOf Category.intent
      rw [h.content k p hf hne, h.language, h.settings]
      rfl
    rw [Option.filter_some, hen, decide_eq_true hk, if_pos rfl, if_pos (by rfl)]
    dsimp only
    unfold matchingRows Front.content
    rw [hrows, List.filterMap_map, List.filterMap_map]
    exact List.filterMap_congr fun row _ => hintent _

theorem intentsOf_eq (h : Presents env old s f) (hw : Wired env s.service)
    (hnull : JsonText env .null) (key : String) (hk : k ∈ f.board.menu.shown) :
    s.service.intentsOf key k = f.intents env key k := by
  unfold Front.intents
  by_cases hap : k = Applications.categoryId
  · have hfind : (s.service.set 0).categories.find Applications.categoryId = some 0 := by
      have hfind := h.lists.find
      rw [h.lists.sam] at hfind
      exact hfind
    obtain ⟨-, -, -, hen⟩ := h.serves.flag h.agrees hfind
    rw [if_pos hap, hap, Sam.intentsOf_apps hw hfind h.lists.rows h.lists.sound hnull, hen, ← hap,
      decide_eq_true hk, if_pos rfl]
  · rw [if_neg hap]
    exact h.intentsOf_content hw key hk hap

theorem search (h : Presents env old s f) (hw : Wired env s.service)
    (hint : s.service.NonNullIntents) (hnull : JsonText env .null) (requestPayload : JValue) :
    Bus.search s.service requestPayload = some (f.search env requestPayload) := by
  have hresults (key : String) : Bus.appendResults s.service.db (s.service.search key)
      JValue.array = some (.arr (f.results env key)) := by
    have hshown : ((Database.getCategories s.service.db).filter fun c => c.enabled).map (·.id) =
        f.board.menu.shown := map_id_enabledCategories.trans h.serves.table.shown
    -- the categories that are enabled have the ids that are shown
    have hintents : ∀ c ∈ Database.getCategories s.service.db, c.enabled = true →
        s.service.intentsOf key c.id = f.intents env key c.id := fun c hc he =>
      h.intentsOf_eq hw hnull key
        (hshown ▸ List.mem_map_of_mem (List.mem_filter.2 ⟨hc, he⟩))
    unfold Bus.appendResults Front.results
    rw [show JValue.array = JValue.arr [] from rfl, Bus.appendResults_eq hint, List.nil_append,
      ← hshown, List.filter_map, List.map_map, List.filter_filter]
    refine congrArg (fun l => some (JValue.arr l)) ?_
    have hfilter : (Database.getCategories s.service.db).filter (fun c =>
          c.enabled ∧ s.service.intentsOf key c.id ≠ []) =
        (Database.getCategories s.service.db).filter fun c =>
          decide (f.intents env key c.id ≠ []) && c.enabled := by
      refine List.filter_congr fun c hc => ?_
      cases he : c.enabled with
      | false => simp
      | true => simp [hintents c hc he]
    rw [hfilter]
    refine List.map_congr_left fun c hc => ?_
    obtain ⟨hmem, hcond⟩ := List.mem_filter.1 hc
    rw [Bool.and_eq_true] at hcond
    rw [hintents c hmem hcond.2]
    rfl
  unfold Bus.search Front.search
  generalize JValueUtil.getString requestPayload "key" "" = r
  obtain ⟨found, key⟩ := r
  cases found with
  | false => rfl
  | true =>
    dsimp only
    split_ifs
    · rfl
    · rw [hresults]
      rfl

end Presents

theorem search_run (env : Env) {db : Db} {m : Menu} (events : List SystemEvent)
    (h : db.category.StandsFor m) (hs : ∀ event ∈ events, SoundEvent env event)
    (hnull : JsonText env .null)
    (hok : Each Front.step Front.Allows (.restart m) (fronts env.healthy db events))
    (requestPayload : JValue) :
    Bus.search (run (step env.healthy) (initial env.healthy db) events).service requestPayload =
      some ((run Front.step (.restart m) (fronts env.healthy db events)).search env
        requestPayload) := by
  have hw : Wired env (run (step env.healthy) (initial env.healthy db) events).service :=
    { wired_reachable env.healthy db events with }
  exact (presents_run env events h hs hok).search hw
    (intact_reachable env.healthy db events).nonNullIntents hnull requestPayload

end System

/-- **Every answer to a search is the one of the front.** From a database whose ranks are exact, in
every run of the service in which the ids of the apps are names of their own, what is stored of them
is read back, and the menu allows what is asked for. -/
theorem search_refines (env : Env) (db : Db) (events : List SystemEvent)
    (hx : db.category.RanksExact) (hn : db.category.NonNeg)
    (hs : ∀ event ∈ events, System.SoundEvent env event) (hnull : JsonText env .null)
    (hok : Each Front.step Front.Allows (.start db) (System.fronts env.healthy db events))
    (requestPayload : JValue) :
    Bus.search (run (System.step env.healthy) (System.initial env.healthy db) events).service
      requestPayload =
        some ((run Front.step (.start db) (System.fronts env.healthy db events)).search env
          requestPayload) :=
  System.search_run env events (standsFor_menu hx hn) hs hnull hok requestPayload

/-- The texts of null, of an application and of its one content. -/
def Env.hello : Env := { Env.files with
  stringify := fun
    | .null => "null"
    | .obj (("title", .str _) :: _) => "application"
    | _ => "content"
  fromString := fun s =>
    if s = "null" then .null
    else if s = "application" then (Applications.item webHello).display
    else .obj [("icon", .str "/a/"),
      ("title", .obj [("en", .str "Hello"), ("ko", .str "Annyeong")])] }

/-- The application is listed, the language is Korean, and its content is put first. -/
def frontRun : List SystemEvent := System.localized ++ [
  .message 1 (Sam.listPayload [webHello]),
  .message 0 (SettingService.localePayload "ko-KR"),
  .updateCategory ((JValue.object.put "id" (.str "a")).put "rank" (.num 1))]

theorem frontRun_sound : ∀ event ∈ frontRun, System.SoundEvent .hello event := by
  intro event hmem handle payload he app happ
  subst he
  simp only [frontRun, System.localized, List.mem_append, List.mem_cons,
    SystemEvent.message.injEq, List.not_mem_nil, or_false, reduceCtorEq, false_or] at hmem
  rcases hmem with ⟨-, rfl⟩ | ⟨-, rfl⟩ | ⟨-, rfl⟩
  · cases happ
  · rw [List.mem_singleton.1 happ]
    exact ⟨⟨by decide, by decide, by decide⟩, by decide, by decide, by decide, ⟨by decide, rfl⟩⟩
  · cases happ

theorem search_refines_sample :
    let f := run Front.step (.start .fresh) (System.fronts Env.hello.healthy .fresh frontRun)
    Bus.search (run (System.step Env.hello.healthy) (System.initial Env.hello.healthy .fresh)
        frontRun).service (JValue.object.put "key" (.str "He")) =
      some (f.search .hello (JValue.object.put "key" (.str "He"))) ∧
    f.board.menu.shown = ["a", "sam.apps", "mediaindexer.audio"] ∧
      (f.intents .hello "He" "a").map (fun intent =>
        (JValueUtil.getString intent.display "title" "").2) = ["Annyeong"] := by
  intro f
  exact ⟨search_refines .hello .fresh frontRun (by decide) (fun r hr => by cases hr) frontRun_sound
    ⟨by decide, rfl⟩ (by decide +kernel) _, by decide +kernel, by decide +kernel⟩

end UnifiedSearch
