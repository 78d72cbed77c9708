import UnifiedSearch.Bus.Front

/-!
# How the services come in between each other

A running service hears from two others that know nothing of each other, while
they come and go, and the subscriptions are made again. Of all this an answer
shows the messages that reach SAM and the requests, in their order, and the
locale that was accepted last (`search_interleaved`).
-/

namespace UnifiedSearch

open Lib Service CategoryTable Database

namespace FrontEvent

/-- What it is to the menu. -/
def menu : FrontEvent → Option MenuEvent
  | .apps _ payload => some (.message payload)
  | .locale _ => none
  | .updateCategory requestPayload => some (.updateCategory requestPayload)

/-- What is read in it. -/
def reading : FrontEvent → Option (Files × JValue)
  | .apps files payload => some (files, payload)
  | _ => none

end FrontEvent

namespace Front

variable {env : Env} {f f' : Front}

/-- A search reads the language of the settings only. -/
theorem search_congr (hboard : f'.board = f.board) (hlibrary : f'.library = f.library)
    (happs : f'.apps = f.apps) (hlanguage : f'.settings.language = f.settings.language)
    (requestPayload : JValue) : f'.search env requestPayload = f.search env requestPayload := by
  have hintents (key k : String) : f'.intents env key k = f.intents env key k := by
    unfold intents content
    rw [hlibrary, happs, hlanguage]
  have hresults (key : String) : f'.results env key = f.results env key := by
    unfold results
    simp only [hboard, hintents]
  unfold search
  simp only [hresults]

end Front

namespace System

variable {env : Env} {db : Db}

/-- What an event is to the front, if it is not the locale. -/
def orderEvents (s : System) : SystemEvent → List FrontEvent
  | .message handle payload => if s.calls.Live .sam handle then [.apps s.files payload] else []
  | .updateCategory requestPayload => [.updateCategory requestPayload]
  | _ => []

/-- What SAM has heard, with the files of the time, and what the service has been asked for, in
order. -/
def orders (env : Env) (db : Db) (events : List SystemEvent) : List FrontEvent :=
  outputs (step env) orderEvents (initial env db) events

theorem menuEvents_eq (s : System) (event : SystemEvent) :
    menuEvents s event = (orderEvents s event).filterMap FrontEvent.menu := by
  cases event with
  | message handle payload =>
    unfold menuEvents heard orderEvents
    dsimp only
    split_ifs <;> rfl
  | _ => rfl

theorem reads_eq (s : System) (event : SystemEvent) :
    reads s event = (orderEvents s event).filterMap FrontEvent.reading := by
  cases event with
  | message handle payload =>
    unfold reads heard orderEvents
    dsimp only
    split_ifs <;> rfl
  | _ => rfl

theorem heard_eq (s : System) (event : SystemEvent) :
    heard .sam s event = (reads s event).filterMap fun message => some message.2 := by
  unfold reads
  rw [List.filterMap_map]
  exact List.filterMap_some.symm

/-- The parts of a front, each from what it has heard. -/
theorem run_fronts (env : Env) (db : Db) (m : Menu) (events : List SystemEvent) :
    let f := run Front.step (.restart m) (fronts env db events)
    let messages := (orders env db events).filterMap FrontEvent.reading
    f.board = run Board.step (.restart m) ((orders env db events).filterMap FrontEvent.menu) ∧
      f.library = run Sam.Library.announce { known := (· = Applications.categoryId) } messages ∧
      f.apps = run Sam.announceApps [] (messages.filterMap fun message => some message.2) ∧
      f.settings = SettingService.localized
        (SettingService.lastLocale (locales env db events)) := by
  intro f messages
  have hmessages : messages = readings env db events := (outputs_filterMap reads_eq _ _).symm
  have hpayloads : messages.filterMap (fun message => some message.2) = lists env db events := by
    rw [hmessages]
    exact (outputs_filterMap heard_eq _ _).symm
  rw [hpayloads, hmessages, ← SettingService.onLocaleChanged_run]
  have hmenu : (orders env db events).filterMap FrontEvent.menu =
      outputs (step env) menuEvents (initial env db) events :=
    (outputs_filterMap menuEvents_eq _ _).symm
  rw [hmenu]
  exact ⟨part_run Front.board (fun s f event => by rw [run_front]) _ _ _,
    part_run Front.library (fun s f event => by rw [run_front]) _ _ _,
    part_run Front.apps (fun s f event => by rw [run_front]) _ _ _,
    part_run Front.settings (fun s f event => by rw [run_front]) _ _ _⟩

/-- Whether the menu allows what is asked for follows from the orders. -/
theorem allows_orders {m : Menu} {events : List SystemEvent} :
    Each Front.step Front.Allows (.restart m) (fronts env db events) ↔
      Each Board.step Board.Allows (.restart m)
        ((orders env db events).filterMap FrontEvent.menu) := by
  have hmenu : (orders env db events).filterMap FrontEvent.menu =
      outputs (step env) menuEvents (initial env db) events :=
    (outputs_filterMap menuEvents_eq _ _).symm
  rw [hmenu]
  exact each_part Front.board (fun s f event => by rw [run_front]) each_frontEvents _ _ _

end System

/-- **An answer does not show the order of the rest.** Over databases with the same categories, two
runs in which the same messages reach SAM over the same files and the same requests are made, in the
same order, and in which the locale accepted last is the same, answer every search and every request
alike. -/
theorem search_interleaved (env : Env) (db db' : Db) (events events' : List SystemEvent)
    (hx : db.category.RanksExact) (hn : db.category.NonNeg) (hcat : db'.category = db.category)
    (hs : ∀ event ∈ events ++ events', System.SoundEvent env event) (hnull : JsonText env .null)
    (hok : Each Front.step Front.Allows (.start db) (System.fronts env.healthy db events))
    (horders : System.orders env.healthy db' events' = System.orders env.healthy db events)
    (hlocales : SettingService.lastLocale (System.locales env.healthy db' events') =
      SettingService.lastLocale (System.locales env.healthy db events)) :
    let w := (run (System.step env.healthy) (System.initial env.healthy db) events).service
    let w' := (run (System.step env.healthy) (System.initial env.healthy db') events').service
    ∀ requestPayload, Bus.search w' requestPayload = Bus.search w requestPayload ∧
      (Bus.updateCategory env.healthy w' requestPayload).1 =
        (Bus.updateCategory env.healthy w requestPayload).1 := by
  intro w w' requestPayload
  have hm : db.category.StandsFor db.category.menu := standsFor_menu hx hn
  have hm' : db'.category.StandsFor db.category.menu := by
    rw [hcat]
    exact hm
  have hs1 : ∀ event ∈ events, System.SoundEvent env event :=
    fun event h => hs event (List.mem_append_left _ h)
  have hs2 : ∀ event ∈ events', System.SoundEvent env event :=
    fun event h => hs event (List.mem_append_right _ h)
  have hok2 : Each Front.step Front.Allows (.restart db.category.menu)
      (System.fronts env.healthy db' events') := by
    rw [System.allows_orders, horders, ← System.allows_orders]
    exact hok
  have h := System.presents_run env events hm hs1 hok
  have h' := System.presents_run env events' hm' hs2 hok2
  obtain ⟨hboard, hlibrary, happs, hsettings⟩ :=
    System.run_fronts env.healthy db db.category.menu events
  obtain ⟨hboard', hlibrary', happs', hsettings'⟩ :=
    System.run_fronts env.healthy db' db.category.menu events'
  rw [horders, ← hboard] at hboard'
  rw [horders, ← hlibrary] at hlibrary'
  rw [horders, ← happs] at happs'
  rw [hlocales, ← hsettings] at hsettings'
  constructor
  · rw [System.search_run env events hm hs1 hnull hok requestPayload,
      System.search_run env events' hm' hs2 hnull hok2 requestPayload,
      Front.search_congr hboard' hlibrary' happs' (congrArg SettingService.language hsettings')]
  · rw [(h'.serves.updateCategory h'.agrees env requestPayload).1,
      (h.serves.updateCategory h.agrees env requestPayload).1, hboard']

/-- The list comes first, and once more on a subscription that has been closed; in between the files
of the application go. -/
def shuffledRun : List SystemEvent := [
  .serverStatus .sam (System.statusPayload true),
  .message 0 (Sam.listPayload [webHello]),
  .files fun _ => none,
  .serverStatus .settingService (System.statusPayload true),
  .serverStatus .sam (System.statusPayload false),
  .message 1 (SettingService.localePayload "ko-KR"),
  .serverStatus .sam (System.statusPayload true),
  .message 0 (Sam.listPayload [webHello]),
  .updateCategory ((JValue.object.put "id" (.str "a")).put "rank" (.num 1))]

theorem orders_shuffledRun : System.orders Env.hello.healthy
    ⟨⟨.empty, [itemRow .hello AppContents.staleItem]⟩, 0⟩ shuffledRun =
      System.orders Env.hello.healthy .fresh frontRun := by
  simp only [System.orders, frontRun, shuffledRun, System.localized, outputs, List.cons_append,
    List.nil_append, System.orderEvents]
  rw [if_pos (by decide +kernel), if_neg (by decide +kernel), if_neg (by decide +kernel),
    if_neg (by decide +kernel), if_pos (by decide +kernel), if_neg (by decide +kernel)]
  rfl

theorem search_interleaved_sample :
    Bus.search (run (System.step Env.hello.healthy) (System.initial Env.hello.healthy
        ⟨⟨.empty, [itemRow .hello AppContents.staleItem]⟩, 0⟩) shuffledRun).service
          (JValue.object.put "key" (.str "He")) =
      Bus.search (run (System.step Env.hello.healthy) (System.initial Env.hello.healthy .fresh)
        frontRun).service (JValue.object.put "key" (.str "He")) := by
  have hsound : ∀ event ∈ frontRun ++ shuffledRun, System.SoundEvent .hello event := by
    intro event hmem
    rcases List.mem_append.1 hmem with hmem | hmem
    · exact frontRun_sound event hmem
    · intro handle payload he app happ
      subst he
      simp only [shuffledRun, List.mem_cons, SystemEvent.message.injEq, List.not_mem_nil, or_false,
        reduceCtorEq, false_or] at hmem
      rcases hmem with ⟨-, rfl⟩ | ⟨-, rfl⟩ | ⟨-, rfl⟩
      · exact frontRun_sound (.message 1 (Sam.listPayload [webHello])) (by simp [frontRun]) _ _ rfl
          app happ
      · cases happ
      · exact frontRun_sound (.message 1 (Sam.listPayload [webHello])) (by simp [frontRun]) _ _ rfl
          app happ
  exact (search_interleaved .hello .fresh ⟨⟨.empty, [itemRow .hello AppContents.staleItem]⟩, 0⟩
    frontRun shuffledRun (by decide) (fun r hr => by cases hr) rfl hsound ⟨by decide, rfl⟩
    (by decide +kernel) orders_shuffledRun (by decide +kernel) _).1

end UnifiedSearch
