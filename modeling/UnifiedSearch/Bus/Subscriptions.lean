import UnifiedSearch.Bus.Messages
import UnifiedSearch.Bus.System

/-!
# The subscriptions of a running service

What holds of the two subscriptions in every order of status messages, other
messages, timeouts and requests. Where assigning to an `LS::Call` ends the call
it held, a client has one open subscription while its service is up and none
while it is down (`subscribed_run`), and a change of the locale is followed by a
subscription made after it (`reloaded_run`). The language is the one of the
locale that was accepted last (`language_run`).
-/

namespace UnifiedSearch.System

open Lib Service

variable {env : Env} {s : System} {client who : Subscriber} {handle : ℕ} {payload : JValue}

/-- The open subscriptions are the ones in the slots, of the clients that are connected. -/
structure Subscribed (env : Env) (s : System) : Prop where
  owned : s.calls.Owned
  connected : ∀ client, (s.calls.slot client).isSome = s.isConnected client
  value : ∀ client h, s.calls.Live client h →
    (s.calls.handles.cell h).value = client.subscription env

/-! ## One step -/

theorem calls_onMessage (s : System) (payload : JValue) (client : Subscriber) :
    (s.onMessage env payload client).calls = s.calls ∧
      (s.onMessage env payload client).isConnected = s.isConnected := by
  cases client with
  | sam => exact ⟨rfl, rfl⟩
  | settingService => exact ⟨rfl, rfl⟩

/-- What a status message says. -/
def connectedOf (payload : JValue) : Option Bool :=
  match payload.get "connected" with
  | some (.bool connected) => some connected
  | _ => none

theorem onServerStatus_eq (s : System) (client : Subscriber) (payload : JValue) :
    s.onServerStatus env client payload =
      match connectedOf payload with
      | some connected => { s with
          isConnected := Function.update s.isConnected client connected }.onServerStatusChanged env
            client connected
      | none => s := by
  unfold onServerStatus connectedOf
  generalize payload.get "connected" = value
  cases value with
  | none => rfl
  | some value => cases value <;> rfl

theorem timeouts_onMessage (s : System) (payload : JValue) (client : Subscriber) :
    s.timeouts ≤ (s.onMessage env payload client).timeouts := by
  cases client with
  | sam => exact le_rfl
  | settingService =>
    unfold onMessage onLocaleChanged
    dsimp only
    split_ifs
    · exact Nat.le_succ _
    · exact le_rfl

theorem subscribed_initial (env : Env) (db : Db) : Subscribed env (initial env db) := by
  refine ⟨Handles.owned_empty, fun _ => rfl, fun _ _ h => ?_⟩
  exact (Bool.false_ne_true h.1).elim

theorem all_assignEnds (hends : env.AssignEnds) (slot : Option ℕ) :
    slot.all env.assignEnds = true := by
  cases slot with
  | none => rfl
  | some h => exact hends h

theorem Subscribed.onServerStatusChanged (h : Subscribed env s) (hends : env.AssignEnds)
    (client : Subscriber) (connected : Bool) :
    Subscribed env ({ s with
      isConnected := Function.update s.isConnected client connected }.onServerStatusChanged env
        client connected) := by
  cases connected with
  | true =>
    have he := all_assignEnds hends (s.calls.slot client)
    refine ⟨h.owned.assign he, fun who => ?_, fun who h' hlive => ?_⟩
    · show ((s.calls.assign _ client _).slot who).isSome =
        Function.update s.isConnected client _ who
      rw [Handles.slot_assign, Function.update_apply]
      split_ifs
      · rfl
      · exact h.connected who
    · refine (h.owned.value_assign he hlive).trans ?_
      split_ifs with hwho
      · rw [hwho]
      · obtain ⟨rfl, -⟩ | ⟨-, hold⟩ := (h.owned.live_assign he).1 hlive
        · exact absurd rfl hwho
        · exact h.value who h' hold
  | false =>
    refine ⟨h.owned.cancel, fun who => ?_, fun who h' hlive => ?_⟩
    · show ((s.calls.cancel client).slot who).isSome = Function.update s.isConnected client _ who
      rw [Handles.slot_cancel, Function.update_apply]
      split_ifs
      · rfl
      · exact h.connected who
    · exact Handles.value_cancel.trans (h.value who h' (h.owned.live_cancel.1 hlive).2)

/-- Cancelling before resubscribing makes no difference to what is open afterwards. -/
theorem Subscribed.reload (h : Subscribed env s) (hends : env.AssignEnds) :
    Subscribed env (s.reloadAppsByLocaleChange env).2 := by
  unfold reloadAppsByLocaleChange
  cases hc : s.isConnected .sam with
  | false => exact h
  | true =>
    have h' := (h.onServerStatusChanged hends .sam false).onServerStatusChanged hends .sam true
    have hflag : Function.update (Function.update s.isConnected .sam false) .sam true =
        s.isConnected := by
      rw [Function.update_idem, ← hc, Function.update_eq_self]
    have hsame : ∀ isConnected : Subscriber → Bool, isConnected = s.isConnected →
        Subscribed env { s with
          isConnected
          calls := (s.calls.cancel .sam).assign env.assignEnds .sam
            (Subscriber.sam.subscription env) } →
        Subscribed env { s with
          calls := (s.calls.cancel .sam).assign env.assignEnds .sam
            (Subscriber.sam.subscription env) } := by
      rintro _ rfl hs
      exact hs
    exact hsame _ hflag h'

theorem Subscribed.step (h : Subscribed env s) (hends : env.AssignEnds) (event : SystemEvent) :
    Subscribed env (s.step env event) := by
  cases event with
  | serverStatus client payload =>
    show Subscribed env (s.onServerStatus env client payload)
    rw [onServerStatus_eq]
    cases connectedOf payload with
    | none => exact h
    | some connected => exact h.onServerStatusChanged hends client connected
  | message handle payload =>
    show Subscribed env (s.deliver env handle payload)
    unfold deliver
    dsimp only
    split_ifs
    · obtain ⟨hcalls, hconn⟩ := @calls_onMessage env s payload
        (s.calls.handles.cell handle).owner
      refine ⟨?_, ?_, ?_⟩ <;> rw [hcalls]
      · exact h.owned
      · rw [hconn]
        exact h.connected
      · exact h.value
    · exact h
  | timeout =>
    show Subscribed env (s.timeout env)
    unfold timeout
    split_ifs
    · exact h
    · exact Subscribed.reload (s := { s with timeouts := s.timeouts - 1 }) { h with } hends
  | updateCategory requestPayload => exact { h with }
  | files files => exact { h with }

theorem subscribed_reachable (env : Env) (db : Db) (hends : env.AssignEnds)
    (events : List SystemEvent) : Subscribed env (run (step env) (initial env db) events) :=
  run_invariant (fun _ event h => h.step hends event) (subscribed_initial env db) events

/-- The connection state a message announces to a client. -/
def announced (client : Subscriber) : SystemEvent → Option Bool
  | .serverStatus who payload => if who = client then connectedOf payload else none
  | _ => none

theorem isConnected_step (client : Subscriber) (s : System) (event : SystemEvent) :
    some ((s.step env event).isConnected client) =
      (announced client event).or (some (s.isConnected client)) := by
  cases event with
  | serverStatus who payload =>
    show some ((s.onServerStatus env who payload).isConnected client) =
      (if who = client then connectedOf payload else none).or _
    rw [onServerStatus_eq]
    cases connectedOf payload with
    | none => rw [ite_self]; rfl
    | some connected =>
      show some (Function.update s.isConnected who connected client) = _
      rw [Function.update_apply]
      by_cases hwho : who = client
      · rw [if_pos hwho.symm, if_pos hwho]
        rfl
      · rw [if_neg (Ne.symm hwho), if_neg hwho]
        rfl
  | message handle payload =>
    show some ((s.deliver env handle payload).isConnected client) = _
    unfold deliver
    dsimp only
    split_ifs
    · rw [(calls_onMessage s payload _).2]
      rfl
    · rfl
  | timeout =>
    show some ((s.timeout env).isConnected client) = _
    unfold timeout reloadAppsByLocaleChange
    split_ifs <;> rfl
  | updateCategory requestPayload => rfl
  | files files => rfl

/-- **A client has exactly one open subscription while the last status of its service is up, and
none otherwise**, and it is the client's own call: where assigning to an `LS::Call` ends the call
it held. -/
theorem subscribed_run (env : Env) (db : Db) (hends : env.AssignEnds) (events : List SystemEvent)
    (client : Subscriber) :
    let s := run (step env) (initial env db) events
    ((∃ h, s.calls.Live client h) ↔
        (events.filterMap (announced client)).getLast? = some true) ∧
      (∀ h h', s.calls.Live client h → s.calls.Live client h' → h = h') ∧
      ∀ h, s.calls.Live client h →
        (s.calls.handles.cell h).value = client.subscription env := by
  intro s
  have h : Subscribed env s := subscribed_reachable env db hends events
  refine ⟨?_, fun _ _ => h.owned.unique, h.value client⟩
  have hlast := @read_foldl _ _ (step env) _ (fun s => some (s.isConnected client)) _
    (isConnected_step client) events (initial env db)
  have hconn : s.isConnected client = true ↔
      (events.filterMap (announced client)).getLast? = some true := by
    rw [← Option.some_inj, show some (s.isConnected client) = _ from hlast]
    cases (events.filterMap (announced client)).getLast? with
    | none => exact iff_of_false (fun h => Bool.false_ne_true (Option.some.inj h)) (by decide)
    | some connected => rfl
  rw [← hconn, ← h.connected, Option.isSome_iff_exists]
  simp only [h.owned.live_iff]

def statusPayload (connected : Bool) : JValue := .obj [("connected", .bool connected)]

/-- A service that is announced twice is subscribed to once. -/
theorem subscribed_run_sample :
    let s := run (step .sample) (initial .sample .fresh)
      [.serverStatus .sam (statusPayload true), .serverStatus .sam (statusPayload true)]
    (∃ h, s.calls.Live .sam h) ∧
      ∀ h h', s.calls.Live .sam h → s.calls.Live .sam h' → h = h' := by
  intro s
  obtain ⟨hlive, hunique, -⟩ := subscribed_run .sample .fresh (fun _ => rfl)
    [.serverStatus .sam (statusPayload true), .serverStatus .sam (statusPayload true)] .sam
  exact ⟨hlive.2 (by decide), hunique⟩

/-! ## Reloading -/

/-- A reload is still to come, or what SAM hears comes from a call that is at least the `n`-th. -/
def Renewed (n : ℕ) (s : System) : Prop :=
  0 < s.timeouts ∨ ∀ h, s.calls.Live .sam h → n ≤ h

variable {n : ℕ}

theorem Renewed.onServerStatusChanged (hr : Renewed n s) (ho : s.calls.Owned)
    (hends : env.AssignEnds) (hn : n ≤ s.calls.handles.next) (client : Subscriber)
    (connected : Bool) :
    n ≤ (s.onServerStatusChanged env client connected).calls.handles.next ∧
      Renewed n (s.onServerStatusChanged env client connected) := by
  unfold System.onServerStatusChanged Renewed
  dsimp only
  cases connected with
  | true =>
    rw [if_pos rfl, Handles.next_assign]
    refine ⟨Nat.le_succ_of_le hn, hr.imp_right fun hold h' hlive => ?_⟩
    rcases (ho.live_assign (all_assignEnds hends _)).1 hlive with ⟨-, rfl⟩ | ⟨-, hlive⟩
    · exact hn
    · exact hold h' hlive
  | false =>
    rw [if_neg Bool.false_ne_true, Handles.next_cancel]
    exact ⟨hn, hr.imp_right fun hold h' hlive => hold h' (ho.live_cancel.1 hlive).2⟩

theorem renewed_reload (h : Subscribed env s) (hends : env.AssignEnds)
    (hn : n ≤ s.calls.handles.next) :
    n ≤ (s.reloadAppsByLocaleChange env).2.calls.handles.next ∧
      ∀ h', (s.reloadAppsByLocaleChange env).2.calls.Live .sam h' → n ≤ h' := by
  unfold reloadAppsByLocaleChange
  cases hc : s.isConnected .sam with
  | false =>
    refine ⟨hn, fun h' hlive => ?_⟩
    have hslot := h.connected .sam
    rw [(h.owned.live_iff .sam h').1 hlive, hc] at hslot
    cases hslot
  | true =>
    show n ≤ ((s.calls.cancel .sam).assign _ .sam _).handles.next ∧
      ∀ h', ((s.calls.cancel .sam).assign _ .sam _).Live .sam h' → n ≤ h'
    rw [Handles.next_assign, Handles.next_cancel]
    refine ⟨Nat.le_succ_of_le hn, fun h' hlive => ?_⟩
    rcases (h.owned.cancel.live_assign (all_assignEnds hends _)).1 hlive with ⟨-, rfl⟩ | ⟨hne, -⟩
    · rw [Handles.next_cancel]
      exact hn
    · exact absurd rfl hne

theorem Renewed.step (hr : Renewed n s) (h : Subscribed env s) (hends : env.AssignEnds)
    (hn : n ≤ s.calls.handles.next) (event : SystemEvent) :
    n ≤ (s.step env event).calls.handles.next ∧ Renewed n (s.step env event) := by
  cases event with
  | serverStatus client payload =>
    show n ≤ (s.onServerStatus env client payload).calls.handles.next ∧
      Renewed n (s.onServerStatus env client payload)
    rw [onServerStatus_eq]
    cases connectedOf payload with
    | none => exact ⟨hn, hr⟩
    | some connected => exact hr.onServerStatusChanged h.owned hends hn client connected
  | message handle payload =>
    show n ≤ (s.deliver env handle payload).calls.handles.next ∧
      Renewed n (s.deliver env handle payload)
    unfold deliver
    dsimp only
    split_ifs
    · unfold Renewed
      rw [(calls_onMessage s payload _).1]
      exact ⟨hn, hr.imp_left fun hpos => lt_of_lt_of_le hpos (timeouts_onMessage s payload _)⟩
    · exact ⟨hn, hr⟩
  | timeout =>
    show n ≤ (s.timeout env).calls.handles.next ∧ Renewed n (s.timeout env)
    unfold timeout
    split_ifs with h0
    · exact ⟨hn, hr⟩
    · obtain ⟨hn', hnew⟩ := renewed_reload (s := { s with timeouts := s.timeouts - 1 })
        { h with } hends hn
      exact ⟨hn', .inr hnew⟩
  | updateCategory requestPayload => exact ⟨hn, hr⟩
  | files files => exact ⟨hn, hr⟩

/-! ## What the clients hear -/

/-- The message that an event brings to a client: it comes on a subscription of the client. -/
def heard (client : Subscriber) (s : System) : SystemEvent → List JValue
  | .message handle payload => if s.calls.Live client handle then [payload] else []
  | _ => []

/-- What SAM hears, with the files it is handled over. -/
def reads (s : System) (event : SystemEvent) : List (Files × JValue) :=
  (heard .sam s event).map (s.files, ·)

/-- A message goes to the client whose subscription it comes on, or nowhere. -/
theorem deliver_eq (s : System) (handle : ℕ) (payload : JValue) :
    s.deliver env handle payload =
      if s.calls.Live .sam handle then s.onMessage env payload .sam
      else if s.calls.Live .settingService handle then s.onMessage env payload .settingService
      else s := by
  unfold deliver
  dsimp only
  by_cases hl : (s.calls.handles.cell handle).live = true
  · rw [if_pos hl]
    cases ho : (s.calls.handles.cell handle).owner with
    | sam => rw [if_pos ⟨hl, ho⟩]
    | settingService => rw [if_neg (fun h => by cases ho.symm.trans h.2), if_pos ⟨hl, ho⟩]
  · rw [if_neg hl, if_neg fun h => hl h.1, if_neg fun h => hl h.1]

theorem not_live_both {h : ℕ} (hs : s.calls.Live .sam h) : ¬s.calls.Live .settingService h :=
  fun hl => by cases hs.2.symm.trans hl.2

/-- Everything an event can do to the service: set the language, bring SAM a message, or be a
request. -/
theorem service_step (env : Env) (s : System) (event : SystemEvent) :
    ((∀ requestPayload, event ≠ .updateCategory requestPayload) ∧ heard .sam s event = [] ∧
        ∃ language, (s.step env event).service = { s.service with language }) ∨
      (∃ handle payload, event = .message handle payload ∧ heard .sam s event = [payload] ∧
        (s.step env event).service =
          Sam.onListApps (env.reading s.files) s.sam s.service payload) ∨
      ∃ requestPayload, event = .updateCategory requestPayload ∧
        (s.step env event).service = (Bus.updateCategory env s.service requestPayload).2 := by
  cases event with
  | serverStatus client payload =>
    refine .inl ⟨nofun, rfl, s.service.language, ?_⟩
    show (s.onServerStatus env client payload).service = s.service
    rw [onServerStatus_eq]
    cases connectedOf payload <;> rfl
  | message handle payload =>
    have hstep : s.step env (.message handle payload) = s.deliver env handle payload := rfl
    have hheard : heard .sam s (.message handle payload) =
        if s.calls.Live .sam handle then [payload] else [] := rfl
    rw [hheard, hstep, deliver_eq]
    by_cases hs : s.calls.Live .sam handle
    · rw [if_pos hs, if_pos hs]
      exact .inr (.inl ⟨handle, payload, rfl, rfl, rfl⟩)
    · rw [if_neg hs, if_neg hs]
      refine .inl ⟨nofun, rfl, ?_⟩
      split_ifs
      · exact ⟨_, rfl⟩
      · exact ⟨s.service.language, rfl⟩
  | timeout =>
    refine .inl ⟨nofun, rfl, s.service.language, ?_⟩
    show (s.timeout env).service = s.service
    unfold timeout reloadAppsByLocaleChange
    split_ifs <;> rfl
  | updateCategory requestPayload => exact .inr (.inr ⟨requestPayload, rfl, rfl⟩)
  | files files => exact .inl ⟨nofun, rfl, s.service.language, rfl⟩

theorem settingService_step (s : System) (event : SystemEvent) :
    (s.step env event).settingService =
      run (fun settings payload => (SettingService.onLocaleChanged settings payload).2)
        s.settingService (heard .settingService s event) := by
  cases event with
  | serverStatus client payload =>
    show (s.onServerStatus env client payload).settingService = s.settingService
    rw [onServerStatus_eq]
    cases connectedOf payload <;> rfl
  | message handle payload =>
    show (s.deliver env handle payload).settingService = run _ s.settingService
      (if s.calls.Live .settingService handle then [payload] else [])
    rw [deliver_eq]
    by_cases hs : s.calls.Live .sam handle
    · rw [if_pos hs, if_neg (not_live_both hs)]
      rfl
    · rw [if_neg hs]
      split_ifs <;> rfl
  | timeout =>
    show (s.timeout env).settingService = s.settingService
    unfold timeout reloadAppsByLocaleChange
    split_ifs <;> rfl
  | updateCategory requestPayload => rfl
  | files files => rfl

theorem language_step (s : System) (h : s.service.language = s.settingService.language)
    (event : SystemEvent) :
    (s.step env event).service.language = (s.step env event).settingService.language := by
  cases event with
  | serverStatus client payload =>
    show (s.onServerStatus env client payload).service.language =
      (s.onServerStatus env client payload).settingService.language
    rw [onServerStatus_eq]
    cases connectedOf payload <;> exact h
  | message handle payload =>
    show (s.deliver env handle payload).service.language =
      (s.deliver env handle payload).settingService.language
    rw [deliver_eq]
    split_ifs
    · exact (Sam.language_onListApps ..).trans h
    · rfl
    · exact h
  | timeout =>
    show (s.timeout env).service.language = (s.timeout env).settingService.language
    unfold timeout reloadAppsByLocaleChange
    split_ifs <;> exact h
  | updateCategory requestPayload => exact (Bus.language_updateCategory ..).trans h
  | files files => exact h

theorem language_initial (env : Env) (db : Db) :
    (initial env db).service.language = "" := by
  unfold initial Sam.onInitialized MediaPlugin.make
  dsimp only
  rw [language_addSearchSet, language_addCategory]
  dsimp only
  rw [language_addSearchSet, language_addCategory]
  rfl

/-- What the settings service has announced up to the end of a run. -/
def locales (env : Env) (db : Db) (events : List SystemEvent) : List JValue :=
  outputs (step env) (heard .settingService) (initial env db) events

theorem settingService_run (env : Env) (db : Db) (events : List SystemEvent) :
    (run (step env) (initial env db) events).settingService =
      SettingService.localized (SettingService.lastLocale (locales env db events)) := by
  rw [← SettingService.onLocaleChanged_run]
  exact run_outputs settingService_step (initial env db) events

/-- **The language is the one of the locale that was accepted last**, whatever else happens in
between: reconnections, other messages, requests. -/
theorem language_run (env : Env) (db : Db) (events : List SystemEvent) :
    (run (step env) (initial env db) events).service.language =
      SettingService.languageOf
        ((SettingService.lastLocale (locales env db events)).getD "") := by
  have h : (run (step env) (initial env db) events).service.language =
      (run (step env) (initial env db) events).settingService.language :=
    run_invariant (P := fun s => s.service.language = s.settingService.language)
      (fun s event h => language_step s h event) (language_initial env db) events
  rw [h, settingService_run]
  rfl

/-- **No change of the locale is lost.** A message of the settings service adds a timeout iff it
sets another locale than the one before. Where assigning to an `LS::Call` ends the call it held,
from then on SAM has a timeout to come, or hears nothing but what comes from a call made after the
change. -/
theorem reloaded_run (env : Env) (db : Db) (before after : List SystemEvent) (handle : ℕ)
    (payload : JValue) :
    let s := run (step env) (initial env db) before
    let old := (SettingService.lastLocale (locales env db before)).getD ""
    s.calls.Live .settingService handle →
      ((s.step env (.message handle payload)).timeouts = s.timeouts + 1 ↔
        old ≠ "" ∧ ∃ l, SettingService.localeOf payload = some l ∧ l ≠ old) ∧
      (env.AssignEnds → old ≠ "" → (∃ l, SettingService.localeOf payload = some l ∧ l ≠ old) →
        let s' := run (step env) s (.message handle payload :: after)
        0 < s'.timeouts ∨ ∀ h, s'.calls.Live .sam h → s.calls.handles.next ≤ h) := by
  intro s old hlive
  have hstep : (s.step env (.message handle payload)).timeouts =
      if (s.settingService.onLocaleChanged payload).1 then s.timeouts + 1 else s.timeouts := by
    show (s.deliver env handle payload).timeouts = _
    rw [deliver_eq, if_neg fun hs => not_live_both hs hlive, if_pos hlive]
    rfl
  have hiff : (s.settingService.onLocaleChanged payload).1 = true ↔
      old ≠ "" ∧ ∃ l, SettingService.localeOf payload = some l ∧ l ≠ old := by
    rw [show s.settingService = _ from settingService_run env db before]
    exact SettingService.reload_localized _ payload
  refine ⟨?_, fun hends hold hnew => ?_⟩
  · rw [hstep, ← hiff]
    split_ifs with h
    · exact iff_of_true rfl h
    · exact iff_of_false (by omega) h
  · have hsub : Subscribed env s := subscribed_reachable env db hends before
    have hpos : 0 < (s.step env (.message handle payload)).timeouts := by
      rw [hstep, if_pos (hiff.2 ⟨hold, hnew⟩)]
      exact Nat.succ_pos _
    have hkeep := run_invariant (P := fun s' => Subscribed env s' ∧
        s.calls.handles.next ≤ s'.calls.handles.next ∧ Renewed s.calls.handles.next s')
      (fun s' event h => ⟨h.1.step hends event, h.2.2.step h.1 hends h.2.1 event⟩)
      (s := s.step env (.message handle payload)) ?_ after
    · exact hkeep.2.2
    · have hnext : s.calls.handles.next ≤
          (s.step env (.message handle payload)).calls.handles.next := by
        show _ ≤ (s.deliver env handle payload).calls.handles.next
        rw [deliver_eq, if_neg fun hs => not_live_both hs hlive, if_pos hlive]
        exact le_rfl
      exact ⟨hsub.step hends _, hnext, .inl hpos⟩

/-- Both services are up, and the first locale has been accepted. -/
def localized : List SystemEvent := [.serverStatus .settingService (statusPayload true),
  .serverStatus .sam (statusPayload true), .message 0 (SettingService.localePayload "en-US")]

theorem reloaded_run_sample :
    let s := run (step .sample) (initial .sample .fresh) localized
    let s' := run (step .sample) s [.message 0 (SettingService.localePayload "ko-KR"), .timeout]
    0 < s'.timeouts ∨ ∀ h, s'.calls.Live .sam h → s.calls.handles.next ≤ h :=
  (reloaded_run .sample .fresh localized [.timeout] 0 (SettingService.localePayload "ko-KR")
    (by decide +kernel)).2 (fun _ => rfl) (by decide +kernel)
      ⟨"ko-KR", by decide +kernel, by decide +kernel⟩

/-- The second call of SAM is open after the timeout. -/
example : (run (step .sample) (initial .sample .fresh) (localized ++
    [.message 0 (SettingService.localePayload "ko-KR"), .timeout])).calls.slot .sam = some 2 := by
  decide +kernel

end UnifiedSearch.System
