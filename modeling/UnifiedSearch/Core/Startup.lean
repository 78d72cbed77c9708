import UnifiedSearch.Core.LunaClient
import UnifiedSearch.Lib.Runs

/-!
# Starting the clients

`LunaClient::initialize` and `LunaClient::setMainHandle`. A client that is
initialised before there is a main handle waits in `s_deferred`, which the loop
of `setMainHandle` empties. The hook `onInitialzed` is virtual and may do
anything, so its calls that have not returned are kept as a stack, and whatever
the program does meanwhile, the return included, is an event of one run.
`Phase` is what holds between the events: the client the loop is at is the last
one of `s_deferred` for as long as it is being initialised.
-/

namespace UnifiedSearch

open Lib

/-- `m_statusCall`: the handle it was made on, and what the bus was given. -/
structure StatusCall where
  handle : ℕ
  request : BusCall

inductive StartupEntry (α : Type) where
  | registered (client : α) (statusCall : StatusCall)
  | onInitialzed (client : α)

/-- A call of `onInitialzed` that has not returned. -/
structure Initialzing (α : Type) where
  client : α
  /-- The loop of `setMainHandle` has called `initialize`. -/
  looped : Bool

/-- The clients are pointers of type `α`. -/
structure Startup (α : Type) where
  mainHandle : Option ℕ := none
  deferred : List α := []
  statusCall : α → Option StatusCall := fun _ => none
  /-- The innermost call first. -/
  running : List (Initialzing α) := []
  journal : List (StartupEntry α) := []

inductive StartupEvent (α : Type) where
  | initializeClient (client : α)
  | setMainHandle (handle : ℕ)
  /-- The innermost `onInitialzed` returns. -/
  | returned

namespace Startup

variable {α : Type} [DecidableEq α] (stringify : JValue → String) (getName : α → String)

/-- The registration for the status of a service. -/
def statusRequest (name : String) : BusCall where
  method := "luna://com.webos.service.bus/signal/registerServerStatus"
  payload := stringify (JValue.object.put "serviceName" (.str name))
  multiReply := true

section Methods

variable (s : Startup α)

/-- `LunaClient::initialize`, up to the hook. -/
def initializeClient (client : α) (looped : Bool := false) : Startup α :=
  match s.mainHandle with
  | none => { s with deferred := s.deferred ++ [client] }
  | some handle =>
    let statusCall := { handle, request := statusRequest stringify (getName client) }
    { s with
      statusCall := Function.update s.statusCall client (some statusCall)
      running := { client, looped } :: s.running
      journal := s.journal ++ [.registered client statusCall, .onInitialzed client] }

/-- The loop of `setMainHandle`, up to the next hook. -/
def drain : Startup α :=
  match s.deferred.getLast? with
  | none => s
  | some client => s.initializeClient stringify getName client true

/-- `LunaClient::setMainHandle`, with a handle that is not null. -/
def setMainHandle (handle : ℕ) : Startup α :=
  if s.mainHandle.isSome then s else
  { s with mainHandle := some handle }.drain stringify getName

/-- The innermost hook returns, and `initialize` with it. -/
def returned : Startup α :=
  match s.running with
  | [] => s
  | call :: running =>
    let s := { s with running }
    -- `pop_back`, and the loop goes on
    if call.looped then { s with deferred := s.deferred.dropLast }.drain stringify getName else s

def step : StartupEvent α → Startup α
  | .initializeClient client => s.initializeClient stringify getName client
  | .setMainHandle handle => s.setMainHandle stringify getName handle
  | .returned => s.returned stringify getName

end Methods

/-! ## What a run has done -/

/-- The client of a call of `initialize`. -/
def asked : StartupEvent α → Option α
  | .initializeClient client => some client
  | .setMainHandle _ | .returned => none

def handle? : StartupEvent α → Option ℕ
  | .setMainHandle handle => some handle
  | .initializeClient _ | .returned => none

def registration (client : α) : StartupEntry α → Option StatusCall
  | .registered client' statusCall => if client' = client then some statusCall else none
  | .onInitialzed _ => none

def isInitialzed (client : α) : StartupEntry α → Bool
  | .registered .. => false
  | .onInitialzed client' => client' = client

/-- The status registrations of a client. -/
def registrations (s : Startup α) (client : α) : List StatusCall :=
  s.journal.filterMap (registration client)

/-- How often the hook of a client has been called. -/
def initialzed (s : Startup α) (client : α) : ℕ := s.journal.countP (isInitialzed client)

/-- `setMainHandle` has not returned. -/
def draining (s : Startup α) : Bool := s.running.any Initialzing.looped

/-! ## The ledger

`Phase s pending`: the clients `pending` are still to be initialised. -/

inductive Phase (s : Startup α) : List α → Prop
  | waiting : s.mainHandle = none → s.running = [] → Phase s s.deferred
  /-- The loop is at `client`, whose hook is the outermost call. -/
  | draining {handle : ℕ} {rest : List α} {client : α} {calls : List (Initialzing α)} :
    s.mainHandle = some handle → s.deferred = rest ++ [client] →
    s.running = calls ++ [⟨client, true⟩] → (∀ call ∈ calls, call.looped = false) → Phase s rest
  | opened {handle : ℕ} : s.mainHandle = some handle → s.deferred = [] →
    (∀ call ∈ s.running, call.looped = false) → Phase s []

/-- Every client that was asked for is registered, or still to be initialised. -/
structure Ledger (clients pending : List α) (s : Startup α) : Prop where
  registered : ∀ client,
    (s.registrations client).length + pending.count client = clients.count client
  initialzed : ∀ client, s.initialzed client = (s.registrations client).length
  made : ∀ client, ∀ statusCall ∈ s.registrations client,
    s.mainHandle = some statusCall.handle ∧
      statusCall.request = statusRequest stringify (getName client)

variable {stringify getName} {s : Startup α} {clients pending : List α} {client : α} {handle : ℕ}

/-! ### One client -/

theorem initializeClient_none (h : s.mainHandle = none) (client : α) :
    s.initializeClient stringify getName client =
      { s with deferred := s.deferred ++ [client] } := by
  unfold initializeClient
  rw [h]

theorem initializeClient_some (h : s.mainHandle = some handle) (client : α) (looped : Bool) :
    s.initializeClient stringify getName client looped =
      { s with
        statusCall := Function.update s.statusCall client
          (some ⟨handle, statusRequest stringify (getName client)⟩)
        running := ⟨client, looped⟩ :: s.running
        journal := s.journal ++
          [.registered client ⟨handle, statusRequest stringify (getName client)⟩,
            .onInitialzed client] } := by
  unfold initializeClient
  rw [h]

theorem mainHandle_initializeClient (s : Startup α) (client : α) (looped : Bool) :
    (s.initializeClient stringify getName client looped).mainHandle = s.mainHandle := by
  unfold initializeClient
  cases s.mainHandle <;> rfl

theorem registrations_initializeClient (h : s.mainHandle = some handle) (client c : α)
    (looped : Bool) :
    (s.initializeClient stringify getName client looped).registrations c =
      s.registrations c ++
        if client = c then [⟨handle, statusRequest stringify (getName c)⟩] else [] := by
  rw [initializeClient_some h]
  unfold registrations
  rw [List.filterMap_append]
  by_cases hc : client = c
  · subst hc
    simp [registration]
  · simp [registration, hc]

theorem initialzed_initializeClient (h : s.mainHandle = some handle) (client c : α)
    (looped : Bool) :
    (s.initializeClient stringify getName client looped).initialzed c =
      s.initialzed c + if client = c then 1 else 0 := by
  rw [initializeClient_some h]
  unfold initialzed
  rw [List.countP_append]
  by_cases hc : client = c
  · subst hc
    simp [isInitialzed]
  · simp [isInitialzed, hc]

theorem Ledger.initializeClient {clients' pending' : List α}
    (hl : Ledger stringify getName clients pending s) (h : s.mainHandle = some handle)
    (client : α) (looped : Bool)
    (hcount : ∀ c, clients'.count c + pending.count c =
      clients.count c + pending'.count c + if client = c then 1 else 0) :
    Ledger stringify getName clients' pending'
      (s.initializeClient stringify getName client looped) where
  registered c := by
    have hc := hcount c
    have hr := hl.registered c
    rw [registrations_initializeClient h, List.length_append]
    split_ifs at hc ⊢
    · rw [List.length_singleton]; omega
    · rw [List.length_nil]; omega
  initialzed c := by
    rw [registrations_initializeClient h, initialzed_initializeClient h, List.length_append,
      hl.initialzed]
    split_ifs <;> rfl
  made c statusCall hmem := by
    rw [registrations_initializeClient h, List.mem_append] at hmem
    rw [mainHandle_initializeClient]
    rcases hmem with hmem | hmem
    · exact hl.made c statusCall hmem
    · split_ifs at hmem
      · rw [List.mem_singleton.1 hmem]
        exact ⟨h, rfl⟩
      · cases hmem

theorem Ledger.congr {s' : Startup α} {clients' pending' : List α}
    (hl : Ledger stringify getName clients pending s) (hjournal : s'.journal = s.journal)
    (hmain : ∀ handle, s.mainHandle = some handle → s'.mainHandle = some handle)
    (hcount : ∀ c, clients'.count c + pending.count c = clients.count c + pending'.count c) :
    Ledger stringify getName clients' pending' s' := by
  have hreg : ∀ c, s'.registrations c = s.registrations c := fun c => by
    unfold registrations
    rw [hjournal]
  refine ⟨fun c => ?_, fun c => ?_, fun c statusCall hmem => ?_⟩
  · have hc := hcount c
    have hr := hl.registered c
    rw [hreg]
    omega
  · rw [hreg, ← hl.initialzed]
    unfold Startup.initialzed
    rw [hjournal]
  · rw [hreg] at hmem
    obtain ⟨h, hrequest⟩ := hl.made c statusCall hmem
    exact ⟨hmain _ h, hrequest⟩

/-! ### The loop -/

theorem drain_nil (h : s.deferred = []) : s.drain stringify getName = s := by
  unfold drain
  rw [h]
  rfl

theorem drain_concat {rest : List α} (h : s.deferred = rest ++ [client]) :
    s.drain stringify getName = s.initializeClient stringify getName client true := by
  unfold drain
  rw [h, List.getLast?_concat]

theorem ledger_drain (h : s.mainHandle = some handle) (hrunning : s.running = [])
    (hl : Ledger stringify getName clients s.deferred s) :
    ∃ pending, Phase (s.drain stringify getName) pending ∧
      Ledger stringify getName clients pending (s.drain stringify getName) := by
  rcases List.eq_nil_or_concat' s.deferred with hd | ⟨rest, client, hd⟩
  · rw [drain_nil hd]
    refine ⟨[], .opened h hd fun call hmem => ?_, hd ▸ hl⟩
    rw [hrunning] at hmem
    cases hmem
  · rw [drain_concat hd]
    refine ⟨rest, ?_, hl.initializeClient h client true fun c => ?_⟩
    · rw [initializeClient_some h]
      exact .draining h hd (show _ = [] ++ [_] by rw [hrunning]; rfl) fun _ hmem => by cases hmem
    · rw [hd, List.count_append, List.count_singleton]
      simp only [beq_iff_eq]
      omega

/-! ### One step -/

/-- A client that is initialised once there is a handle is registered at once. -/
theorem ledger_initializeClient (hp : Phase s pending)
    (hl : Ledger stringify getName clients pending s) (client : α) :
    ∃ pending', Phase (s.initializeClient stringify getName client) pending' ∧
      Ledger stringify getName (clients ++ [client]) pending'
        (s.initializeClient stringify getName client) := by
  have hone : ∀ c, (clients ++ [client]).count c + pending.count c =
      clients.count c + pending.count c + if client = c then 1 else 0 := fun c => by
    rw [List.count_append, List.count_singleton]
    simp only [beq_iff_eq]
    omega
  cases hp with
  | waiting h hrunning =>
    rw [initializeClient_none h]
    refine ⟨_, .waiting h hrunning, hl.congr rfl (fun _ h => h) fun c => ?_⟩
    simp only [List.count_append]
    omega
  | @draining _ _ _ calls h hd hrunning hcalls =>
    refine ⟨pending, ?_, hl.initializeClient h client false hone⟩
    rw [initializeClient_some h]
    refine .draining h hd (show _ = (⟨client, false⟩ :: calls) ++ [_] by rw [hrunning]; rfl) ?_
    exact List.forall_mem_cons.2 ⟨rfl, hcalls⟩
  | opened h hd hcalls =>
    refine ⟨[], ?_, hl.initializeClient h client false hone⟩
    rw [initializeClient_some h]
    exact .opened h hd (List.forall_mem_cons.2 ⟨rfl, hcalls⟩)

theorem ledger_setMainHandle (hp : Phase s pending)
    (hl : Ledger stringify getName clients pending s) (handle : ℕ) :
    ∃ pending', Phase (s.setMainHandle stringify getName handle) pending' ∧
      Ledger stringify getName clients pending' (s.setMainHandle stringify getName handle) := by
  unfold setMainHandle
  cases hp with
  | waiting h hrunning =>
    rw [if_neg (by rw [h]; decide)]
    refine ledger_drain (s := { s with mainHandle := some handle }) rfl hrunning
      (hl.congr rfl (fun handle' h' => ?_) fun _ => rfl)
    rw [h] at h'
    cases h'
  | draining h hd hrunning hcalls =>
    rw [if_pos (by rw [h]; rfl)]
    exact ⟨_, .draining h hd hrunning hcalls, hl⟩
  | opened h hd hcalls =>
    rw [if_pos (by rw [h]; rfl)]
    exact ⟨_, .opened h hd hcalls, hl⟩

theorem returned_of_nil (h : s.running = []) : s.returned stringify getName = s := by
  unfold returned
  rw [h]

/-- The hook returns that the loop has called. -/
theorem returned_looped (h : s.running = [⟨client, true⟩]) :
    s.returned stringify getName =
      { s with running := [], deferred := s.deferred.dropLast }.drain stringify getName := by
  unfold returned
  rw [h]
  exact if_pos rfl

theorem returned_unlooped {call : Initialzing α} {running : List (Initialzing α)}
    (h : s.running = call :: running) (hlooped : call.looped = false) :
    s.returned stringify getName = { s with running } := by
  unfold returned
  rw [h]
  exact if_neg (by rw [hlooped]; decide)

/-- The loop pops the client it has initialised: nothing has been pushed meanwhile. -/
theorem ledger_returned (hp : Phase s pending) (hl : Ledger stringify getName clients pending s) :
    ∃ pending', Phase (s.returned stringify getName) pending' ∧
      Ledger stringify getName clients pending' (s.returned stringify getName) := by
  have hkeep : ∀ running, Ledger stringify getName clients pending { s with running } :=
    fun running => hl.congr rfl (fun _ h => h) fun _ => rfl
  cases hp with
  | waiting h hrunning =>
    rw [returned_of_nil hrunning]
    exact ⟨_, .waiting h hrunning, hl⟩
  | @draining _ _ _ calls h hd hrunning hcalls =>
    cases calls with
    | nil =>
      rw [returned_looped hrunning]
      refine ledger_drain h rfl (hl.congr rfl (fun _ h => h) fun c => ?_)
      dsimp only
      rw [hd, List.dropLast_concat]
    | cons call calls =>
      rw [returned_unlooped hrunning (hcalls call List.mem_cons_self)]
      exact ⟨pending, .draining h hd rfl fun c hc => hcalls c (List.mem_cons_of_mem _ hc), hkeep _⟩
  | opened h hd hcalls =>
    cases hrunning : s.running with
    | nil =>
      rw [returned_of_nil hrunning]
      exact ⟨[], .opened h hd hcalls, hl⟩
    | cons call running =>
      rw [hrunning] at hcalls
      rw [returned_unlooped hrunning (hcalls call List.mem_cons_self)]
      exact ⟨[], .opened h hd fun c hc => hcalls c (List.mem_cons_of_mem _ hc), hkeep _⟩

theorem ledger_step (hp : Phase s pending) (hl : Ledger stringify getName clients pending s)
    (event : StartupEvent α) :
    ∃ pending', Phase (s.step stringify getName event) pending' ∧
      Ledger stringify getName (clients ++ (asked event).toList) pending'
        (s.step stringify getName event) := by
  cases event with
  | initializeClient client => exact ledger_initializeClient hp hl client
  | setMainHandle handle =>
    rw [asked, Option.toList_none, List.append_nil]
    exact ledger_setMainHandle hp hl handle
  | returned =>
    rw [asked, Option.toList_none, List.append_nil]
    exact ledger_returned hp hl

/-! ### Runs -/

theorem ledger_run (hp : Phase s pending) (hl : Ledger stringify getName clients pending s)
    (events : List (StartupEvent α)) :
    ∃ pending', Phase (run (step stringify getName) s events) pending' ∧
      Ledger stringify getName (clients ++ events.filterMap asked) pending'
        (run (step stringify getName) s events) := by
  induction events generalizing s clients pending with
  | nil => exact ⟨pending, hp, by rwa [List.filterMap_nil, List.append_nil]⟩
  | cons event events ih =>
    obtain ⟨pending', hp', hl'⟩ := ledger_step hp hl event
    have hcons : clients ++ (event :: events).filterMap asked =
        clients ++ (asked event).toList ++ events.filterMap asked := by
      rw [List.filterMap_cons, List.append_assoc]
      cases asked event <;> rfl
    rw [hcons]
    exact ih hp' hl'

theorem ledger_start (stringify : JValue → String) (getName : α → String) :
    Ledger stringify getName [] [] ({} : Startup α) :=
  ⟨fun _ => rfl, fun _ => rfl, fun _ _ hmem => by cases hmem⟩

theorem mainHandle_drain (s : Startup α) :
    (s.drain stringify getName).mainHandle = s.mainHandle := by
  unfold drain
  cases s.deferred.getLast? with
  | none => rfl
  | some client => exact mainHandle_initializeClient s client true

theorem mainHandle_step (s : Startup α) (event : StartupEvent α) :
    (s.step stringify getName event).mainHandle = s.mainHandle.or (handle? event) := by
  cases event with
  | initializeClient client =>
    rw [handle?, Option.or_none]
    exact mainHandle_initializeClient s client false
  | setMainHandle handle =>
    unfold step setMainHandle
    cases h : s.mainHandle with
    | none => exact mainHandle_drain _
    | some handle' => exact h
  | returned =>
    rw [handle?, Option.or_none]
    unfold step returned
    dsimp only
    split
    · rfl
    · split_ifs
      · exact mainHandle_drain _
      · rfl

theorem mainHandle_run (s : Startup α) (events : List (StartupEvent α)) :
    (run (step stringify getName) s events).mainHandle =
      s.mainHandle.or (events.filterMap handle?).head? := by
  induction events generalizing s with
  | nil => exact Option.or_none.symm
  | cons event events ih =>
    rw [List.filterMap_cons]
    refine (ih (s.step stringify getName event)).trans ?_
    rw [mainHandle_step, Option.or_assoc]
    cases s.mainHandle <;> cases handle? event <;> rfl

/-! ## The end of the loop -/

/-- The calls and the pops that are still to come. -/
def left (s : Startup α) : ℕ := s.running.length + s.deferred.length

theorem left_drain_le (h : s.mainHandle = some handle) :
    (s.drain stringify getName).left ≤ s.left + 1 := by
  rcases List.eq_nil_or_concat' s.deferred with hd | ⟨rest, client, hd⟩
  · rw [drain_nil hd]
    exact Nat.le_succ _
  · rw [drain_concat hd, initializeClient_some h]
    simp only [left, List.length_cons]
    omega

/-- A call that returns is not made again. -/
theorem left_returned_lt (hp : Phase s pending) (hrunning : s.running ≠ []) :
    (s.returned stringify getName).left < s.left := by
  cases hp with
  | waiting h hnil => exact absurd hnil hrunning
  | @draining _ _ _ calls h hd hcall hcalls =>
    cases calls with
    | nil =>
      rw [returned_looped hcall]
      refine Nat.lt_of_le_of_lt (left_drain_le h) ?_
      simp only [left, hcall, hd, List.dropLast_concat, List.nil_append, List.length_append,
        List.length_cons, List.length_nil]
      omega
    | cons call calls =>
      rw [returned_unlooped hcall (hcalls call List.mem_cons_self)]
      simp only [left, hcall, List.append_eq, List.cons_append, List.length_cons]
      omega
  | opened h hd hcalls =>
    obtain ⟨call, running, hcall⟩ := List.exists_cons_of_ne_nil hrunning
    rw [hcall] at hcalls
    rw [returned_unlooped hcall (hcalls call List.mem_cons_self)]
    simp only [left, hcall, List.length_cons]
    omega

theorem run_returned_of_nil (h : s.running = []) (n : ℕ) :
    run (step stringify getName) s (List.replicate n .returned) = s := by
  induction n with
  | zero => rfl
  | succ n ih =>
    have hs : s.step stringify getName .returned = s := returned_of_nil h
    rw [List.replicate_succ]
    unfold run at ih ⊢
    rw [List.foldl_cons, hs, ih]

/-- If every call that is going on returns, and does nothing more, no call is left. -/
theorem running_returns (hp : Phase s pending) (hl : Ledger stringify getName clients pending s)
    {n : ℕ} (hn : s.left ≤ n) :
    (run (step stringify getName) s (List.replicate n .returned)).running = [] := by
  induction n generalizing s pending with
  | zero =>
    unfold left at hn
    exact List.length_eq_zero_iff.1 (Nat.eq_zero_of_le_zero (Nat.le_of_add_right_le hn))
  | succ n ih =>
    by_cases hrunning : s.running = []
    · rw [run_returned_of_nil hrunning, hrunning]
    · have hlt : (s.returned stringify getName).left < s.left := left_returned_lt hp hrunning
      obtain ⟨pending', hp', hl'⟩ := ledger_returned hp hl
      exact ih hp' hl' (Nat.le_of_lt_succ (hlt.trans_le hn))

omit [DecidableEq α] in
/-- Once the loop is over, nothing is pending. -/
theorem Phase.settled (hp : Phase s pending) (h : s.mainHandle = some handle)
    (hdraining : s.draining = false) : pending = [] ∧ s.deferred = [] := by
  cases hp with
  | waiting hnone => rw [h] at hnone; cases hnone
  | draining hsome hd hcalls =>
    simp [Startup.draining, hcalls] at hdraining
  | opened hsome hd => exact ⟨rfl, hd⟩

/-- **Every client that is initialised is registered once, on the first handle**, and its hook is
called once, as soon as `setMainHandle` has returned; and it does return. -/
theorem startup_run (stringify : JValue → String) (getName : α → String)
    (events : List (StartupEvent α)) :
    let s := run (step stringify getName) {} events
    (∀ handle, (events.filterMap handle?).head? = some handle → s.draining = false →
      s.deferred = [] ∧ ∀ client,
        s.registrations client = List.replicate ((events.filterMap asked).count client)
          ⟨handle, statusRequest stringify (getName client)⟩ ∧
        s.initialzed client = (events.filterMap asked).count client) ∧
    (run (step stringify getName) s (List.replicate s.left .returned)).running = [] := by
  intro s
  have hstart : Phase ({} : Startup α) [] := .waiting rfl rfl
  obtain ⟨pending, hp, hl⟩ := ledger_run hstart (ledger_start stringify getName) events
  refine ⟨fun handle hfirst hdraining => ?_, running_returns hp hl le_rfl⟩
  have hmain : s.mainHandle = some handle := (mainHandle_run {} events).trans hfirst
  obtain ⟨hpending, hdeferred⟩ := hp.settled hmain hdraining
  refine ⟨hdeferred, fun client => ?_⟩
  have hlength : (s.registrations client).length = (events.filterMap asked).count client := by
    have hr := hl.registered client
    rwa [hpending, List.count_nil, Nat.add_zero] at hr
  refine ⟨List.eq_replicate_iff.2 ⟨hlength, fun statusCall hmem => ?_⟩,
    (hl.initialzed client).trans hlength⟩
  obtain ⟨h, hrequest⟩ := hl.made client statusCall hmem
  have he : handle = statusCall.handle := Option.some_inj.1 (hmain.symm.trans h)
  rw [he, ← hrequest]

/-- The payload of a status registration as text. -/
def statusText (v : JValue) : String :=
  match v.get "serviceName" with
  | some (.str name) => "\x7b\"serviceName\":\"" ++ name ++ "\"\x7d"
  | _ => "null"

/-- Two clients are deferred; the hook of the second makes a third one and brings a handle of its
own, and the first is initialised once more in the end. -/
def nestedRun : List (StartupEvent String) :=
  [.initializeClient "sam", .initializeClient "settings", .setMainHandle 1,
    .initializeClient "db", .setMainHandle 2, .returned, .returned, .returned,
    .initializeClient "sam", .returned]

theorem startup_run_nested :
    let s := run (step statusText id) {} nestedRun
    s.deferred = [] ∧ s.registrations "sam" = List.replicate 2 ⟨1, statusRequest statusText "sam"⟩ ∧
      s.initialzed "sam" = 2 := by
  obtain ⟨hdeferred, hclient⟩ := (startup_run statusText id nestedRun).1 1 rfl (by decide)
  exact ⟨hdeferred, hclient "sam"⟩

end Startup

end UnifiedSearch
