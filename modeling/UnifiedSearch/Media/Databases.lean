import UnifiedSearch.Core.BusClient
import UnifiedSearch.Core.Startup
import UnifiedSearch.Media.DB8Source

/-!
# The instances of `DB8`

`DB8::getDB` keeps one instance for each service, in `s_instances`. The address
that `DB8::find` sends its query to is a static variable: the first find that
passes the check sets it, for every instance there is or will be. So a run sends
each query to the service of its instance iff all of its finds are for one
service (`sendsOwn_run_iff`).
-/

namespace UnifiedSearch

open Lib

/-- `κ` is the type of the closures that `find` gives to `call`. -/
structure DB8 (κ : Type) where
  name : String
  client : BusClient κ := {}

instance {κ : Type} : Inhabited (DB8 κ) := ⟨{ name := "" }⟩

structure Databases (κ : Type) where
  /-- `DB8::s_instances` -/
  instances : OrdMap String ℕ := .empty
  /-- The static variable of `DB8::find`. -/
  method : Option String := none
  dbs : Heap (DB8 κ) := .empty
  startup : Startup ℕ := {}
  /-- What `getDB` has been called with, and what it returned. -/
  obtained : List (String × ℕ) := []

inductive DBEvent (κ : Type) where
  | getDB (service : String)
  | find (db : ℕ) (kind key value : String) (callback : κ)
  | setMainHandle (handle : ℕ)
  /-- The hook returns that the loop of `setMainHandle` has called. -/
  | returned
  /-- What else happens to the client that an instance is. -/
  | bus (db : ℕ) (event : BusEvent κ)

namespace Databases

variable {κ : Type} (env : Env) (s : Databases κ)

def name (p : ℕ) : String := (s.dbs.cell p).name

def client (p : ℕ) : BusClient κ := (s.dbs.cell p).client

def setClient (p : ℕ) (f : BusClient κ → BusClient κ) : Databases κ :=
  { s with dbs := s.dbs.modify p fun db => { db with client := f db.client } }

/-- `LunaClient::initialize` of an instance, whose hook does nothing. -/
def initializeDB (p : ℕ) : Databases κ :=
  let startup := s.startup.initializeClient env.stringify s.name p
  { s with startup :=
    if s.startup.mainHandle.isSome then startup.returned env.stringify s.name else startup }

/-- `DB8::getDB` -/
def getDB (service : String) : ℕ × Databases κ :=
  match s.instances.find service with
  | some dbPtr => (dbPtr, s)
  | none =>
    let (dbPtr, dbs) := s.dbs.alloc { name := service }
    let s := { s with dbs }.initializeDB env dbPtr
    (dbPtr, { s with instances := s.instances.insert service dbPtr })

/-- `DB8::find` -/
def find (p : ℕ) (kind key value : String) (callback : κ) : Bool × Databases κ :=
  if !(s.client p).isConnected then (false, s) else
  let method := s.method.getD (DB8.address (s.name p))
  let payload := env.stringify (DB8.findPayload kind key value)
  (true, { s with method := some method }.setClient p fun client =>
    (client.call method payload (some callback)).2)

/-- The bus knows a client from the registration on. -/
def reaches (p : ℕ) : BusEvent κ → Bool
  | .serverStatus _ => p < s.dbs.next && (s.startup.statusCall p).isSome
  | _ => p < s.dbs.next

def step : DBEvent κ → Databases κ
  | .getDB service =>
    let (p, s') := s.getDB env service
    { s' with obtained := s'.obtained ++ [(service, p)] }
  | .find p kind key value callback =>
    if p < s.dbs.next then (s.find env p kind key value callback).2 else s
  | .setMainHandle handle =>
    { s with startup := s.startup.setMainHandle env.stringify s.name handle }
  | .returned => { s with startup := s.startup.returned env.stringify s.name }
  | .bus p event => if s.reaches p event then s.setClient p fun client => client.step event else s

/-! ## The queries -/

/-- A find on a connected instance that was obtained for a service sends its query there. -/
def SendsOwn : DBEvent κ → Prop
  | .find p kind key value callback =>
    ∀ service, (service, p) ∈ s.obtained → (s.client p).isConnected = true →
      (((s.step env (.find p kind key value callback)).client p).calls.cell
        (s.client p).calls.next).request =
          { method := DB8.address service
            payload := env.stringify (DB8.findPayload kind key value)
            multiReply := false }
  | _ => True

/-- The service of the instance, where an event is a find that passes the check. -/
def serves : DBEvent κ → Option String
  | .find p _ _ _ _ =>
    if p < s.dbs.next ∧ (s.client p).isConnected = true then some (s.name p) else none
  | _ => none

/-- The services that a run's finds are for. -/
def served (s : Databases κ) : List (DBEvent κ) → List String
  | [] => []
  | event :: events => (s.serves event).toList ++ served (s.step env event) events

/-! ## The registry -/

/-- One instance for each service, the one that `getDB` returns for it. -/
structure Registered (s : Databases κ) : Prop where
  find_iff : ∀ service p, s.instances.find service = some p ↔ p < s.dbs.next ∧ s.name p = service
  obtained_iff : ∀ service p, (service, p) ∈ s.obtained ↔ s.instances.find service = some p

variable {env} {s} {s' : Databases κ} {p : ℕ} {service : String}

theorem Registered.start : Registered ({} : Databases κ) where
  find_iff service p := by
    rw [OrdMap.find_empty]
    exact ⟨fun h => (by cases h), fun h => absurd h.1 (Nat.not_lt_zero p)⟩
  obtained_iff service p := by
    rw [OrdMap.find_empty]
    exact ⟨fun h => (by cases h), fun h => (by cases h)⟩

theorem Registered.congr (h : Registered s) (hinstances : s'.instances = s.instances)
    (hnext : s'.dbs.next = s.dbs.next) (hname : s'.name = s.name)
    (hobtained : s'.obtained = s.obtained) : Registered s' where
  find_iff := by rw [hinstances, hnext, hname]; exact h.find_iff
  obtained_iff := by rw [hinstances, hobtained]; exact h.obtained_iff

theorem Registered.obtained_of_lt (h : Registered s) (hp : p < s.dbs.next) :
    (service, p) ∈ s.obtained ↔ s.name p = service := by
  rw [h.obtained_iff, h.find_iff]
  exact and_iff_right hp

theorem name_setClient (s : Databases κ) (p : ℕ) (f : BusClient κ → BusClient κ) :
    (s.setClient p f).name = s.name := by
  funext q
  unfold setClient name
  dsimp only
  rw [Heap.cell_modify]
  split_ifs with hq
  · rw [hq]
  · rfl

theorem Registered.setClient (h : Registered s) (p : ℕ) (f : BusClient κ → BusClient κ) :
    Registered (s.setClient p f) :=
  h.congr rfl rfl (name_setClient s p f) rfl

theorem getDB_some (hfind : s.instances.find service = some p) :
    s.getDB env service = (p, s) := by
  unfold getDB
  rw [hfind]

theorem getDB_none (env : Env) (hfind : s.instances.find service = none) :
    (s.getDB env service).1 = s.dbs.next ∧
      (s.getDB env service).2.instances = s.instances.insert service s.dbs.next ∧
      (s.getDB env service).2.dbs = (s.dbs.alloc { name := service }).2 ∧
      (s.getDB env service).2.obtained = s.obtained := by
  unfold getDB
  rw [hfind]
  exact ⟨rfl, rfl, rfl, rfl⟩

theorem step_getDB (env : Env) (s : Databases κ) (service : String) :
    s.step env (.getDB service) =
      { (s.getDB env service).2 with
        obtained :=
          (s.getDB env service).2.obtained ++ [(service, (s.getDB env service).1)] } := rfl

theorem Registered.getDB_some (h : Registered s) (hfind : s.instances.find service = some p) :
    Registered (s.step env (.getDB service)) := by
  rw [step_getDB, Databases.getDB_some hfind]
  refine ⟨h.find_iff, fun service' q => ?_⟩
  rw [List.mem_append, h.obtained_iff, List.mem_singleton, Prod.mk.injEq]
  refine ⟨?_, .inl⟩
  rintro (hq | ⟨rfl, rfl⟩)
  · exact hq
  · exact hfind

theorem Registered.getDB_none (h : Registered s) (hfind : s.instances.find service = none) :
    Registered (s.step env (.getDB service)) := by
  obtain ⟨hp, hinstances, hdbs, hobtained⟩ := Databases.getDB_none env hfind
  rw [step_getDB, hp]
  have hfind_iff : ∀ service' q, (s.getDB env service).2.instances.find service' = some q ↔
      s.instances.find service' = some q ∨ service' = service ∧ q = s.dbs.next := by
    intro service' q
    rw [hinstances, OrdMap.find_insert hfind]
    by_cases hs : service' = service
    · subst hs
      rw [if_pos rfl, hfind]
      simp [eq_comm]
    · simp [hs]
  have hname : ∀ q, (s.getDB env service).2.name q =
      if q = s.dbs.next then service else s.name q := fun q => by
    unfold name
    rw [hdbs]
    show (if q = s.dbs.next then _ else _ : DB8 κ).name = _
    split_ifs <;> rfl
  have hnext : (s.getDB env service).2.dbs.next = s.dbs.next + 1 := by rw [hdbs]; rfl
  refine ⟨fun service' q => ?_, fun service' q => ?_⟩
  · show (s.getDB env service).2.instances.find service' = some q ↔
      q < (s.getDB env service).2.dbs.next ∧ (s.getDB env service).2.name q = service'
    rw [hfind_iff, h.find_iff, hnext, hname]
    by_cases hq : q = s.dbs.next
    · subst hq
      simp [eq_comm]
    · have hlt : q < s.dbs.next + 1 ↔ q < s.dbs.next := by omega
      rw [hlt, if_neg hq]
      exact or_iff_left fun h => hq h.2
  · dsimp only
    rw [hfind_iff, hobtained, List.mem_append, h.obtained_iff, List.mem_singleton, Prod.mk.injEq]

theorem find_connected (hconn : (s.client p).isConnected = true) (kind key value : String)
    (callback : κ) :
    (s.find env p kind key value callback).2 =
      { s with method := some (s.method.getD (DB8.address (s.name p))) }.setClient p fun client =>
        (client.call (s.method.getD (DB8.address (s.name p)))
          (env.stringify (DB8.findPayload kind key value)) (some callback)).2 := by
  unfold find
  rw [if_neg (by rw [hconn]; decide)]

theorem find_disconnected (hconn : (s.client p).isConnected = false) (kind key value : String)
    (callback : κ) : (s.find env p kind key value callback).2 = s := by
  unfold find
  rw [if_pos (by rw [hconn]; rfl)]

/-- A session runs the same body, for the client of a service and the variable of the process. -/
theorem issue_find {m : Session} (hmethod : m.method = s.method)
    (hconn : (m.clients (s.name p)).isConnected = (s.client p).isConnected)
    (kind key value : String) (databaseCB : DatabaseCB) (callback : κ) (q : ℕ) :
    (m.issue env (s.name p) kind key value databaseCB q).1 =
        (s.find env p kind key value callback).1 ∧
      (m.issue env (s.name p) kind key value databaseCB q).2.method =
        (s.find env p kind key value callback).2.method := by
  unfold Session.issue find
  rw [hconn, hmethod]
  cases (s.client p).isConnected with
  | true => exact ⟨rfl, rfl⟩
  | false => exact ⟨rfl, hmethod⟩

theorem Registered.step (h : Registered s) (event : DBEvent κ) :
    Registered (s.step env event) := by
  cases event with
  | getDB service =>
    cases hfind : s.instances.find service with
    | none => exact h.getDB_none hfind
    | some p => exact h.getDB_some hfind
  | find p kind key value callback =>
    unfold Databases.step
    dsimp only
    split_ifs
    · cases hconn : (s.client p).isConnected with
      | true =>
        have hset : Registered { s with
            method := some (s.method.getD (DB8.address (s.name p))) } := h.congr rfl rfl rfl rfl
        rw [find_connected hconn]
        exact hset.setClient p _
      | false => rwa [find_disconnected hconn]
    · exact h
  | setMainHandle handle => exact h.congr rfl rfl rfl rfl
  | returned => exact h.congr rfl rfl rfl rfl
  | bus p event =>
    unfold Databases.step
    dsimp only
    split_ifs
    · exact h.setClient p _
    · exact h

/-! ## The address -/

theorem method_getDB (env : Env) (s : Databases κ) (service : String) :
    (s.getDB env service).2.method = s.method := by
  unfold getDB
  cases s.instances.find service <;> rfl

/-- Only a find that passes the check sets the static variable, and only once. -/
theorem method_step (env : Env) (s : Databases κ) (event : DBEvent κ) :
    (s.step env event).method = s.method.or ((s.serves event).map DB8.address) := by
  cases event with
  | getDB service => exact (method_getDB env s service).trans Option.or_none.symm
  | find p kind key value callback =>
    unfold step serves
    dsimp only
    by_cases hp : p < s.dbs.next
    · rw [if_pos hp]
      cases hconn : (s.client p).isConnected with
      | true =>
        rw [find_connected hconn, if_pos ⟨hp, rfl⟩]
        cases hm : s.method <;> simp [setClient]
      | false =>
        rw [find_disconnected hconn, if_neg (by simp)]
        exact Option.or_none.symm
    · rw [if_neg hp, if_neg (fun h => hp h.1)]
      exact Option.or_none.symm
  | setMainHandle handle => exact Option.or_none.symm
  | returned => exact Option.or_none.symm
  | bus p event =>
    unfold step
    dsimp only
    split_ifs <;> exact Option.or_none.symm

theorem client_setClient_self (s : Databases κ) (p : ℕ) (f : BusClient κ → BusClient κ) :
    (s.setClient p f).client p = f (s.client p) := by
  unfold setClient client
  rw [Heap.cell_modify_self]

theorem sendsOwn_find (h : Registered s) (hp : p < s.dbs.next)
    (hconn : (s.client p).isConnected = true) (kind key value : String) (callback : κ) :
    s.SendsOwn env (.find p kind key value callback) ↔
      s.method.getD (DB8.address (s.name p)) = DB8.address (s.name p) := by
  have hrequest : (((s.step env (.find p kind key value callback)).client p).calls.cell
      (s.client p).calls.next).request =
        { method := s.method.getD (DB8.address (s.name p))
          payload := env.stringify (DB8.findPayload kind key value)
          multiReply := false } := by
    unfold step
    dsimp only
    rw [if_pos hp, find_connected hconn, client_setClient_self]
    exact (s.client p).request_call hconn _ _ (some callback) false
  unfold SendsOwn
  dsimp only
  rw [hrequest]
  constructor
  · intro hown
    exact congrArg BusCall.method (hown (s.name p) ((h.obtained_of_lt hp).2 rfl) hconn)
  · intro hown service hservice _
    rw [hown, (h.obtained_of_lt hp).1 hservice]

theorem address_injective : Function.Injective DB8.address := by
  intro a b hab
  unfold DB8.address at hab
  exact (String.append_right_inj _).1 ((String.append_left_inj _).1 hab)

theorem sendsOwn_of_serves_none (h : Registered s) {event : DBEvent κ}
    (hserves : s.serves event = none) : s.SendsOwn env event := by
  cases event with
  | find p kind key value callback =>
    intro service hservice hconn
    have hp : p < s.dbs.next := ((h.find_iff _ _).1 ((h.obtained_iff _ _).1 hservice)).1
    dsimp only [serves] at hserves
    rw [if_pos ⟨hp, hconn⟩] at hserves
    cases hserves
  | getDB service => trivial
  | setMainHandle handle => trivial
  | returned => trivial
  | bus p event => trivial

/-- A find that is for a service sends its query there iff the variable is not set, or set by a
find for the same service. -/
theorem sendsOwn_of_serves (h : Registered s) {event : DBEvent κ}
    (hserves : s.serves event = some service) :
    s.SendsOwn env event ↔ s.method.getD (DB8.address service) = DB8.address service := by
  cases event with
  | find p kind key value callback =>
    dsimp only [serves] at hserves
    split_ifs at hserves with hfind
    obtain rfl := Option.some_inj.1 hserves
    exact sendsOwn_find h hfind.1 hfind.2 kind key value callback
  | getDB service => cases hserves
  | setMainHandle handle => cases hserves
  | returned => cases hserves
  | bus p event => cases hserves

/-! ## Runs -/

theorem served_cons_none {event : DBEvent κ} (hserves : s.serves event = none)
    (events : List (DBEvent κ)) :
    served env s (event :: events) = served env (s.step env event) events := by
  rw [served, hserves]
  rfl

theorem served_cons_some {event : DBEvent κ} (hserves : s.serves event = some service)
    (events : List (DBEvent κ)) :
    served env s (event :: events) = service :: served env (s.step env event) events := by
  rw [served, hserves]
  rfl

/-- Once the variable is set, each query goes to its own service iff all are for the one that the
variable names. -/
theorem sendsOwn_run_of_set (h : Registered s) (hmethod : s.method = some (DB8.address service))
    (events : List (DBEvent κ)) :
    Each (step env) (SendsOwn env) s events ↔ ∀ a ∈ served env s events, a = service := by
  induction events generalizing s with
  | nil => exact ⟨fun _ a ha => (by cases ha), fun _ => trivial⟩
  | cons event events ih =>
    have hmethod' : (s.step env event).method = some (DB8.address service) := by
      rw [method_step, hmethod]
      rfl
    have htail := ih (h.step event) hmethod'
    cases hserves : s.serves event with
    | none =>
      rw [served_cons_none hserves, ← htail]
      exact and_iff_right (sendsOwn_of_serves_none h hserves)
    | some a =>
      rw [served_cons_some hserves, List.forall_mem_cons, ← htail]
      refine and_congr_left' ?_
      rw [sendsOwn_of_serves h hserves, hmethod, Option.getD_some, address_injective.eq_iff]
      exact eq_comm

theorem sendsOwn_run_of_unset (h : Registered s) (hmethod : s.method = none)
    (events : List (DBEvent κ)) :
    Each (step env) (SendsOwn env) s events ↔
      ∀ a ∈ served env s events, ∀ b ∈ served env s events, a = b := by
  induction events generalizing s with
  | nil => exact ⟨fun _ a ha => (by cases ha), fun _ => trivial⟩
  | cons event events ih =>
    have hstep := method_step env s event
    cases hserves : s.serves event with
    | none =>
      rw [hserves, hmethod] at hstep
      rw [served_cons_none hserves, ← ih (h.step event) hstep]
      exact and_iff_right (sendsOwn_of_serves_none h hserves)
    | some service =>
      rw [hserves, hmethod] at hstep
      have hown : s.SendsOwn env event := (sendsOwn_of_serves h hserves).2 (by rw [hmethod]; rfl)
      have htail : Each (step env) (SendsOwn env) (s.step env event) events ↔
          ∀ a ∈ served env (s.step env event) events, a = service :=
        sendsOwn_run_of_set (h.step event) hstep events
      rw [served_cons_some hserves]
      constructor
      · rintro ⟨-, hrest⟩
        have hall : ∀ a ∈ service :: served env (s.step env event) events, a = service :=
          List.forall_mem_cons.2 ⟨rfl, htail.1 hrest⟩
        exact fun a ha b hb => (hall a ha).trans (hall b hb).symm
      · intro hall
        refine ⟨hown, htail.2 fun a ha => ?_⟩
        exact hall a (List.mem_cons_of_mem _ ha) service List.mem_cons_self

/-- **Every query goes to the service of its instance iff all the finds of the run are for one
service.** -/
theorem sendsOwn_run_iff (env : Env) (events : List (DBEvent κ)) :
    Each (step env) (SendsOwn env) {} events ↔
      ∀ a ∈ served env {} events, ∀ b ∈ served env {} events, a = b :=
  sendsOwn_run_of_unset .start rfl events

/-- Two databases that come up, each with a find. -/
def twoServices : List (DBEvent Unit) :=
  let up : BusEvent Unit := .serverStatus (JValue.object.put "connected" (.bool true))
  [.setMainHandle 1, .getDB "com.webos.mediadb", .getDB "com.webos.service.db",
    .bus 0 up, .bus 1 up, .find 0 "audio:1" "title" "a" (), .find 1 "contacts:1" "name" "a" ()]

/-- The query for the second service goes to the first. -/
theorem not_sendsOwn_twoServices :
    ¬Each (step Env.sample) (SendsOwn Env.sample) {} twoServices := by
  intro h
  obtain ⟨-, -, -, -, -, -, hfind, -⟩ := h
  have hrequest := hfind "com.webos.service.db" (by decide) (by decide)
  exact absurd (congrArg BusCall.method hrequest) (by decide)

end Databases

end UnifiedSearch
