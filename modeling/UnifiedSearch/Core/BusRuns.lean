import UnifiedSearch.Core.BusHistory
import UnifiedSearch.Lib.Runs

/-!
# Runs of a client at the bus

`Tracks` is the invariant of a run: the two maps, the task objects and the live
calls are those of the pending requests of the journal. What holds of the maps,
of the callbacks and of a cancel is read off it.
-/

namespace UnifiedSearch

open Lib
open scoped List

variable {κ : Type}

namespace BusClient

structure Tracks (s : BusClient κ) : Prop where
  history : History s.journal s.calls.next s.tasks.next s.callId
  callMap : s.callMap.Indexes (Pending s.journal) Issued.id Issued.handle
  taskMap : s.taskMap.Indexes (Pending s.journal) Issued.id Issued.task
  held : ∀ q, Pending s.journal q → (s.tasks.read q.task).isSome
  tasks : ∀ p task, s.tasks.read p = some task → ∃ q, Pending s.journal q ∧ q.task = p ∧
    task.id = q.id ∧ task.isSubscribe = q.isSubscribe
  live : ∀ handle, (s.calls.cell handle).live → ∃ q, Pending s.journal q ∧ q.handle = handle ∧
    (s.calls.cell handle).context = q.task ∧
    (s.calls.cell handle).request.multiReply = q.isSubscribe ∧
    (q.isSubscribe = false → .ran q.task ∉ s.journal)

/-- The client without a request. -/
def without (s : BusClient κ) (q : Issued) : BusClient κ :=
  { s with
    callMap := s.callMap.erase q.id
    taskMap := s.taskMap.erase q.id
    tasks := s.tasks.close q.task
    calls := s.calls.modify q.handle BusEntry.kill }

theorem live_kill {calls : Heap BusEntry} {h h' : ℕ}
    (hlive : ((calls.modify h BusEntry.kill).cell h').live) :
    h' ≠ h ∧ (calls.modify h BusEntry.kill).cell h' = calls.cell h' := by
  by_cases he : h' = h
  · rw [Heap.cell_modify, if_pos he] at hlive
    cases hlive
  · exact ⟨he, if_neg he⟩

namespace Tracks

variable {s : BusClient κ} {q : Issued} {e : Entry} {p : ℕ}

theorem init : Tracks ({} : BusClient κ) where
  history := by constructor <;> simp [callsSince]
  callMap := OrdMap.indexes_empty fun q h => absurd h.called (by simp)
  taskMap := OrdMap.indexes_empty fun q h => absurd h.called (by simp)
  held q h := absurd h.called (by simp)
  tasks p task h := by cases h
  live h hl := by cases hl

theorem cancel_none {id : ℕ} (h : s.callMap.find id = none) : s.cancel id = (false, s) := by
  rw [cancel, h]

theorem destroyCall (h : Tracks s) {handle : ℕ} : Tracks (s.destroyCall handle) where
  history := h.history
  callMap := h.callMap
  taskMap := h.taskMap
  held := h.held
  tasks := h.tasks
  live h' hl := by
    obtain ⟨-, he⟩ := live_kill hl
    have hold : (s.calls.cell h').live := by rw [← he]; exact hl
    obtain ⟨q, hq⟩ := h.live h' hold
    exact ⟨q, by rw [BusClient.destroyCall, he]; exact hq⟩

variable (h : Tracks s)

include h

theorem read (hq : Pending s.journal q) : ∃ task, s.tasks.read q.task = some task ∧
    task.id = q.id ∧ task.isSubscribe = q.isSubscribe := by
  obtain ⟨task, hread⟩ := Option.isSome_iff_exists.1 (h.held q hq)
  obtain ⟨q', hq', ht, hid, hsub⟩ := h.tasks _ task hread
  cases h.history.distinct q' q hq'.called hq.called (.inr ht)
  exact ⟨task, hread, hid, hsub⟩

/-! ### One request goes -/

theorem cancel_eq (hq : Pending s.journal q) :
    s.cancel q.id = (true, (s.without q).note (.cancelled q.handle)) := by
  have hc := h.callMap.find hq
  have ht := h.taskMap.find hq
  simp only [cancel, hc, BusClient.destroyCall, eraseCall, eraseTask, ht, Heap.modify_modify,
    destroyTask, without]
  rfl

theorem responded_eq (hq : Pending s.journal q) : s.responded q.task =
    if q.isSubscribe then s else (s.without q).note (.closed q.handle) := by
  obtain ⟨task, ht, hid, hsub⟩ := h.read hq
  have hfc := h.callMap.find hq
  have hft := h.taskMap.find hq
  rw [responded, ht]
  simp only [hid, hsub]
  cases q.isSubscribe with
  | true => rfl
  | false =>
    simp only [hfc, eraseCall, BusClient.destroyCall, eraseTask, hft, destroyTask, without]
    rfl

theorem without (hq : Pending s.journal q) (he : e = .cancelled q.handle ∨ e = .closed q.handle) :
    Tracks ((s.without q).note e) := by
  have hcalled : ∀ q', e ≠ .called q' := by rcases he with rfl | rfl <;> rintro _ ⟨⟩
  have hstatus : ∀ c, e ≠ .status c := by rcases he with rfl | rfl <;> rintro _ ⟨⟩
  have hran : ∀ p, Entry.ran p ≠ e := by rcases he with rfl | rfl <;> rintro _ ⟨⟩
  have hpending : ∀ q', Pending (s.journal ++ [e]) q' ↔ Pending s.journal q' ∧ q' ≠ q := by
    intro q'
    rw [pending_concat hcalled hstatus]
    refine and_congr_right fun hq' => ?_
    constructor
    · rintro ⟨hc, hd⟩ rfl
      exact he.elim hc hd
    · intro hne
      have hh : q'.handle ≠ q.handle := fun hh =>
        hne (h.history.distinct q' q hq'.called hq.called (.inl hh))
      rcases he with rfl | rfl
      · exact ⟨fun e => hh (Entry.cancelled.inj e).symm, by rintro ⟨⟩⟩
      · exact ⟨by rintro ⟨⟩, fun e => hh (Entry.closed.inj e).symm⟩
  have hone : ∀ q', Pending s.journal q' → q'.id = q.id → q' = q :=
    fun q' hq' hid => h.history.eq_of_id hq' hq hid
  have htask : ∀ q', Pending s.journal q' → q' ≠ q → q'.task ≠ q.task := fun q' hq' hne ht =>
    hne (h.history.distinct q' q hq'.called hq.called (.inr ht))
  constructor
  case history =>
    refine h.history.concat hcalled ?_ (fun p hp => absurd hp.symm (hran p)) ?_ (.inl rfl)
    · intro h' he'
      have : h' = q.handle := by rcases he with rfl | rfl <;> simpa using he'.imp Eq.symm Eq.symm
      rw [this]
      exact (h.history.called_lt q hq.called).1
    · refine h.history.callId_eq.trans ?_
      rcases he with rfl | rfl <;> simp [callsSince]
  case callMap => exact h.callMap.erase hone hpending
  case taskMap => exact h.taskMap.erase hone hpending
  case held =>
    intro q' hq'
    obtain ⟨hq', hne⟩ := (hpending q').1 hq'
    have : (s.tasks.close q.task).read q'.task = s.tasks.read q'.task :=
      if_neg (htask q' hq' hne)
    exact (congrArg Option.isSome this).trans (h.held q' hq')
  case tasks =>
    intro p task hread
    by_cases hp : p = q.task
    · have : (s.tasks.close q.task).read p = none := if_pos hp
      cases this.symm.trans hread
    · obtain ⟨q', hq', rfl, hid, hsub⟩ := h.tasks p task ((if_neg hp).symm.trans hread)
      exact ⟨q', (hpending q').2 ⟨hq', fun e => hp (congrArg Issued.task e)⟩, rfl, hid, hsub⟩
  case live =>
    intro h' hl
    obtain ⟨hne, hcell⟩ := live_kill hl
    obtain ⟨q', hq', rfl, hctx, hmulti, hno⟩ := h.live h' (by rw [← hcell]; exact hl)
    refine ⟨q', (hpending q').2 ⟨hq', fun e => hne (congrArg Issued.handle e)⟩, rfl, ?_, ?_, ?_⟩
    · exact (congrArg BusEntry.context hcell).trans hctx
    · exact (congrArg (fun entry => entry.request.multiReply) hcell).trans hmulti
    · intro hsub hm
      exact hno hsub ((mem_concat_of_ne (hran _)).1 hm)

/-! ### The other entries -/

/-- An entry that leaves the pending requests as they are. -/
theorem noted (hhist : History (s.journal ++ [e]) s.calls.next s.tasks.next s.callId)
    (hpending : ∀ q, Pending (s.journal ++ [e]) q ↔ Pending s.journal q)
    (hran : ∀ q, Pending s.journal q → q.isSubscribe = false → (s.calls.cell q.handle).live →
      e ≠ .ran q.task) {running : Option ℕ} : Tracks ({ s with running }.note e) where
  history := hhist
  callMap := h.callMap.congr hpending
  taskMap := h.taskMap.congr hpending
  held q hq := h.held q ((hpending q).1 hq)
  tasks p task hread := by
    obtain ⟨q, hq, hrest⟩ := h.tasks p task hread
    exact ⟨q, (hpending q).2 hq, hrest⟩
  live h' hl := by
    obtain ⟨q, hq, rfl, hc, hm, hno⟩ := h.live h' hl
    refine ⟨q, (hpending q).2 hq, rfl, hc, hm, fun hsub he => hno hsub ?_⟩
    exact (mem_concat_of_ne (hran q hq hsub hl).symm).1 he

theorem dangling : Tracks (s.note .dangling) := by
  refine h.noted (h.history.concat (by nofun) ?_ (by nofun) ?_ (.inl rfl)) ?_ (by nofun)
  · rintro _ (e | e) <;> cases e
  · rw [h.history.callId_eq]; simp [callsSince]
  · intro q
    rw [pending_concat (by rintro _ ⟨⟩) (by rintro _ ⟨⟩)]
    exact and_iff_left ⟨by rintro ⟨⟩, by rintro ⟨⟩⟩

/-- The callback of a pending request runs; a request for one reply is answered by then. -/
theorem ran (hq : Pending s.journal q) {running : Option ℕ}
    (hone : q.isSubscribe = false →
      .ran q.task ∉ s.journal ∧ ¬ (s.calls.cell q.handle).live) :
    Tracks ({ s with running }.note (.ran q.task)) := by
  refine h.noted (h.history.concat (by nofun) ?_ ?_ ?_ (.inl rfl)) ?_ ?_
  · rintro _ (e | e) <;> cases e
  · rintro p hp
    exact ⟨q, hq, Entry.ran.inj hp, fun hsub => (hone hsub).1⟩
  · rw [h.history.callId_eq]; simp [callsSince]
  · intro q'
    rw [pending_concat (by rintro _ ⟨⟩) (by rintro _ ⟨⟩)]
    exact and_iff_left ⟨by rintro ⟨⟩, by rintro ⟨⟩⟩
  · intro q' hq' hsub hl he
    cases h.history.distinct q' q hq'.called hq.called (.inr (Entry.ran.inj he).symm)
    exact (hone hsub).2 hl

theorem responded : Tracks (s.responded p) := by
  cases hread : s.tasks.read p with
  | none =>
    rw [BusClient.responded, hread]
    exact h.dangling
  | some task =>
    obtain ⟨q, hq, rfl, -⟩ := h.tasks p task hread
    rw [h.responded_eq hq]
    split
    · exact h
    · exact h.without hq (.inr rfl)

theorem onServerStatus {payload : JValue} : Tracks (s.onServerStatus payload) := by
  unfold BusClient.onServerStatus
  split
  · rename_i c _
    have hnone : ∀ q, ¬ Pending (s.journal ++ [.status c]) q := fun q => not_pending_status
    constructor
    case history =>
      have hist : History (s.journal ++ [.status c]) s.calls.next s.tasks.next 0 :=
        h.history.concat (by nofun) (by rintro _ (e | e) <;> cases e) (by nofun)
          (by simp [callsSince]) (.inr ⟨c, rfl⟩)
      simpa only [note, clearTasks, clearCalls, Scope.next_foldl_close,
        Heap.next_foldl_modify] using hist
    case callMap => exact OrdMap.indexes_empty hnone
    case taskMap => exact OrdMap.indexes_empty hnone
    case held => exact fun q hq => absurd hq (hnone q)
    case tasks =>
      intro p task hread
      replace hread := (Scope.read_foldl_close s.taskMap.values).symm.trans hread
      split_ifs at hread with hp
      obtain ⟨q, hq, rfl, -⟩ := h.tasks p task hread
      exact absurd (OrdMap.mem_values_iff.2 ⟨_, h.taskMap.find hq⟩) hp
    case live =>
      intro h' hl
      have hcell := Heap.cell_foldl_modify (h := s.calls) (p := h') (f := BusEntry.kill)
        (fun _ => rfl) s.callMap.values
      have hl' : (if h' ∈ s.callMap.values then (s.calls.cell h').kill
          else s.calls.cell h').live := by rw [← hcell]; exact hl
      split_ifs at hl' with hp
      · cases hl'
      · obtain ⟨q, hq, rfl, -⟩ := h.live h' hl'
        exact absurd (OrdMap.mem_values_iff.2 ⟨_, h.callMap.find hq⟩) hp
  · exact h

theorem find_next : s.callMap.find (s.callId + 1) = none ∧
    s.taskMap.find (s.callId + 1) = none := by
  rw [← Option.not_isSome_iff_eq_none, ← Option.not_isSome_iff_eq_none, h.callMap.isSome_find,
    h.taskMap.isSome_find, and_self]
  rintro ⟨q, hq, hid⟩
  have := (h.history.id_range hq).2
  omega

/-- What a call does: the maps and the journal get the new request. -/
theorem call_eq {method payload : String} {callback : Option κ} {subscribe : Bool}
    (hconn : s.isConnected = true) (hb : s.callId + 1 < 2 ^ 64) :
    s.call method payload callback subscribe = (s.callId + 1, { s with
      callId := s.callId + 1
      callMap := s.callMap.insert (s.callId + 1) s.calls.next
      taskMap := s.taskMap.insert (s.callId + 1) s.tasks.next
      tasks := (s.tasks.declare ⟨s.callId + 1, callback, subscribe⟩).2
      calls := (s.calls.alloc ⟨⟨method, payload, subscribe⟩, s.tasks.next, true⟩).2
      journal := s.journal ++
        [.called ⟨s.callId + 1, s.calls.next, s.tasks.next, subscribe⟩] }) := by
  obtain ⟨hc, ht⟩ := h.find_next
  simp only [BusClient.call, hconn, Nat.mod_eq_of_lt hb, insertCall, hc, insertTask, ht,
    Bool.not_true, Bool.false_eq_true, Option.isSome_none, if_false]
  rfl

theorem callId_lt {method payload : String} {callback : Option κ} {subscribe : Bool}
    (hconn : s.isConnected = true)
    (hb : callsSince (s.call method payload callback subscribe).2.journal < 2 ^ 64) :
    s.callId + 1 < 2 ^ 64 := by
  obtain ⟨q, hj⟩ : ∃ q, (s.call method payload callback subscribe).2.journal =
      s.journal ++ [.called q] := by
    simp only [BusClient.call, hconn, Bool.not_true, Bool.false_eq_true, if_false, note,
      journal_insertCall, journal_insertTask]
    exact ⟨_, rfl⟩
  rw [hj, callsSince, List.foldl_concat] at hb
  rw [h.history.callId_eq]
  exact hb

theorem call {method payload : String} {callback : Option κ} {subscribe : Bool}
    (hb : callsSince (s.call method payload callback subscribe).2.journal < 2 ^ 64) :
    Tracks (s.call method payload callback subscribe).2 := by
  cases hconn : s.isConnected with
  | false =>
    rw [BusClient.call, hconn]
    exact h
  | true =>
    rw [h.call_eq hconn (h.callId_lt hconn hb)]
    let issued : Issued := ⟨s.callId + 1, s.calls.next, s.tasks.next, subscribe⟩
    have hpending : ∀ q, Pending (s.journal ++ [.called issued]) q ↔
        Pending s.journal q ∨ q = issued := fun q => h.history.pending_called rfl
    have hfree : ∀ q, Pending s.journal q → q.id ≠ s.callId + 1 := fun q hq hid => by
      have := (h.history.id_range hq).2
      omega
    constructor
    case history => exact h.history.concat_called rfl
    case callMap => exact h.callMap.insert hfree hpending
    case taskMap => exact h.taskMap.insert hfree hpending
    case held =>
      intro q hq
      rcases (hpending q).1 hq with hq | rfl
      · have hp := (h.history.called_lt q hq.called).2
        exact (congrArg Option.isSome (Heap.cell_alloc_of_lt hp)).trans (h.held q hq)
      · exact congrArg Option.isSome Scope.read_declare
    case tasks =>
      intro p task hread
      by_cases hp : p = s.tasks.next
      · subst hp
        cases Option.some.inj (Scope.read_declare.symm.trans hread)
        exact ⟨_, (hpending _).2 (.inr rfl), rfl, rfl, rfl⟩
      · obtain ⟨q, hq, rfl, hrest⟩ := h.tasks p task ((if_neg hp).symm.trans hread)
        exact ⟨q, (hpending q).2 (.inl hq), rfl, hrest⟩
    case live =>
      intro h' hl
      let entry : BusEntry := ⟨⟨method, payload, subscribe⟩, s.tasks.next, true⟩
      by_cases hh : h' = s.calls.next
      · subst hh
        have hcell : (s.calls.alloc entry).2.cell s.calls.next = entry := if_pos rfl
        refine ⟨_, (hpending _).2 (.inr rfl), rfl, ?_, ?_, ?_⟩
        · exact congrArg BusEntry.context hcell
        · exact congrArg (fun entry => entry.request.multiReply) hcell
        · intro _ hm
          have := h.history.task_lt _ ((mem_concat_of_ne (by rintro ⟨⟩)).1 hm)
          exact absurd this (lt_irrefl _)
      · have hcell : (s.calls.alloc entry).2.cell h' = s.calls.cell h' := if_neg hh
        obtain ⟨q, hq, rfl, hc, hm, hno⟩ := h.live h' (by rw [← hcell]; exact hl)
        refine ⟨q, (hpending q).2 (.inl hq), rfl, ?_, ?_, ?_⟩
        · exact (congrArg BusEntry.context hcell).trans hc
        · exact (congrArg (fun entry => entry.request.multiReply) hcell).trans hm
        · exact fun hsub hr => hno hsub ((mem_concat_of_ne (by rintro ⟨⟩)).1 hr)

theorem setRunning {running : Option ℕ} : Tracks { s with running } where
  history := h.history
  callMap := h.callMap
  taskMap := h.taskMap
  held := h.held
  tasks := h.tasks
  live := h.live

theorem deliver_eq {handle : ℕ} (hl : (s.calls.cell handle).live) :
    ∃ q s', Pending s.journal q ∧ s.deliver handle = s'.onResponse q.task ∧ Tracks s' ∧
      s'.journal = s.journal ∧ s'.running = s.running ∧
      (q.isSubscribe = false →
        .ran q.task ∉ s'.journal ∧ ¬ (s'.calls.cell q.handle).live) := by
  obtain ⟨q, hq, rfl, hctx, hmulti, hno⟩ := h.live handle hl
  cases hsub : q.isSubscribe with
  | true =>
    refine ⟨q, s, hq, ?_, h, rfl, rfl, fun e => absurd (hsub.symm.trans e) nofun⟩
    simp [BusClient.deliver, hl, hmulti, hsub, hctx]
  | false =>
    refine ⟨q, s.destroyCall q.handle, hq, ?_, h.destroyCall, rfl, rfl, fun _ => ⟨hno hsub, ?_⟩⟩
    · simp [BusClient.deliver, hl, hmulti, hsub, hctx]
    -- the bus has nothing more for a call that is answered
    · exact fun hl => (live_kill hl).1 rfl

theorem onResponse_eq (hq : Pending s.journal q) : s.onResponse q.task = s.responded q.task ∨
    s.onResponse q.task = { s with running := some q.task }.note (.ran q.task) := by
  obtain ⟨task, hread, -⟩ := h.read hq
  simp only [onResponse, hread]
  cases task.callback with
  | none => exact .inl rfl
  | some _ => exact .inr rfl

theorem deliver {handle : ℕ} : Tracks (s.deliver handle) := by
  by_cases hl : (s.calls.cell handle).live
  · obtain ⟨q, s', hq, he, h', hj, -, hone⟩ := h.deliver_eq hl
    rw [← hj] at hq
    rw [he]
    rcases h'.onResponse_eq hq with he | he
    · rw [he]; exact h'.responded
    · rw [he]; exact h'.ran hq hone
  · simp only [BusClient.deliver, hl]
    exact h

theorem step {event : BusEvent κ} (hb : callsSince (s.step event).journal < 2 ^ 64) :
    Tracks (s.step event) := by
  cases event with
  | call method payload callback subscribe => exact h.call hb
  | cancel id =>
    cases hfind : s.callMap.find id with
    | none => simpa only [BusClient.step, cancel_none hfind] using h
    | some handle =>
      obtain ⟨q, hq, rfl, rfl⟩ := (h.callMap id handle).1 hfind
      simpa only [BusClient.step, h.cancel_eq hq] using h.without hq (.inl rfl)
  | reply handle =>
    unfold BusClient.step
    split_ifs
    · exact h
    · exact h.deliver
  | returned =>
    simp only [BusClient.step]
    split
    · exact h
    · exact h.setRunning.responded
  | serverStatus payload =>
    unfold BusClient.step
    split_ifs
    · exact h
    · exact h.onServerStatus

end Tracks

/-- Fewer than 2^64 calls between two server statuses. -/
def FewCalls (s : BusClient κ) : Prop := callsSince s.journal < 2 ^ 64

theorem Tracks.always {s : BusClient κ} {events : List (BusEvent κ)} (h : Tracks s)
    (hb : Always BusClient.step FewCalls s events) : Always BusClient.step Tracks s events := by
  induction events generalizing s with
  | nil => exact h
  | cons event events ih => exact ⟨h, ih (h.step hb.2.head) hb.2⟩

end BusClient

end UnifiedSearch
