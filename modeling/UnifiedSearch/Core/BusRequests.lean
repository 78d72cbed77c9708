import UnifiedSearch.Core.BusRuns

/-!
# Requests of a client

What a run says of the requests: the two maps agree with the bus, callbacks
run for pending requests alone, and a cancel meets the request it is meant for
as long as its id has not been given to another one. `Shows` says that
`LunaClient` is what is seen of a `BusClient`.
-/

namespace UnifiedSearch

open Lib
open scoped List

namespace BusClient

variable {κ : Type} {s : BusClient κ} {q : Issued}

/-- The maps have the same ids, and a live call has the task under its id for context. -/
structure Consistent (s : BusClient κ) : Prop where
  keys : ∀ id, id ∈ s.callMap.keys ↔ id ∈ s.taskMap.keys
  range : ∀ id ∈ s.callMap.keys, 1 ≤ id ∧ id ≤ s.callId
  context : ∀ handle, (s.calls.cell handle).live → ∃ id task,
    s.callMap.find id = some handle ∧ s.taskMap.find id = some (s.calls.cell handle).context ∧
    s.tasks.read (s.calls.cell handle).context = some task ∧ task.id = id

theorem Tracks.consistent (h : Tracks s) : Consistent s where
  keys id := by
    rw [OrdMap.mem_keys_iff, OrdMap.mem_keys_iff, h.callMap.isSome_find, h.taskMap.isSome_find]
  range id hid := by
    rw [OrdMap.mem_keys_iff, h.callMap.isSome_find] at hid
    obtain ⟨q, hq, rfl⟩ := hid
    exact h.history.id_range hq
  context handle hl := by
    obtain ⟨q, hq, rfl, hctx, -⟩ := h.live handle hl
    obtain ⟨task, hread, hid, -⟩ := h.read hq
    rw [hctx]
    exact ⟨q.id, task, h.callMap.find hq, h.taskMap.find hq, hread, hid⟩

/-! ## Callbacks -/

instance : DecidablePred (FewCalls (κ := κ)) := fun _ => inferInstanceAs (Decidable (_ < _))

/-- A running callback does not cancel its own request. -/
def CancelsOthers (s : BusClient κ) : BusEvent κ → Prop
  | .cancel id => ∀ p ∈ s.running, ∀ task ∈ s.tasks.read p, task.id ≠ id
  | _ => True

instance CancelsOthers.decidable : ∀ event : BusEvent κ, Decidable (CancelsOthers s event)
  | .cancel id =>
    inferInstanceAs (Decidable (∀ p ∈ s.running, ∀ task ∈ s.tasks.read p, task.id ≠ id))
  | .call .. | .reply _ | .returned | .serverStatus _ => inferInstanceAs (Decidable True)

/-- No task has been read after it had gone, and that of a running callback is there. -/
structure Intact (s : BusClient κ) : Prop where
  journal : .dangling ∉ s.journal
  running : ∀ p ∈ s.running, ∃ q, Pending s.journal q ∧ q.task = p

namespace Intact

theorem idle (hj : .dangling ∉ s.journal) (hr : s.running = none) : Intact s :=
  ⟨hj, by rw [hr]; nofun⟩

theorem responded (hi : Intact s) (h : Tracks s) (hr : s.running = none)
    (hq : Pending s.journal q) : Intact (s.responded q.task) := by
  rw [h.responded_eq hq]
  split
  · exact hi
  · exact idle (fun hm => hi.journal ((mem_concat_of_ne (by rintro ⟨⟩)).1 hm)) hr

theorem call {method payload : String} {callback : Option κ} {subscribe : Bool}
    (hi : Intact s) (h : Tracks s)
    (hb : callsSince (s.call method payload callback subscribe).2.journal < 2 ^ 64) :
    Intact (s.call method payload callback subscribe).2 := by
  cases hconn : s.isConnected with
  | false =>
    rw [BusClient.call, hconn]
    exact hi
  | true =>
    rw [h.call_eq hconn (h.callId_lt hconn hb)]
    refine ⟨fun hm => hi.journal ((mem_concat_of_ne (by rintro ⟨⟩)).1 hm), fun p hp => ?_⟩
    obtain ⟨q, hq, hqp⟩ := hi.running p hp
    exact ⟨q, (h.history.pending_called rfl).2 (.inl hq), hqp⟩

theorem cancel {id : ℕ} (hi : Intact s) (h : Tracks s)
    (hc : CancelsOthers s (.cancel id)) : Intact (s.cancel id).2 := by
  cases hfind : s.callMap.find id with
  | none => rw [Tracks.cancel_none hfind]; exact hi
  | some handle =>
    obtain ⟨q, hq, rfl, rfl⟩ := (h.callMap id handle).1 hfind
    rw [h.cancel_eq hq]
    refine ⟨fun hm => hi.journal ((mem_concat_of_ne (by rintro ⟨⟩)).1 hm), fun p hp => ?_⟩
    obtain ⟨q', hq', rfl⟩ := hi.running p hp
    obtain ⟨task, hread, hid, -⟩ := h.read hq'
    have hne : q'.id ≠ q.id := by rw [← hid]; exact hc _ hp task hread
    refine ⟨q', (pending_concat (by rintro _ ⟨⟩) (by rintro _ ⟨⟩)).2
      ⟨hq', fun e => hne ?_, by rintro ⟨⟩⟩, rfl⟩
    rw [h.history.distinct q' q hq'.called hq.called (.inl (Entry.cancelled.inj e).symm)]

theorem deliver {handle : ℕ} (hi : Intact s) (h : Tracks s) (hr : s.running = none) :
    Intact (s.deliver handle) := by
  by_cases hl : (s.calls.cell handle).live
  · obtain ⟨q, s', hq, he, h', hj, hr', -⟩ := h.deliver_eq hl
    have hi' : Intact s' := idle (by rw [hj]; exact hi.journal) (hr'.trans hr)
    rw [← hj] at hq
    rw [he]
    rcases h'.onResponse_eq hq with he | he
    · rw [he]; exact hi'.responded h' (hr'.trans hr) hq
    · rw [he]
      refine ⟨fun hm => hi'.journal ((mem_concat_of_ne (by rintro ⟨⟩)).1 hm), fun p hp => ?_⟩
      cases hp
      exact ⟨q, (pending_concat (by rintro _ ⟨⟩) (by rintro _ ⟨⟩)).2
        ⟨hq, by rintro ⟨⟩, by rintro ⟨⟩⟩, rfl⟩
  · simp only [BusClient.deliver, hl]
    exact hi

theorem onServerStatus {payload : JValue} (hi : Intact s) (hr : s.running = none) :
    Intact (s.onServerStatus payload) := by
  unfold BusClient.onServerStatus
  split
  · exact idle (fun hm => hi.journal ((mem_concat_of_ne (by rintro ⟨⟩)).1 hm)) hr
  · exact hi

theorem step {event : BusEvent κ} (hi : Intact s) (h : Tracks s)
    (hb : FewCalls (s.step event)) (hc : CancelsOthers s event) : Intact (s.step event) := by
  cases event with
  | call method payload callback subscribe => exact hi.call h hb
  | cancel id => exact hi.cancel h hc
  | reply handle =>
    cases hr : s.running with
    | none => simpa [BusClient.step, hr] using hi.deliver h hr
    | some p => simpa [BusClient.step, hr] using hi
  | returned =>
    cases hr : s.running with
    | none => simpa [BusClient.step, hr] using hi
    | some p =>
      obtain ⟨q, hq, rfl⟩ := hi.running p hr
      have hi' : Intact { s with running := none } := idle hi.journal rfl
      simpa [BusClient.step, hr] using hi'.responded h.setRunning rfl hq
  | serverStatus payload =>
    cases hr : s.running with
    | none => simpa [BusClient.step, hr] using hi.onServerStatus hr
    | some p => simpa [BusClient.step, hr] using hi

end Intact

theorem intact_run {events : List (BusEvent κ)} (hi : Intact s) (h : Tracks s)
    (hb : Always step FewCalls s events) (hc : Each step CancelsOthers s events) :
    Intact (run step s events) := by
  induction events generalizing s with
  | nil => exact hi
  | cons event events ih =>
    have hb' := hb.2.head
    exact ih (hi.step h hb' hc.1) (h.step hb') hb.2 hc.2

/-! ## After a cancel -/

theorem journal_eraseCall (s : BusClient κ) (id : ℕ) : (s.eraseCall id).journal = s.journal := by
  unfold eraseCall
  split <;> rfl

theorem journal_eraseTask (s : BusClient κ) (id : ℕ) : (s.eraseTask id).journal = s.journal := by
  unfold eraseTask
  split <;> rfl

theorem journal_responded (s : BusClient κ) (context : ℕ) :
    s.journal <+: (s.responded context).journal := by
  unfold responded
  split
  · exact List.prefix_append ..
  · split_ifs
    · split
      · exact (journal_eraseTask s _).symm ▸ List.prefix_rfl
      · dsimp only [note]
        rw [journal_eraseTask, journal_eraseCall]
        exact List.prefix_append ..
    · exact List.prefix_rfl

theorem journal_deliver (s : BusClient κ) (handle : ℕ) :
    s.journal <+: (s.deliver handle).journal := by
  have hresponse (s : BusClient κ) (context : ℕ) :
      s.journal <+: (s.onResponse context).journal := by
    unfold onResponse
    split
    · exact List.prefix_append ..
    · split
      · exact journal_responded s context
      · exact List.prefix_append ..
  unfold deliver
  dsimp only
  split_ifs
  · exact List.prefix_rfl
  · exact hresponse s _
  · exact hresponse (s.destroyCall handle) _

theorem journal_step (s : BusClient κ) (event : BusEvent κ) :
    s.journal <+: (s.step event).journal := by
  cases event with
  | call method payload callback subscribe =>
    show s.journal <+: (s.call method payload callback subscribe).2.journal
    unfold call
    split_ifs
    · exact List.prefix_rfl
    · dsimp only [note]
      rw [journal_insertTask, journal_insertCall]
      exact List.prefix_append ..
  | cancel id =>
    show s.journal <+: (s.cancel id).2.journal
    unfold cancel
    split
    · exact List.prefix_rfl
    · dsimp only [note]
      rw [journal_eraseTask, journal_eraseCall]
      exact List.prefix_append ..
  | reply handle =>
    unfold BusClient.step
    split_ifs
    · exact List.prefix_rfl
    · exact journal_deliver s handle
  | returned =>
    unfold BusClient.step
    dsimp only
    split
    · exact List.prefix_rfl
    · exact journal_responded { s with running := none } _
  | serverStatus payload =>
    unfold BusClient.step
    split_ifs
    · exact List.prefix_rfl
    · show s.journal <+: (s.onServerStatus payload).journal
      unfold onServerStatus
      split
      · exact List.prefix_append ..
      · exact List.prefix_rfl

theorem not_running (hi : Intact s) (h : Tracks s) (hq : .called q ∈ s.journal)
    (hcancelled : .cancelled q.handle ∈ s.journal) : s.running ≠ some q.task := by
  intro hr
  obtain ⟨q', hq', htask⟩ := hi.running _ hr
  cases h.history.distinct q' q hq'.called hq (.inr htask)
  exact hq'.not_cancelled hcancelled

/-- From then on the callback of a request that has been cancelled does not run. -/
theorem silent_run {events : List (BusEvent κ)} (hi : Intact s) (h : Tracks s)
    (hb : Always step FewCalls s events) (hc : Each step CancelsOthers s events)
    (hq : .called q ∈ s.journal) (hcancelled : .cancelled q.handle ∈ s.journal) :
    Always step (fun s' => s'.running ≠ some q.task) s events := by
  induction events generalizing s with
  | nil => exact not_running hi h hq hcancelled
  | cons event events ih =>
    have hb' := hb.2.head
    have hsub := (journal_step s event).subset
    exact ⟨not_running hi h hq hcancelled, ih (hi.step h hb' hc.1) (h.step hb') hb.2 hc.2
      (hsub hq) (hsub hcancelled)⟩

/-- The task that a cancel has found does not run its callback any more. -/
theorem silent_cancel {id : ℕ} {events : List (BusEvent κ)} (h : Tracks s) (hi : Intact s)
    (hb : Always step FewCalls s (.cancel id :: events))
    (hc : Each step CancelsOthers s (.cancel id :: events)) (hfound : (s.cancel id).1 = true) :
    ∃ task, s.taskMap.find id = some task ∧
      Always step (fun s' => s'.running ≠ some task) (s.step (.cancel id)) events := by
  cases hfind : s.callMap.find id with
  | none =>
    rw [Tracks.cancel_none hfind] at hfound
    cases hfound
  | some handle =>
    obtain ⟨q, hq, rfl, rfl⟩ := (h.callMap id handle).1 hfind
    have hb' := hb.2.head
    have hi' := hi.step h hb' hc.1
    have h' := h.step hb'
    have hcancel : s.step (.cancel q.id) = (s.without q).note (.cancelled q.handle) :=
      congrArg Prod.snd (h.cancel_eq hq)
    refine ⟨q.task, h.taskMap.find hq, silent_run hi' h' hb.2 hc.2 ?_ ?_⟩
    · exact (journal_step s (.cancel q.id)).subset hq.called
    · rw [hcancel]
      exact List.mem_append_right _ (List.mem_singleton_self _)

/-- The bookkeeping of a client: over any run from a new client in which callbacks cancel other
requests than their own, the two maps agree with the bus between any two events, a callback does
not run after a cancel that has found its request, no freed task is read, the callback of a
request for one reply runs at most once, and none runs after its request was cancelled or after a
server status that followed it. -/
theorem bookkeeping (events : List (BusEvent κ)) (hb : Always step FewCalls {} events)
    (hc : Each step CancelsOthers {} events) :
    Always step Consistent {} events ∧
    (∀ before id after, events = before ++ .cancel id :: after →
      let s : BusClient κ := run step {} before
      (s.cancel id).1 = true → ∃ task, s.taskMap.find id = some task ∧
        Always step (fun s' => s'.running ≠ some task) (s.step (.cancel id)) after) ∧
    let j := (run step {} events).journal
    .dangling ∉ j ∧
    ∀ q, .called q ∈ j →
      (q.isSubscribe = false → j.count (.ran q.task) ≤ 1) ∧
      ¬ [.cancelled q.handle, .ran q.task] <+ j ∧
      ∀ connected, ¬ [.called q, .status connected, .ran q.task] <+ j := by
  have htracks := Tracks.init.always hb
  have hist := htracks.last.history
  have hidle : Intact ({} : BusClient κ) := Intact.idle (by simp) rfl
  refine ⟨htracks.imp fun s h => h.consistent, ?_, ?_, fun q hq => ⟨fun hsub => ?_, ?_, ?_⟩⟩
  · rintro before id after rfl s hfound
    obtain ⟨hb1, hb2⟩ := always_append hb
    obtain ⟨hc1, hc2⟩ := each_append.1 hc
    exact silent_cancel (always_append htracks).1.last (intact_run hidle Tracks.init hb1 hc1)
      hb2 hc2 hfound
  · exact (intact_run hidle Tracks.init hb hc).journal
  · exact count_le_one (hist.once q hq hsub)
  · exact hist.silent q hq
  · exact hist.dropped q

/-- A reply whose callback makes another call and cancels it. -/
def reentrantRun : List (BusEvent Unit) :=
  [.serverStatus (JValue.object.put "connected" (.bool true)),
    .call "luna://a" "{}" (some ()) false, .call "luna://b" "{}" (some ()) true,
    .reply 0, .call "luna://c" "{}" none false, .cancel 3, .returned, .reply 0, .reply 1,
    .returned, .serverStatus (JValue.object.put "connected" (.bool false)), .reply 1]

theorem bookkeeping_sample : Always step Consistent {} reentrantRun ∧
    Always step (fun s => s.running ≠ some 2) (run step {} (reentrantRun.take 6))
      (reentrantRun.drop 6) ∧
    (run step {} reentrantRun).journal.count (.ran 0) ≤ 1 := by
  obtain ⟨h, hcancel, -, hq⟩ := bookkeeping reentrantRun (by decide) (by decide)
  obtain ⟨task, htask, hsilent⟩ := hcancel (reentrantRun.take 5) 3 (reentrantRun.drop 6) rfl
    (by decide)
  have h2 : some task = some 2 := htask.symm.trans (by decide)
  cases h2
  exact ⟨h, hsilent, (hq ⟨1, 0, 0, false⟩ (by decide)).1 rfl⟩

/-! ## Ids

An id comes again after a server status, which sets the counter back. -/

/-- A request got the id of `q` after a server status and is still pending. -/
def Reissued (j : List Entry) (q : Issued) : Prop :=
  ∃ q' connected, Pending j q' ∧ q'.id = q.id ∧
    [.called q, .status connected, .called q'] <+ j

/-- A cancel with the id of `q` either finds nothing or cancels `q` and nothing else. -/
def CancelsOwn (s : BusClient κ) (q : Issued) : Prop :=
  s.cancel q.id = (false, s) ∨ s.cancel q.id = (true, (s.without q).note (.cancelled q.handle))

theorem Tracks.cancelsOwn_iff (h : Tracks s) (hq : .called q ∈ s.journal) :
    CancelsOwn s q ↔ ¬ Reissued s.journal q := by
  constructor
  · rintro hown ⟨q', c, hq', hid, hs⟩
    rw [CancelsOwn, ← hid, h.cancel_eq hq'] at hown
    rcases hown with hown | hown
    · exact absurd (congrArg Prod.fst hown) nofun
    · -- the cancel is seen in the journal, with the handle of `q'`
      have hj := congrArg (fun r => r.2.journal) hown
      have hh : q'.handle = q.handle :=
        Entry.cancelled.inj (List.singleton_injective (List.append_cancel_left hj))
      cases h.history.distinct q' q hq'.called hq (.inl hh)
      exact hq'.no_status c (pair_of_triple_sublist hs)
  · intro hno
    cases hfind : s.callMap.find q.id with
    | none => exact .inl (cancel_none hfind)
    | some handle =>
      obtain ⟨q', hq', hid, -⟩ := (h.callMap q.id handle).1 hfind
      rcases h.history.reused q q' hq hq'.called hid.symm with rfl | ⟨c, hs⟩ | ⟨c, hs⟩
      · exact .inr (h.cancel_eq hq')
      · exact absurd ⟨q', c, hq', hid, hs⟩ hno
      · exact absurd (pair_of_triple_sublist hs) (hq'.no_status c)

/-- In every state of every run, a cancel with the id of an earlier call meets the request of
that call alone, if any, unless the id has been given out again. The id 0 of a call that was not
made is never found. -/
theorem cancelsOwn_run_iff (events : List (BusEvent κ)) (hb : Always step FewCalls {} events) :
    let s : BusClient κ := run step {} events
    s.cancel 0 = (false, s) ∧
    ∀ q, .called q ∈ s.journal → (CancelsOwn s q ↔ ¬ Reissued s.journal q) := by
  have h := (Tracks.init.always hb).last
  refine ⟨Tracks.cancel_none ?_, fun q hq => h.cancelsOwn_iff hq⟩
  rw [← Option.not_isSome_iff_eq_none, h.callMap.isSome_find]
  rintro ⟨q, hq, hid⟩
  have := (h.history.id_range hq).1
  omega

/-- An id is kept while the server goes and comes back, and then another call is made. -/
def reconnectedRun : List (BusEvent Unit) :=
  [.serverStatus (JValue.object.put "connected" (.bool true)),
    .call "luna://a" "{}" (some ()) true,
    .serverStatus (JValue.object.put "connected" (.bool false)),
    .serverStatus (JValue.object.put "connected" (.bool true)),
    .call "luna://b" "{}" (some ()) true]

theorem cancelsOwn_run_sample : CancelsOwn (run step {} (reconnectedRun.take 2)) ⟨1, 0, 0, true⟩ :=
  ((cancelsOwn_run_iff (reconnectedRun.take 2) (by decide)).2 _ (by decide)).2
    fun ⟨_, _, _, _, hs⟩ => absurd (show 3 ≤ 2 from hs.length_le) (by decide)

theorem not_cancelsOwn_reconnected : Always step FewCalls {} reconnectedRun ∧
    .called ⟨1, 0, 0, true⟩ ∈ (run step {} reconnectedRun).journal ∧
    ¬ CancelsOwn (run step {} reconnectedRun) ⟨1, 0, 0, true⟩ := by
  refine ⟨by decide, by decide, ?_⟩
  rintro (h | h)
  · exact absurd (congrArg Prod.fst h) (by decide)
  · exact absurd (congrArg (fun r => r.2.journal) h) (by decide)

/-! ## What is seen without the bus -/

/-- `c` is `s` with each call in the place of its handle and each task in that of its pointer. -/
structure Shows (s : BusClient κ) (c : LunaClient (Option κ)) : Prop where
  isConnected : c.isConnected = s.isConnected
  callId : c.callId = s.callId
  callMap : ∀ id, c.callMap.find id =
    (s.callMap.find id).map fun handle => (s.calls.cell handle).request
  taskMap : ∀ id, c.taskMap.find id = (s.taskMap.find id).bind s.tasks.read

variable {c : LunaClient (Option κ)}

theorem Shows.context (hs : Shows s c) (h : Tracks s) {handle : ℕ}
    (hl : (s.calls.cell handle).live) : ∃ id, s.callMap.find id = some handle ∧
    c.taskMap.find id = s.tasks.read (s.calls.cell handle).context := by
  obtain ⟨id, task, hc, ht, -⟩ := h.consistent.context handle hl
  exact ⟨id, hc, by rw [hs.taskMap, ht]; rfl⟩

theorem Shows.call (hs : Shows s c) (h : Tracks s) {method payload : String}
    {callback : Option κ} {subscribe : Bool}
    (hb : FewCalls (s.call method payload callback subscribe).2) :
    (c.call method payload callback subscribe).1 =
        (s.call method payload callback subscribe).1 ∧
      Shows (s.call method payload callback subscribe).2
        (c.call method payload callback subscribe).2 := by
  cases hconn : s.isConnected with
  | false =>
    simp only [LunaClient.call, BusClient.call, hs.isConnected, hconn]
    exact ⟨rfl, hs⟩
  | true =>
    have hlt := h.callId_lt hconn hb
    obtain ⟨hc, ht⟩ := h.find_next
    have hc' : c.callMap.find (s.callId + 1) = none := by rw [hs.callMap, hc]; rfl
    have ht' : c.taskMap.find (s.callId + 1) = none := by rw [hs.taskMap, ht]; rfl
    rw [h.call_eq hconn hlt]
    have hcall : c.call method payload callback subscribe = (s.callId + 1, { c with
        callId := s.callId + 1
        callMap := c.callMap.insert (s.callId + 1) ⟨method, payload, subscribe⟩
        taskMap := c.taskMap.insert (s.callId + 1) ⟨s.callId + 1, callback, subscribe⟩ }) := by
      simp only [LunaClient.call, hs.isConnected, hconn, hs.callId, Nat.mod_eq_of_lt hlt,
        Bool.not_true, Bool.false_eq_true, if_false]
    rw [hcall]
    refine ⟨rfl, hs.isConnected, rfl, fun id => ?_, fun id => ?_⟩
    · simp only [OrdMap.find_insert hc', OrdMap.find_insert hc]
      split_ifs with hid
      · rw [Option.map_some, Heap.cell_alloc_self]
      · rw [hs.callMap]
        refine Option.map_congr fun handle hm => ?_
        obtain ⟨q, hq, -, rfl⟩ := (h.callMap id handle).1 hm
        rw [Heap.cell_alloc_of_lt (h.history.called_lt q hq.called).1]
    · simp only [OrdMap.find_insert ht', OrdMap.find_insert ht]
      split_ifs with hid
      · exact (Scope.read_declare).symm
      · rw [hs.taskMap]
        refine Option.bind_congr fun p hp => ?_
        obtain ⟨q, hq, -, rfl⟩ := (h.taskMap id p).1 hp
        exact (Heap.cell_alloc_of_lt (h.history.called_lt q hq.called).2).symm

/-- The end of a reply is seen as `LunaClient.responded` of the task of the request. -/
theorem Shows.responded (hs : Shows s c) (h : Tracks s) (hq : Pending s.journal q) :
    ∃ task, c.taskMap.find q.id = some task ∧
      Shows (s.responded q.task) (c.responded task) := by
  obtain ⟨task, hread, hid, hsub⟩ := h.read hq
  refine ⟨task, by rw [hs.taskMap, h.taskMap.find hq]; exact hread, ?_⟩
  rw [h.responded_eq hq, LunaClient.responded, hsub]
  cases q.isSubscribe with
  | true => exact hs
  | false =>
    refine ⟨hs.isConnected, hs.callId, fun id => ?_, fun id => ?_⟩
    · have hkill : ∀ handle, ((s.calls.modify q.handle BusEntry.kill).cell handle).request =
          (s.calls.cell handle).request := by
        intro handle
        rw [Heap.cell_modify]
        split_ifs with hh
        · rw [hh]; rfl
        · rfl
      simp only [hid, Bool.not_false, if_true, Bool.false_eq_true, if_false, BusClient.without,
        note, OrdMap.find_erase, hkill, hs.callMap]
      split_ifs <;> rfl
    · simp only [hid, Bool.not_false, if_true, Bool.false_eq_true, if_false, BusClient.without,
        note, OrdMap.find_erase, hs.taskMap]
      split_ifs with he
      · rfl
      · refine Option.bind_congr fun p hp => ?_
        obtain ⟨q', hq', rfl, rfl⟩ := (h.taskMap id p).1 hp
        have hne : q'.task ≠ q.task := fun ht =>
          he (congrArg Issued.id (h.history.distinct q' q hq'.called hq.called (.inr ht)))
        exact (if_neg hne).symm

end BusClient

end UnifiedSearch
