import UnifiedSearch.Core.BusClient
import UnifiedSearch.Lib.Journal

/-!
# The journal of a client

The journal alone says which requests are pending: called, and since then
neither cancelled nor closed nor followed by a server status. `History` is what
holds of every journal; the lemmas say what one more entry does to it.
-/

namespace UnifiedSearch

open Lib
open scoped List

/-- A request that the client still keeps. -/
structure Pending (j : List Entry) (q : Issued) : Prop where
  called : .called q ∈ j
  not_cancelled : .cancelled q.handle ∉ j
  not_closed : .closed q.handle ∉ j
  no_status : ∀ connected, ¬ [.called q, .status connected] <+ j

/-- The number of calls since the last server status. -/
def callsSince (j : List Entry) : ℕ :=
  j.foldl (fun n e => match e with
    | .called _ => n + 1
    | .status _ => 0
    | _ => n) 0

/-- What a journal says of a client that has made `handles` bus calls and `tasks` tasks, and
`callId` calls since the last server status. -/
structure History (j : List Entry) (handles tasks callId : ℕ) : Prop where
  callId_eq : callId = callsSince j
  called_lt : ∀ q, .called q ∈ j → q.handle < handles ∧ q.task < tasks
  handle_lt : ∀ h, .cancelled h ∈ j ∨ .closed h ∈ j → h < handles
  task_lt : ∀ p, .ran p ∈ j → p < tasks
  /-- No two requests share a bus call or a task. -/
  distinct : ∀ q q', .called q ∈ j → .called q' ∈ j →
    q.handle = q'.handle ∨ q.task = q'.task → q = q'
  ids : ∀ q, .called q ∈ j →
    (∃ connected, [.called q, .status connected] <+ j) ∨ 1 ≤ q.id ∧ q.id ≤ callId
  /-- An id comes again only after a server status. -/
  reused : ∀ q q', .called q ∈ j → .called q' ∈ j → q.id = q'.id → q = q' ∨
    (∃ connected, [.called q, .status connected, .called q'] <+ j) ∨
    ∃ connected, [.called q', .status connected, .called q] <+ j
  once : ∀ q, .called q ∈ j → q.isSubscribe = false → ¬ [.ran q.task, .ran q.task] <+ j
  silent : ∀ q, .called q ∈ j → ¬ [.cancelled q.handle, .ran q.task] <+ j
  dropped : ∀ q connected, ¬ [.called q, .status connected, .ran q.task] <+ j

/-! ## One more entry -/

section Journal

variable {j : List Entry} {q q' : Issued} {e : Entry} {handles tasks callId : ℕ}

theorem mem_concat_of_ne {a : Entry} (h : a ≠ e) : a ∈ j ++ [e] ↔ a ∈ j := by
  simp [h]

theorem pending_concat (hcalled : ∀ q', e ≠ .called q') (hstatus : ∀ c, e ≠ .status c) :
    Pending (j ++ [e]) q ↔ Pending j q ∧ e ≠ .cancelled q.handle ∧ e ≠ .closed q.handle := by
  constructor
  · rintro ⟨h1, h2, h3, h4⟩
    rw [mem_concat_of_ne (hcalled q).symm] at h1
    simp only [List.mem_append, List.mem_singleton, not_or] at h2 h3
    exact ⟨⟨h1, h2.1, h3.1, fun c h => h4 c (pair_sublist_concat.2 (.inl h))⟩,
      Ne.symm h2.2, Ne.symm h3.2⟩
  · rintro ⟨⟨h1, h2, h3, h4⟩, hc, hd⟩
    refine ⟨List.mem_append_left _ h1, ?_, ?_, fun c h => ?_⟩
    · rwa [mem_concat_of_ne hc.symm]
    · rwa [mem_concat_of_ne hd.symm]
    · rcases pair_sublist_concat.1 h with h | ⟨h, -⟩
      · exact h4 c h
      · exact hstatus c h.symm

theorem not_pending_status {c : Bool} : ¬ Pending (j ++ [.status c]) q := by
  intro h
  have hq : Entry.called q ∈ j := (mem_concat_of_ne (by nofun)).1 h.called
  exact h.no_status c (pair_sublist_concat.2 (.inr ⟨rfl, hq⟩))

namespace History

variable (hist : History j handles tasks callId)

include hist

/-- A request that has just been made is pending, and the others are as before. -/
theorem pending_called (hh : q'.handle = handles) :
    Pending (j ++ [.called q']) q ↔ Pending j q ∨ q = q' := by
  have hnew : Entry.called q' ∉ j := fun h => by
    have := (hist.called_lt q' h).1
    omega
  constructor
  · rintro ⟨h1, h2, h3, h4⟩
    rw [mem_concat_of_ne (by nofun)] at h2 h3
    rcases List.mem_append.1 h1 with h1 | h1
    · exact .inl ⟨h1, h2, h3, fun c h => h4 c (pair_sublist_concat.2 (.inl h))⟩
    · exact .inr (by simpa using h1)
  · rintro (⟨h1, h2, h3, h4⟩ | rfl)
    · refine ⟨List.mem_append_left _ h1, ?_, ?_, fun c h => ?_⟩
      · rwa [mem_concat_of_ne (by nofun)]
      · rwa [mem_concat_of_ne (by nofun)]
      · rcases pair_sublist_concat.1 h with h | ⟨h, -⟩
        · exact h4 c h
        · cases h
    · refine ⟨by simp, fun h => ?_, fun h => ?_, fun c h => ?_⟩
      · rw [mem_concat_of_ne (by nofun)] at h
        have := hist.handle_lt _ (.inl h)
        omega
      · rw [mem_concat_of_ne (by nofun)] at h
        have := hist.handle_lt _ (.inr h)
        omega
      · rcases pair_sublist_concat.1 h with h | ⟨h, -⟩
        · exact hnew (mem_of_pair_sublist h).1
        · cases h

theorem eq_of_id (h : Pending j q) (h' : Pending j q') (hid : q.id = q'.id) : q = q' := by
  rcases hist.reused q q' h.called h'.called hid with e | ⟨c, hs⟩ | ⟨c, hs⟩
  · exact e
  · exact absurd (pair_of_triple_sublist hs) (h.no_status c)
  · exact absurd (pair_of_triple_sublist hs) (h'.no_status c)

theorem id_range (h : Pending j q) : 1 ≤ q.id ∧ q.id ≤ callId :=
  (hist.ids q h.called).resolve_left fun ⟨c, hs⟩ => h.no_status c hs

/-- An entry other than a call. A callback that runs is that of a pending request, which has
not run yet if it wants one reply. -/
theorem concat {callId' : ℕ} (hcalled : ∀ q, e ≠ .called q)
    (hhandle : ∀ h, e = .cancelled h ∨ e = .closed h → h < handles)
    (hran : ∀ p, e = .ran p → ∃ q, Pending j q ∧ q.task = p ∧
      (q.isSubscribe = false → .ran q.task ∉ j))
    (hid : callId' = callsSince (j ++ [e])) (hsame : callId' = callId ∨ ∃ c, e = .status c) :
    History (j ++ [e]) handles tasks callId' where
  callId_eq := hid
  called_lt q h := hist.called_lt q ((mem_concat_of_ne (hcalled q).symm).1 h)
  handle_lt h hm := by
    simp only [List.mem_append, List.mem_singleton] at hm
    by_cases he : e = .cancelled h ∨ e = .closed h
    · exact hhandle h he
    · refine hist.handle_lt h (hm.imp (fun hm => ?_) fun hm => ?_)
      · exact hm.resolve_right fun h' => he (.inl h'.symm)
      · exact hm.resolve_right fun h' => he (.inr h'.symm)
  task_lt p hm := by
    rcases List.mem_append.1 hm with hm | hm
    · exact hist.task_lt p hm
    · obtain ⟨q, hq, rfl, -⟩ := hran p (by simpa using (List.mem_singleton.1 hm).symm)
      exact (hist.called_lt q hq.called).2
  distinct q q' h h' := hist.distinct q q' ((mem_concat_of_ne (hcalled q).symm).1 h)
    ((mem_concat_of_ne (hcalled q').symm).1 h')
  ids q h := by
    have hq := (mem_concat_of_ne (hcalled q).symm).1 h
    rcases hsame with rfl | ⟨c, rfl⟩
    · exact (hist.ids q hq).imp_left fun ⟨c, hs⟩ => ⟨c, pair_sublist_concat.2 (.inl hs)⟩
    · exact .inl ⟨c, pair_sublist_concat.2 (.inr ⟨rfl, hq⟩)⟩
  reused q q' h h' he := by
    refine (hist.reused q q' ((mem_concat_of_ne (hcalled q).symm).1 h)
      ((mem_concat_of_ne (hcalled q').symm).1 h') he).imp_right (Or.imp ?_ ?_)
    all_goals exact fun ⟨c, hs⟩ => ⟨c, triple_sublist_concat.2 (.inl hs)⟩
  once q h hsub hs := by
    have hq := (mem_concat_of_ne (hcalled q).symm).1 h
    rcases pair_sublist_concat.1 hs with hs | ⟨he, hs⟩
    · exact hist.once q hq hsub hs
    · obtain ⟨q', hq', ht, hno⟩ := hran _ he.symm
      cases hist.distinct q' q hq'.called hq (.inr ht)
      exact hno hsub hs
  silent q h hs := by
    have hq := (mem_concat_of_ne (hcalled q).symm).1 h
    rcases pair_sublist_concat.1 hs with hs | ⟨he, hs⟩
    · exact hist.silent q hq hs
    · obtain ⟨q', hq', ht, -⟩ := hran _ he.symm
      cases hist.distinct q' q hq'.called hq (.inr ht)
      exact hq'.not_cancelled hs
  dropped q c hs := by
    rcases triple_sublist_concat.1 hs with hs | ⟨he, hs⟩
    · exact hist.dropped q c hs
    · obtain ⟨q', hq', ht, -⟩ := hran _ he.symm
      cases hist.distinct q' q hq'.called (mem_of_pair_sublist hs).1 (.inr ht)
      exact hq'.no_status c hs

theorem concat_called {subscribe : Bool} (hq : q = ⟨callId + 1, handles, tasks, subscribe⟩) :
    History (j ++ [.called q]) (handles + 1) (tasks + 1) (callId + 1) := by
  have hnew : ∀ {q'}, Entry.called q' ∈ j ++ [.called q] → .called q' ∈ j ∨ q' = q := by
    intro q' h
    simpa using h
  -- a current request has one of the ids given out
  have hfresh : ∀ q', Entry.called q' ∈ j → q'.id = q.id →
      ∃ c, [.called q', .status c, .called q] <+ j ++ [.called q] := by
    intro q' h' hid
    rcases hist.ids q' h' with ⟨c, hs⟩ | ⟨-, hle⟩
    · exact ⟨c, triple_sublist_concat.2 (.inr ⟨rfl, hs⟩)⟩
    · rw [hid, hq] at hle
      exact absurd hle (by simp)
  constructor
  case callId_eq => rw [hist.callId_eq]; simp [callsSince]
  case called_lt =>
    intro q' h
    rcases hnew h with h | rfl
    · have := hist.called_lt q' h
      omega
    · simp [hq]
  case handle_lt =>
    intro h hm
    rw [mem_concat_of_ne (by nofun), mem_concat_of_ne (by nofun)] at hm
    exact Nat.lt_succ_of_lt (hist.handle_lt h hm)
  case task_lt =>
    intro p hm
    rw [mem_concat_of_ne (by nofun)] at hm
    exact Nat.lt_succ_of_lt (hist.task_lt p hm)
  case distinct =>
    intro q₁ q₂ h₁ h₂ he
    rcases hnew h₁ with h₁' | rfl <;> rcases hnew h₂ with h₂' | rfl
    · exact hist.distinct q₁ q₂ h₁' h₂' he
    · have := hist.called_lt q₁ h₁'
      simp only [hq] at he
      omega
    · have := hist.called_lt q₂ h₂'
      simp only [hq] at he
      omega
    · rfl
  case ids =>
    intro q' h
    rcases hnew h with h | rfl
    · refine (hist.ids q' h).imp ?_ (And.imp_right Nat.le_succ_of_le)
      exact fun ⟨c, hs⟩ => ⟨c, pair_sublist_concat.2 (.inl hs)⟩
    · exact .inr (by simp [hq])
  case reused =>
    intro q₁ q₂ h₁ h₂ hid
    rcases hnew h₁ with h₁' | rfl <;> rcases hnew h₂ with h₂' | rfl
    · refine (hist.reused q₁ q₂ h₁' h₂' hid).imp_right (Or.imp ?_ ?_)
      all_goals exact fun ⟨c, hs⟩ => ⟨c, triple_sublist_concat.2 (.inl hs)⟩
    · exact .inr (.inl (hfresh q₁ h₁' hid))
    · exact .inr (.inr (hfresh q₂ h₂' hid.symm))
    · exact .inl rfl
  case once =>
    intro q' h hsub hs
    replace hs := (pair_sublist_concat.1 hs).resolve_right (by nofun)
    rcases hnew h with h | rfl
    · exact hist.once q' h hsub hs
    · have := hist.task_lt _ (mem_of_pair_sublist hs).1
      simp [hq] at this
  case silent =>
    intro q' h hs
    replace hs := (pair_sublist_concat.1 hs).resolve_right (by nofun)
    rcases hnew h with h | rfl
    · exact hist.silent q' h hs
    · have := hist.task_lt _ (mem_of_pair_sublist hs).2
      simp [hq] at this
  case dropped =>
    intro q' c hs
    exact hist.dropped q' c ((triple_sublist_concat.1 hs).resolve_right (by nofun))

end History

end Journal

end UnifiedSearch
