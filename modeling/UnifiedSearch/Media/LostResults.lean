import UnifiedSearch.Lib.Runs
import UnifiedSearch.Media.Finds
import UnifiedSearch.Media.MediaPlugin

/-!
# The results of a media search

`NoneLost` is what the callback of a search is for: it comes once, after every
reply, with the items of all of them. The closure that waits for a reply only
refers to a variable of `DB8::find`, so the task is gone before the first reply
and the variable cannot be read any more. What is left is a search that sends
no find (`noneLost_iff`).
-/

namespace UnifiedSearch

open Lib Service

/-- No event of the task: neither a find for it nor its call. -/
def Event.Foreign (task : ℕ) : Event → Prop
  | .issued _ callback _ _ => callback.task ≠ task
  | .called task' _ => task' ≠ task
  | _ => True

/-- What a reply adds. -/
def Event.IsReply : Event → Prop
  | .answered .. | .undefined => True
  | _ => False

/-- No result of the task is lost: it calls back once, after every find for it has been answered,
with an item for every record of every successful reply, and the items are filed by the categories
of the set. -/
def NoneLost (w : Service) (s : SearchSetPtr) (task : ℕ) (trace : List Event) : Prop :=
  ∃ pre items intents post,
    trace = pre ++ .called task items ::
      .filed s intents (items.foldl (w.fileItem s) intents) :: post ∧
    (∀ items', .called task items' ∉ pre ++ post) ∧
    ∀ context callback method payload, .issued context callback method payload ∈ trace →
      callback.task = task →
        (∃ reply, .answered context reply ∈ pre) ∧
        ∀ reply, .answered context reply ∈ trace → ∀ results ∈ DB8.results reply,
          ∀ result ∈ results, DB8Source.item callback result ∈ items

section Trace

variable {w : Service} {s : SearchSetPtr} {task : ℕ} {intents : Intents}
  {before finds after : List Event} (hbefore : ∀ e ∈ before, e.Foreign task ∧ ¬e.IsReply)
  (hfinds : ∀ e ∈ finds, e.IsFind task) (hafter : ∀ e ∈ after, e.Foreign task)
include hbefore hfinds hafter

theorem finds_eq_nil_of_noneLost (h : NoneLost w s task
    ((before ++ finds) ++ .called task [] :: .filed s intents intents :: after)) : finds = [] := by
  obtain ⟨pre, items, intents', post, heq, -, hanswered⟩ := h
  have hpre : Event.called task items ∉ before ++ finds := fun he => by
    rcases List.mem_append.1 he with he | he
    · exact (hbefore _ he).1 rfl
    · exact hfinds _ he
  have hpost : Event.called task items ∉ .filed s intents intents :: after := fun he => by
    rcases List.mem_cons.1 he with he | he
    · cases he
    · exact hafter _ he rfl
  obtain ⟨rfl, -, -⟩ := (List.append_cons_inj_of_notMem hpre hpost).1 heq
  cases finds with
  | nil => rfl
  | cons e finds =>
    have he := hfinds e List.mem_cons_self
    cases e with
    | issued context callback method payload =>
      have hmem : Event.issued context callback method payload ∈
          before ++ (.issued context callback method payload :: finds) ++ .called task [] ::
            .filed s intents intents :: after := by simp
      obtain ⟨⟨reply, hreply⟩, -⟩ := hanswered context callback method payload hmem he
      rcases List.mem_append.1 hreply with h | h
      · exact ((hbefore _ h).2 trivial).elim
      · exact (hfinds _ h).elim
    | _ => exact he.elim

omit hfinds in
theorem noneLost_of_no_find : NoneLost w s task
    (before ++ .called task [] :: .filed s intents intents :: after) := by
  refine ⟨before, [], intents, after, rfl, fun items hmem => ?_,
    fun context callback method payload hmem hcallback => ?_⟩
  · rcases List.mem_append.1 hmem with h | h
    · exact (hbefore _ h).1 rfl
    · exact hafter _ h rfl
  · simp only [List.mem_append, List.mem_cons, reduceCtorEq, false_or] at hmem
    rcases hmem with h | h
    · exact ((hbefore _ h).1 hcallback).elim
    · exact (hafter _ h hcallback).elim

/-- A task that calls back before any reply loses nothing iff it has sent no find. -/
theorem noneLost_iff_of_trace :
    NoneLost w s task (before ++ (finds ++ [.called task [], .filed s intents intents]) ++ after) ↔
      finds = [] := by
  have htrace : before ++ (finds ++ [.called task [], .filed s intents intents]) ++ after =
      (before ++ finds) ++ .called task [] :: .filed s intents intents :: after := by
    simp only [List.append_assoc, List.cons_append, List.nil_append]
  rw [htrace]
  refine ⟨finds_eq_nil_of_noneLost hbefore hfinds hafter, ?_⟩
  rintro rfl
  rw [List.append_nil]
  exact noneLost_of_no_find hbefore hafter

end Trace

theorem Event.Within.foreign_of_lt {lo hi task : ℕ} {e : Event} (h : e.Within lo hi)
    (ht : hi ≤ task) : e.Foreign task ∧ ¬e.IsReply := by
  cases e with
  | issued context callback method payload => exact ⟨by have := h.2; intro e; omega, fun h => h⟩
  | called task' items => exact ⟨by have := h.2; intro e; omega, fun h => h⟩
  | filed s intents intents' => exact ⟨trivial, fun h => h⟩
  | _ => exact h.elim

theorem Event.Within.foreign_of_ge {lo hi task : ℕ} {e : Event} (h : e.Within lo hi)
    (ht : task < lo) : e.Foreign task := by
  cases e with
  | issued context callback method payload => have := h.1; intro e; omega
  | called task' items => have := h.1; intro e; omega
  | filed s intents intents' => trivial
  | _ => exact h.elim

theorem Event.IsReply.foreign {task : ℕ} {e : Event} (h : e.IsReply) : e.Foreign task := by
  cases e with
  | answered context payload => trivial
  | undefined => trivial
  | _ => exact h.elim

namespace Session

variable {env : Env} {w : Service} {m : Session} {s : SearchSetPtr} {source : DB8Source}
  {sources : SearchSetPtr → Option DB8Source} {searchKey : String}

/-! ## Replies -/

/-- What a reply does to the trace; the variables of the search are not written. -/
structure Replied (m m' : Session) : Prop where
  callbacks : m'.callbacks = m.callbacks
  trace : ∃ evs : List Event, m'.trace = m.trace ++ evs ∧ ∀ e ∈ evs, e.IsReply

namespace Replied

variable {m' m'' : Session}

theorem refl : Replied m m := ⟨rfl, [], (List.append_nil _).symm, fun _ he => by cases he⟩

theorem trans (h : Replied m m') (h' : Replied m' m'') : Replied m m'' := by
  obtain ⟨l, htrace, hreply⟩ := h.trace
  obtain ⟨l', htrace', hreply'⟩ := h'.trace
  refine ⟨h'.callbacks.trans h.callbacks, l ++ l', ?_, fun e he => ?_⟩
  · rw [htrace', htrace, List.append_assoc]
  · rcases List.mem_append.1 he with he | he
    · exact hreply e he
    · exact hreply' e he

theorem emit {event : Event} (h : event.IsReply) : Replied m (m.emit event) := by
  refine ⟨rfl, [event], rfl, fun e he => ?_⟩
  rw [List.mem_singleton.1 he]
  exact h

end Replied

theorem replied_callResponseCB (m : Session) (callback : ResponseCB) (payload : JValue) :
    Replied m (m.callResponseCB callback payload) := by
  unfold callResponseCB
  cases DB8.results payload with
  | none => exact .refl
  | some results =>
    dsimp only
    cases m.callbacks.read callback.callback with
    | some callback => exact { (Replied.refl : Replied m m) with }
    | none => exact .emit trivial

/-- A reply adds no call. -/
theorem replied_onResponse (m : Session) (reply : (String × ℕ) × JValue) :
    Replied m (m.onResponse reply) := by
  obtain ⟨⟨db, id⟩, payload⟩ := reply
  unfold onResponse
  dsimp only
  split_ifs
  · exact .refl
  · cases (m.clients db).taskMap.find id with
    | none => exact .refl
    | some task =>
      have hanswered : Replied m (m.emit (.answered (db, id) payload)) := .emit trivial
      have h := hanswered.trans (replied_callResponseCB _ task.callback payload)
      dsimp only
      split_ifs
      · exact h
      · exact { h with }

theorem replied_foldl_onResponse (replies : List ((String × ℕ) × JValue)) (m : Session) :
    Replied m (replies.foldl onResponse m) := by
  induction replies generalizing m with
  | nil => exact .refl
  | cons reply replies ih => exact (replied_onResponse m reply).trans (ih _)

theorem halted_emit (event : Event) :
    (m.emit event).halted = (m.halted || event.isUndefined) := by
  unfold halted emit
  rw [List.any_append, List.any_cons, List.any_nil, Bool.or_false]

/-- Once every call of `find` has returned, a reply with results to a find that is waited for reads
a variable after its scope, and no other reply does. -/
theorem halted_onResponse (hclosed : m.callbacks.Closed) (reply : (String × ℕ) × JValue) :
    (m.onResponse reply).halted = false ↔ m.halted = false ∧ ¬m.Awaits reply := by
  obtain ⟨⟨db, id⟩, payload⟩ := reply
  unfold onResponse Awaits
  dsimp only
  cases hhalted : m.halted with
  | true =>
    rw [if_pos rfl, hhalted]
    simp
  | false =>
    rw [if_neg (by decide)]
    cases (m.clients db).taskMap.find id with
    | none =>
      rw [hhalted]
      simp
    | some task =>
      -- the parameter of `find` that the closure refers to is gone, whichever find it is
      have hread : (m.emit (.answered (db, id) payload)).callbacks.read task.callback.callback =
        none := hclosed _
      have hanswered : (m.emit (.answered (db, id) payload)).halted = false := by
        rw [halted_emit, hhalted]
        rfl
      unfold callResponseCB
      dsimp only
      cases DB8.results payload with
      | none =>
        dsimp only
        rw [hanswered, if_neg (by decide)]
        exact iff_of_true hanswered ⟨rfl, by simp⟩
      | some results =>
        have hundefined :
            ((m.emit (.answered (db, id) payload)).emit .undefined).halted = true := by
          rw [halted_emit, hanswered]
          rfl
        dsimp only
        rw [hread]
        dsimp only
        rw [hundefined, if_pos rfl, hundefined]
        simp

/-- A run of replies has defined behaviour iff none of them is one with results to a find that is
waited for. -/
theorem halted_run (hclosed : m.callbacks.Closed) (replies : List ((String × ℕ) × JValue)) :
    (run onResponse m replies).halted = false ↔
      m.halted = false ∧ Each onResponse (fun m reply => ¬m.Awaits reply) m replies := by
  induction replies generalizing m with
  | nil => exact (and_iff_left trivial).symm
  | cons reply replies ih =>
    have hclosed' : (m.onResponse reply).callbacks.Closed := by
      rw [(replied_onResponse m reply).callbacks]
      exact hclosed
    exact (ih hclosed').trans ((and_congr_left' (halted_onResponse hclosed reply)).trans and_assoc)

/-! ## Runs -/

/-- When a search has returned, no call of `find` is going on, and every variable has been read in
its scope. -/
theorem closed_search (env : Env) (w : Service) (sources : SearchSetPtr → Option DB8Source)
    (clients : String → LunaClient ResponseCB) (method : Option String) (searchKey : String) :
    let m := (start clients method).search env w sources searchKey
    m.callbacks.Closed ∧ m.halted = false := by
  have hadv := advances_foldl_searchSet env w sources searchKey w.searchSets.values
    (m := start clients method) Nat.one_pos
  have hclosed := hadv.closed Scope.closed_empty
  obtain ⟨evs, htrace, hin⟩ := hadv.trace
  unfold search
  refine ⟨?_, ?_⟩
  · unfold releaseManager
    dsimp only
    split_ifs
    · exact hclosed
    · exact hclosed
  · unfold halted
    rw [releaseManager_last hadv.holders, htrace]
    refine List.any_eq_false.2 fun e he hundefined => ?_
    cases e with
    | undefined =>
      rcases List.mem_append.1 he with he | he
      · exact hin _ he
      · cases List.mem_singleton.1 he
    | _ => cases hundefined

section Run

variable {before after : List SearchSetPtr} {clients : String → LunaClient ResponseCB}
  {method : Option String} {replies : List ((String × ℕ) × JValue)}

theorem trace_run (env : Env) (clients : String → LunaClient ResponseCB) (method : Option String)
    (searchKey : String) (replies : List ((String × ℕ) × JValue))
    (hsets : w.searchSets.values = before ++ s :: after)
    (he : anyEnabled w s = true) (hs : sources s = some source) :
    let task := (before.foldl (fun m s => m.searchSet env w sources searchKey s)
      (start clients method)).tasks.next
    ∃ (intents : Intents) (earlier finds later : List Event),
      (replies.foldl onResponse ((start clients method).search env w sources searchKey)).trace =
        earlier ++ (finds ++ [.called task [], .filed s intents intents]) ++ later ∧
      (∀ e ∈ earlier, e.Foreign task ∧ ¬e.IsReply) ∧ (∀ e ∈ finds, e.IsFind task) ∧
      (∀ e ∈ later, e.Foreign task) ∧
      finds.length = (start clients method).sent source.db source.targetCount := by
  have hbefore := advances_foldl_searchSet env w sources searchKey before
    (m := start clients method) Nat.one_pos
  have hsearch : (start clients method).search env w sources searchKey =
      (after.foldl (fun m s => m.searchSet env w sources searchKey s)
        ((before.foldl (fun m s => m.searchSet env w sources searchKey s)
          (start clients method)).searchSet env w sources searchKey s)).releaseManager := by
    unfold search
    rw [hsets, List.foldl_append, List.foldl_cons]
  rw [hsearch]
  generalize before.foldl (fun m s => m.searchSet env w sources searchKey s)
    (start clients method) = m at hbefore
  have hheld : 0 < m.manager.holders := by rw [hbefore.holders]; exact Nat.one_pos
  have hown : Searched s (m.sent source.db source.targetCount) m
      (m.searchSet env w sources searchKey s) := searched_searchSet he hs hheld
  have hafter := advances_foldl_searchSet env w sources searchKey after
    (m := m.searchSet env w sources searchKey s) (by rw [hown.manager]; exact hheld)
  have hone : (after.foldl (fun m s => m.searchSet env w sources searchKey s)
      (m.searchSet env w sources searchKey s)).manager.holders = 1 := by
    rw [hafter.holders, hown.manager, hbefore.holders]
    rfl
  generalize after.foldl (fun m s => m.searchSet env w sources searchKey s)
    (m.searchSet env w sources searchKey s) = m' at hafter hone
  obtain ⟨earlier, htrace, hin⟩ := hbefore.trace
  obtain ⟨finds, hlen, hfinds, htrace'⟩ := hown.trace
  obtain ⟨evs, htrace'', hin'⟩ := hafter.trace
  obtain ⟨rest, hrest, hreply⟩ := (replied_foldl_onResponse replies m'.releaseManager).trace
  refine ⟨m.manager.value, earlier, finds, evs ++ (.finished m'.manager.value :: rest), ?_,
    fun e he => ?_, hfinds, fun e he => ?_, ?_⟩
  · rw [hrest, releaseManager_last hone, htrace'', htrace', htrace]
    simp only [start, List.append_assoc, List.cons_append, List.nil_append]
  · exact (hin e he).foreign_of_lt le_rfl
  · rcases List.mem_append.1 he with he | he
    · exact (hin' e he).foreign_of_ge (by rw [hown.next]; exact Nat.lt_succ_self _)
    · rcases List.mem_cons.1 he with rfl | he
      · trivial
      · exact (hreply e he).foreign
  · rw [hlen]
    unfold sent
    rw [hbefore.connected]

/-- **No result of a media search is lost iff it sends no find**: its client is not connected, or
none of its kinds has a target. -/
theorem noneLost_iff (hsets : w.searchSets.values = before ++ s :: after)
    (he : anyEnabled w s = true) (hs : sources s = some source) :
    let task := (before.foldl (fun m s => m.searchSet env w sources searchKey s)
      (start clients method)).tasks.next
    NoneLost w s task
        (replies.foldl onResponse ((start clients method).search env w sources searchKey)).trace ↔
      ((clients source.db).isConnected = true → source.targetCount = 0) := by
  intro task
  obtain ⟨intents, earlier, finds, later, htrace, hearlier, hfinds, hlater, hlen⟩ :=
    trace_run env clients method searchKey replies hsets he hs
  rw [htrace, noneLost_iff_of_trace hearlier hfinds hlater, ← List.length_eq_zero_iff, hlen]
  unfold sent
  split_ifs with hc
  · exact ⟨fun h _ => h, fun h => h hc⟩
  · exact ⟨fun _ h => absurd h hc, fun _ => rfl⟩

end Run

/-! ## The media plugin -/

/-- The service with the plugin attached. -/
def mediaService : Service :=
  let (searchSet, w) := MediaPlugin.make Env.sample (.start .fresh "en")
  (w.addSearchSet Env.sample searchSet).2

/-- Every database is up. -/
def connected : String → LunaClient ResponseCB := fun _ => { isConnected := true }

def mediaSources : SearchSetPtr → Option DB8Source := fun _ => some MediaPlugin.source

/-- The reply to the find by title has a record, the one by artist fails. -/
def mediaReplies : List ((String × ℕ) × JValue) := [
  (("com.webos.mediadb", 1), .obj [("returnValue", .bool true),
    ("results", .arr [.obj [("file_path", .str "/media/a.mp3"), ("title", .str "a")]])]),
  (("com.webos.mediadb", 2), .obj [("returnValue", .bool false)])]

theorem mediaService_values : mediaService.searchSets.values = [] ++ (0 : SearchSetPtr) :: [] := by
  decide

theorem mediaService_enabled : anyEnabled mediaService 0 = true := by decide

/-- A source without a kind calls back with nothing, and loses nothing. -/
theorem noneLost_noKind :
    NoneLost mediaService 0 0 (mediaReplies.foldl onResponse ((start connected none).search
      Env.sample mediaService (fun _ => some { id := "db8", db := "com.webos.mediadb" })
        "a")).trace :=
  (noneLost_iff mediaService_values mediaService_enabled rfl).2 fun _ => by decide

/-- The plugin of the repository loses the record. -/
theorem not_noneLost_media :
    ¬NoneLost mediaService 0 0 (mediaReplies.foldl onResponse ((start connected none).search
      Env.sample mediaService mediaSources "a")).trace := by
  intro h
  have hs : mediaSources 0 = some MediaPlugin.source := rfl
  obtain ⟨intents, earlier, finds, later, htrace, hearlier, hfinds, hlater, hlen⟩ :=
    trace_run Env.sample connected none "a" mediaReplies mediaService_values mediaService_enabled hs
  rw [htrace] at h
  rw [(noneLost_iff_of_trace hearlier hfinds hlater).1 h] at hlen
  revert hlen
  decide

end Session

end UnifiedSearch
