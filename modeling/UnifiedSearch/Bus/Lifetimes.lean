import UnifiedSearch.Bus.Front

/-!
# One service after another

The database outlives the service: a service that starts over what another has
left finds its categories and its items there, and has heard nothing yet. Of the
front only the menu goes on (`Front.leaves`), and this is all a user can tell of
the services before, however many there were (`lifetimes_refine`).
-/

namespace UnifiedSearch

open Lib Service CategoryTable Database

/-- The database a service leaves. -/
def System.leaves (env : Env) (db : Db) (events : List SystemEvent) : Db :=
  (run (System.step env) (System.initial env db) events).service.db

/-- What each service of a row has heard and been asked for. -/
def System.histories (env : Env) (db : Db) (lifetimes : List (List SystemEvent)) :
    List (List FrontEvent) :=
  outputs (System.leaves env) (fun db events => [System.fronts env db events]) db lifetimes

namespace Front

/-- The menu a front leaves. -/
def leaves (m : Menu) (events : List FrontEvent) : Menu :=
  (run step (.restart m) events).board.menu

/-- The menu allows what is asked for in a lifetime. -/
def AllowsAll (m : Menu) (events : List FrontEvent) : Prop := Each step Allows (.restart m) events

instance (m : Menu) (events : List FrontEvent) : Decidable (AllowsAll m events) :=
  inferInstanceAs (Decidable (Each step Allows (.restart m) events))

end Front

namespace System

variable {env : Env} {db : Db} {m : Menu}

theorem standsFor_leaves (h : db.category.StandsFor m) {events : List SystemEvent}
    (hs : ∀ event ∈ events, SoundEvent env event)
    (hok : Front.AllowsAll m (fronts env.healthy db events)) :
    (leaves env.healthy db events).category.StandsFor
      (Front.leaves m (fronts env.healthy db events)) :=
  (presents_run env events h hs hok).serves.table

theorem standsFor_lifetimes (h : db.category.StandsFor m) {lifetimes : List (List SystemEvent)}
    (hs : ∀ events ∈ lifetimes, ∀ event ∈ events, SoundEvent env event)
    (hok : Each Front.leaves Front.AllowsAll m (histories env.healthy db lifetimes)) :
    (run (leaves env.healthy) db lifetimes).category.StandsFor
      (run Front.leaves m (histories env.healthy db lifetimes)) :=
  run_related_each (R := fun (db : Db) m => db.category.StandsFor m)
    (fun _ _ _ hsound hallows h => standsFor_leaves h hsound hallows.1) h hs hok

end System

end UnifiedSearch
