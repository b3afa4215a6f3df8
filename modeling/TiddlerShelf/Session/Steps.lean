import TiddlerShelf.Session.Settle

/-!
# What may happen in a session

From outside, tasks are started and dropped, requests are held and released, the server and the
store are changed, and the session goes on with a new store.
-/

namespace TiddlerShelf.Session

variable {α : Type}

/-- Starts a task that runs a program on the store at hand. -/
def start (m : Session α) (id : TaskId) (p : Program α) (background : Bool) : Session α :=
  { m with
    tasks := m.tasks.insert id { waiting := .turn p, generation := m.generation, background }
    ready := m.ready ++ [id] }

/-- Holds requests of a kind from now on. Tasks at an earlier gate of the kind are
forgotten there. -/
def hold (m : Session α) (op : Operation) : Session α :=
  { m with gates := m.gates.insert op [] }

/-- Releases requests of a kind: the tasks at the gate can go on. -/
def release (m : Session α) (op : Operation) : Session α :=
  { m with ready := m.ready ++ m.gates.getD op [], gates := m.gates.erase op }

/-- Removes a task from wherever it waits. -/
def dismiss (m : Session α) (id : TaskId) : Session α :=
  { m.unready id with
    tasks := m.tasks.erase id
    gates := m.gates.mapValues fun ids => ids.filter (· ≠ id) }

/-- Drops a task where it waits. If it was finding out the defaults, those queued behind it try
again. A background task goes on, with nobody waiting for its result. -/
def drop (m : Session α) (id : TaskId) : Session α :=
  match m.tasks.get? id with
  | none => m
  | some task =>
    if task.background then { m with tasks := m.tasks.insert id { task with abandoned := true } }
    else
      let m := (m.dismiss id).switchTo task.generation
      match task.waiting with
      | .discovery _ =>
        { m with ready := m.ready ++ m.store.resolver.queue }.setResolver .unresolved
      | .queued _ => m.setResolver (m.store.resolver.leave id)
      | _ => m

/-- Changes the server. -/
def onServer (m : Session α) (f : Server → Server) : Session α := { m with server := f m.server }

/-- Changes the store at hand, with a value to give. -/
def onStore {β : Type} (m : Session α) (f : Store → β × Store) : β × Session α :=
  ((f m.store).1, { m with store := (f m.store).2 })

/-- Goes on with a new store, which gets the cache of the one at hand. -/
def restart (m : Session α) (newStore : Cache → Store) : Session α :=
  let m := m.collectHeard
  { m with
    store := newStore m.store.modified.cache
    generation := m.generation + 1
    others := m.others.insert m.generation m.store }

/-- Takes the newest store to hand. -/
def toNewest (m : Session α) : Session α :=
  m.switchTo (m.others.keys.foldl max m.generation)

/-- Takes out what the listeners have heard since the last time. -/
def takeHeard (m : Session α) : List (String × Change) × Session α :=
  let m := m.collectHeard
  (m.heard, { m with heard := [] })

/-- Takes out the results of the tasks that have ended since the last time. -/
def takeEnded (m : Session α) : List (TaskId × α) × Session α := (m.ended, { m with ended := [] })

/-- The tasks that wait and whose results somebody waits for. -/
def unfinished (m : Session α) : List TaskId :=
  (m.tasks.entries.filter fun e => !e.2.abandoned).map Prod.fst

end TiddlerShelf.Session
