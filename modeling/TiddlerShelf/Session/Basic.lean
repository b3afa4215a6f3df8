import TiddlerShelf.Remote.Server
import TiddlerShelf.Store.Program

/-!
# Sessions

A session is a store at work: the server it talks to, and tasks that run its programs one at a time.
A task runs until it ends or has to wait. Requests of a kind may be held: tasks that make one then
wait at a gate until the kind is released. A session may go on with a new store; the tasks of a
former one keep it, and all stores share the server and the cache.
-/

namespace TiddlerShelf

namespace Session

/-- What a task waits for, and how it goes on. -/
inductive Waiting (α : Type)
  /-- Its turn. -/
  | turn (p : Program α)
  /-- The server's answer to a request. -/
  | answer (r : Request) (next : Except RemoteError r.Reply → Program α)
  /-- The server's answer to where the client is, for itself and those queued behind. -/
  | discovery (next : Except StoreError Defaults → Program α)
  /-- The defaults, which another task is finding out. -/
  | queued (next : Except StoreError Defaults → Program α)

/-- Whether the task is the one that finds the defaults out. -/
def Waiting.isDiscovery {α : Type} : Waiting α → Bool
  | discovery _ => true
  | _ => false

/-- A task that has not ended. -/
structure Task (α : Type) where
  waiting : Waiting α
  /-- Which store the task works on. -/
  generation : Nat
  /-- Whether the task goes on when nobody waits for its result. -/
  background : Bool := false
  /-- Whether nobody waits for its result any more. -/
  abandoned : Bool := false

end Session

/-- A store at work. -/
structure Session (α : Type) where
  server : Server := {}
  /-- The store at hand, and which one it is. -/
  store : Store
  generation : Nat := 0
  /-- The other stores. -/
  others : Keyed Nat Store := .empty
  /-- The kinds of request that are held, with the tasks at each gate. -/
  gates : Keyed Operation (List TaskId) := .empty
  tasks : Keyed TaskId (Session.Task α) := .empty
  /-- The tasks that can go on, in the order in which they will. -/
  ready : List TaskId := []
  /-- The results of tasks that have ended, in order. -/
  ended : List (TaskId × α) := []
  /-- What listeners of stores not at hand have heard. -/
  heard : List (String × Change) := []

namespace Session

variable {α : Type}

/-- Takes what the listeners have heard out of the store at hand. -/
def collectHeard (m : Session α) : Session α :=
  { m with
    heard := m.heard ++ m.store.audience.heard
    store := { m.store with audience := { m.store.audience with heard := [] } } }

/-- A store with the cache of another. -/
def withCacheOf (s other : Store) : Store :=
  { s with modified := { s.modified with cache := other.modified.cache } }

/-- Takes another store to hand. The cache, which all share, goes along. -/
def switchTo (m : Session α) (generation : Nat) : Session α :=
  match m.others.get? generation with
  | some s =>
    let m := m.collectHeard
    { m with
      store := withCacheOf s m.store
      generation
      others := (m.others.erase generation).insert m.generation m.store }
  | none => m

/-- Whether requests of a kind are held. -/
def isHeld (m : Session α) (op : Operation) : Bool := m.gates.contains op

/-- Lets a task wait. -/
def wait (m : Session α) (id : TaskId) (waiting : Waiting α) : Session α :=
  match m.tasks.get? id with
  | some task => { m with tasks := m.tasks.insert id { task with waiting } }
  | none => m

/-- Lets a task wait at the gate of a kind of request. -/
def park (m : Session α) (id : TaskId) (op : Operation) (waiting : Waiting α) : Session α :=
  let m := m.wait id waiting
  { m with gates := m.gates.insert op (m.gates.getD op [] ++ [id]) }

/-- Ends a task with a result, which is kept if somebody waits for it. -/
def finish (m : Session α) (id : TaskId) (a : α) : Session α :=
  match m.tasks.get? id with
  | some task =>
    { m with
      tasks := m.tasks.erase id
      ended := if task.abandoned then m.ended else m.ended ++ [(id, a)] }
  | none => m

/-- Changes how far the store at hand is in finding out its defaults. -/
def setResolver (m : Session α) (resolver : Resolver) : Session α :=
  { m with store := { m.store with resolver } }

/-- The defaults that follow from the server's answer, or why there are none. -/
def defaultsOf (host : String) : Except RemoteError Discovery → Except StoreError Defaults
  | .error cause => .error (.discovery cause)
  | .ok found =>
    match Defaults.ofDiscovery? found host with
    | some d => .ok d
    | none => .error .nothingReported

/-- Has the server say where the client is, and keeps the defaults that follow. -/
def discover (m : Session α) : Except StoreError Defaults × Session α :=
  let (answer, server) := m.server.answer .discover
  let result := defaultsOf m.store.host answer
  (result, { m with server }.setResolver (.ofResult result))

/-- Gives a task that queues for the defaults what has been found out, so that it can go on. -/
def deliver (result : Except StoreError Defaults) (m : Session α) (id : TaskId) : Session α :=
  match (m.tasks.get? id).map Task.waiting with
  | some (.queued next) => { m.wait id (.turn (next result)) with ready := m.ready ++ [id] }
  | _ => m

/-- Has the defaults found out for a task and for all that queue behind it. -/
def conclude (m : Session α) : Except StoreError Defaults × Session α :=
  let queue := m.store.resolver.queue
  let (result, m) := m.discover
  (result, queue.foldl (deliver result) m)

/-- Runs a program of a task until it ends or has to wait. -/
def run (id : TaskId) : Program α → Session α → Session α
  | .done a, m => m.finish id a
  | .look next, m => run id (next m.store) m
  | .write s next, m => run id next { m with store := s }
  | .ask r next, m =>
    let m := { m with server := m.server.receive r }
    if m.isHeld r.operation then m.park id r.operation (.answer r next)
    else run id (next (m.server.answer r).1) { m with server := (m.server.answer r).2 }
  | .resolve next, m =>
    match m.store.resolver with
    | .resolved d => run id (next (.ok d)) m
    | .discovering _ =>
      (m.setResolver (m.store.resolver.enqueue id)).wait id (.queued next)
    | .unresolved =>
      let m := { m with server := m.server.receive .discover }
      if m.isHeld .discover then
        (m.setResolver (.discovering [])).park id .discover (.discovery next)
      else run id (next m.discover.1) m.discover.2

/-- Lets a task go on from where it waits. -/
def resume (id : TaskId) (m : Session α) : Waiting α → Session α
  | .turn p => run id p m
  | .answer r next => run id (next (m.server.answer r).1) { m with server := (m.server.answer r).2 }
  | .discovery next => run id (next m.conclude.1) m.conclude.2
  | .queued next => run id (.resolve next) m

/-- Takes a task out of those that are ready. -/
def unready (m : Session α) (id : TaskId) : Session α :=
  { m with ready := m.ready.filter (· ≠ id) }

/-- Lets one ready task go on. -/
def advance (m : Session α) (id : TaskId) : Session α :=
  match m.tasks.get? id with
  | some task => ((m.unready id).switchTo task.generation).resume id task.waiting
  | none => m.unready id

end Session

end TiddlerShelf
