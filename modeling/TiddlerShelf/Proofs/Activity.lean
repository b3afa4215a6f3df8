import Mathlib.Logic.Function.Basic
import TiddlerShelf.Proofs.Calls
import TiddlerShelf.Session.Basic

/-! # Stores at work with any server

An activity is a store with the tasks that work on it, where the server may answer what it likes
and when it likes, and tasks go on in any order. Each move lets one task go on through one stretch
of its program, drops a task, or changes the store from outside. What a run has done is a list of
transitions, so that one can ask what happened in it and what was true at the time. -/

namespace TiddlerShelf

open Program

/-- Where a task stands that waits. -/
inductive Activity.Phase
  /-- It waits for the answer to a request that it made when the store was in an earlier state. -/
  | asking (r : Request) (since : Store) (next : Except RemoteError r.Reply → Program Call.Outcome)
  /-- It has the defaults found out. -/
  | discovering (next : Except StoreError Defaults → Program Call.Outcome)
  /-- It waits for another task to find out the defaults. -/
  | queued (next : Except StoreError Defaults → Program Call.Outcome)
  /-- It has been told what has become of finding out the defaults. -/
  | informed (result : Except StoreError Defaults)
    (next : Except StoreError Defaults → Program Call.Outcome)

/-- A task: the call that it works on, and where it stands. -/
structure Activity.Task where
  call : Call
  phase : Activity.Phase

/-- A store at work. -/
structure Activity where
  store : Store
  tasks : TaskId → Option Activity.Task := fun _ => none
  /-- All tasks so far have lower numbers than this. -/
  fresh : TaskId := 0
  /-- The results of the tasks that have ended, in order. -/
  ended : List (TaskId × Call.Outcome) := []

/-- A change of a store from outside that is over at once. -/
inductive Deed
  | remove (target : Tiddler.Target)
  | act (action : Action)
  | bind (label : String) (c : Collection) (listener : String)
  | reload
  | clearCache
  /-- Somebody else writes what the cache keeps. -/
  | shareCache (cache : Cache)
  /-- What listeners have heard is taken out. -/
  | takeHeard

/-- The store after a deed. -/
def Deed.on : Deed → Store → Store
  | remove target, s => (s.remove target).2
  | act action, s => s.perform action
  | bind label c listener, s => s.bindCollection label c listener
  | reload, s => s.retrieveCached.2
  | clearCache, s => s.clearCache
  | shareCache cache, s => { s with modified := { s.modified with cache } }
  | takeHeard, s => { s with audience := { s.audience with heard := [] } }

/-- A step of an activity, as it looks from outside. -/
inductive Move
  /-- A task goes on through a stretch of its call. -/
  | go (id : TaskId) (c : Call) (k : Cause)
  /-- A task that lost the one it waited for starts over to wait for the defaults. -/
  | again (id : TaskId)
  /-- A task is given up. -/
  | drop (id : TaskId)
  | deed (d : Deed)

def Store.withResolver (s : Store) (resolver : Resolver) : Store := { s with resolver }

@[simp] theorem Store.resolver_withResolver (s : Store) (resolver : Resolver) :
    (s.withResolver resolver).resolver = resolver := rfl

namespace Activity

/-- Lets a task wait, or ends it. -/
def setTask (a : Activity) (id : TaskId) (t : Option Task) : Activity :=
  { a with tasks := Function.update a.tasks id t }

/-- Goes on with a program of a task until it ends or has to wait. -/
def goOn (a : Activity) (id : TaskId) (c : Call) (p : Program Call.Outcome) : Activity :=
  match p.proceed a.store with
  | (s, .ended outcome) =>
    { a.setTask id none with store := s, ended := a.ended ++ [(id, outcome)] }
  | (s, .asking r next) => { a.setTask id (some ⟨c, .asking r s next⟩) with store := s }
  | (s, .resolving next) =>
    match s.resolver with
    | .discovering _ =>
      { a.setTask id (some ⟨c, .queued next⟩) with
        store := s.withResolver (s.resolver.enqueue id) }
    | _ =>
      { a.setTask id (some ⟨c, .discovering next⟩) with
        store := s.withResolver (.discovering []) }

/-- An activity after a call has been made. -/
def call (a : Activity) (c : Call) : Activity :=
  ({ a with fresh := a.fresh + 1 } : Activity).goOn a.fresh c c.program

/-- An activity after the server has answered a task. -/
def reply (a : Activity) (id : TaskId) (server : ∀ r : Request, Except RemoteError r.Reply) :
    Activity :=
  match a.tasks id with
  | some ⟨c, .asking r _ next⟩ => a.goOn id c (next (server r))
  | _ => a

/-- Tells a task what has become of finding out the defaults, if it waits for that. -/
def Task.inform (result : Except StoreError Defaults) (t : Task) : Task :=
  match t.phase with
  | .queued next => ⟨t.call, .informed result next⟩
  | _ => t

/-- Tells all tasks in the queue what has become of finding out the defaults. -/
def inform (a : Activity) (result : Except StoreError Defaults) : Activity :=
  { a with
    store := a.store.withResolver (.ofResult result)
    tasks := fun id =>
      if id ∈ a.store.resolver.queue then (a.tasks id).map (Task.inform result) else a.tasks id }

/-- An activity after the task that has the defaults found out has come to know them, or why it
cannot. -/
def discover (a : Activity) (id : TaskId) (result : Except StoreError Defaults) : Activity :=
  match a.tasks id with
  | some ⟨c, .discovering next⟩ => (a.inform result).goOn id c (next result)
  | _ => a

/-- What the resolver is left with when a task is given up. -/
def Phase.release (id : TaskId) (resolver : Resolver) : Phase → Resolver
  | .discovering _ => .unresolved
  | .queued _ => resolver.leave id
  | _ => resolver

/-- Giving up a task never brings the defaults to light. -/
theorem Phase.resolved_of_release {id : TaskId} {resolver : Resolver} {phase : Phase} {d : Defaults}
    (h : phase.release id resolver = .resolved d) : resolver = .resolved d := by
  cases phase with
  | asking _ _ _ => exact h
  | discovering _ => contradiction
  | queued _ => cases resolver <;> first | exact h | contradiction
  | informed _ _ => exact h

/-- The steps of an activity. -/
inductive Step : Activity → Move → Activity → Prop
  | call {a : Activity} {id : TaskId} {c : Call} (h : a.fresh ≤ id) :
    Step a (.go id c .called) (({ a with fresh := id + 1 } : Activity).goOn id c c.program)
  | answer {a : Activity} {id : TaskId} {c : Call} {r : Request} {since : Store}
    {next : Except RemoteError r.Reply → Program Call.Outcome}
    (h : a.tasks id = some ⟨c, .asking r since next⟩) (answer : Except RemoteError r.Reply) :
    Step a (.go id c (.answered since r answer)) (a.goOn id c (next answer))
  | learn {a : Activity} {id : TaskId} {c : Call}
    {next : Except StoreError Defaults → Program Call.Outcome}
    (h : a.tasks id = some ⟨c, .discovering next⟩) {answer : Except RemoteError Discovery}
    {result : Except StoreError Defaults}
    (hresult : Session.defaultsOf a.store.host answer = result) :
    Step a (.go id c (.resolved result)) ((a.inform result).goOn id c (next result))
  | informed {a : Activity} {id : TaskId} {c : Call} {result : Except StoreError Defaults}
    {next : Except StoreError Defaults → Program Call.Outcome}
    (h : a.tasks id = some ⟨c, .informed result next⟩) :
    Step a (.go id c (.resolved result)) (a.goOn id c (next result))
  | retry {a : Activity} {id : TaskId} {c : Call} {d : Defaults}
    {next : Except StoreError Defaults → Program Call.Outcome}
    (h : a.tasks id = some ⟨c, .queued next⟩) (hd : a.store.resolver = .resolved d) :
    Step a (.go id c (.resolved (.ok d))) (a.goOn id c (next (.ok d)))
  | again {a : Activity} {id : TaskId} {c : Call}
    {next : Except StoreError Defaults → Program Call.Outcome}
    (h : a.tasks id = some ⟨c, .queued next⟩) (hqueue : id ∉ a.store.resolver.queue)
    (hne : ∀ d, a.store.resolver ≠ .resolved d) :
    Step a (.again id) (a.goOn id c (.resolve next))
  | drop {a : Activity} {id : TaskId} {t : Task} (h : a.tasks id = some t) :
    Step a (.drop id)
      { a.setTask id none with
        store := a.store.withResolver (t.phase.release id a.store.resolver) }
  | deed {a : Activity} (d : Deed) : Step a (.deed d) { a with store := d.on a.store }

theorem step_call (a : Activity) (c : Call) : Step a (.go a.fresh c .called) (a.call c) :=
  .call (Nat.le_refl a.fresh)

theorem step_reply {a : Activity} {id : TaskId} {c : Call} {r : Request} {since : Store}
    {next : Except RemoteError r.Reply → Program Call.Outcome}
    (h : a.tasks id = some ⟨c, .asking r since next⟩)
    (server : ∀ r : Request, Except RemoteError r.Reply) :
    Step a (.go id c (.answered since r (server r))) (a.reply id server) := by
  have heq : a.reply id server = a.goOn id c (next (server r)) := by
    unfold reply
    rw [h]
  exact heq ▸ .answer h (server r)

theorem step_discover {a : Activity} {id : TaskId} {c : Call}
    {next : Except StoreError Defaults → Program Call.Outcome}
    (h : a.tasks id = some ⟨c, .discovering next⟩) {answer : Except RemoteError Discovery}
    {result : Except StoreError Defaults}
    (hresult : Session.defaultsOf a.store.host answer = result) :
    Step a (.go id c (.resolved result)) (a.discover id result) := by
  have heq : a.discover id result = (a.inform result).goOn id c (next result) := by
    unfold discover
    rw [h]
  exact heq ▸ .learn h hresult

/-- A step that has been taken. -/
structure Transition where
  before : Activity
  move : Move
  after : Activity

/-- The runs of activities, with all steps taken, in order. -/
inductive Run : Activity → List Transition → Activity → Prop
  | nil (a : Activity) : Run a [] a
  | cons {a b c : Activity} {m : Move} {h : List Transition} (hstep : Step a m b)
    (hrun : Run b h c) : Run a (⟨a, m, b⟩ :: h) c

/-- What all steps of a run keep up, and what holds in its beginning, holds before each step and in
the end. -/
theorem Run.throughout {I : Activity → Prop} {a b : Activity} {h : List Transition}
    (hrun : Run a h b) (ha : I a)
    (hstep : ∀ tr ∈ h, Step tr.before tr.move tr.after → I tr.before → I tr.after) :
    I b ∧ ∀ tr ∈ h, I tr.before := by
  induction hrun with
  | nil => exact ⟨ha, fun _ htr => absurd htr List.not_mem_nil⟩
  | cons hfirst _ ih =>
    have hnext := hstep _ List.mem_cons_self hfirst ha
    obtain ⟨hend, hrest⟩ := ih hnext fun tr htr => hstep tr (List.mem_cons_of_mem _ htr)
    exact ⟨hend, List.forall_mem_cons.2 ⟨ha, hrest⟩⟩

/-- An activity that begins with a store that holds nothing yet. -/
def start (config : Config) (clock : Instant) (defaults : Option Defaults) (cache : Cache) :
    Activity where
  store := Store.fresh config clock defaults cache

/-- Whether an activity can come about. -/
def Reachable (a : Activity) : Prop :=
  ∃ config clock defaults cache h, Run (start config clock defaults cache) h a

end Activity

end TiddlerShelf
