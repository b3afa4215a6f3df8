import TiddlerShelf.Defaults

/-!
# Resolvers

A store finds out its default containers once. While a task asks the server, others that need the
defaults queue behind it and get the same answer; a failure is forgotten, so that the next task asks
again.
-/

namespace TiddlerShelf

/-- The identity of a task: the number under which it was started. -/
abbrev TaskId := Nat

/-- How far a store is in finding out its defaults. -/
inductive Resolver
  | unresolved
  | discovering (queue : List TaskId)
  | resolved (d : Defaults)
deriving DecidableEq

namespace Resolver

/-- The defaults, once they are known. -/
def defaults? : Resolver → Option Defaults
  | resolved d => some d
  | _ => none

/-- Whether a task is asking the server. -/
def isDiscovering : Resolver → Bool
  | discovering _ => true
  | _ => false

/-- The tasks that wait for the answer. -/
def queue : Resolver → List TaskId
  | discovering queue => queue
  | _ => []

/-- Queues a task, if another is asking. -/
def enqueue (id : TaskId) : Resolver → Resolver
  | discovering queue => discovering (queue ++ [id])
  | r => r

/-- The state after an attempt to find the defaults out. -/
def ofResult {ε : Type} : Except ε Defaults → Resolver
  | .ok d => resolved d
  | .error _ => unresolved

/-- Takes a task out of the queue. -/
def leave (id : TaskId) : Resolver → Resolver
  | discovering queue => discovering (queue.filter (· ≠ id))
  | r => r

end Resolver

end TiddlerShelf
