import TiddlerShelf.Filter.Parser
import TiddlerShelf.Keyed

/-!
# Collections

A collection is a list of tiddlers together with the filter that it has been narrowed by. Narrowing
adds a condition to the filter, putting in order and cutting short keep it, and mapping starts a new
one, since the mapped tiddlers are new values.
-/

namespace TiddlerShelf

/-- Tiddlers and the filter that they have been narrowed by. -/
structure Collection where
  tiddlers : List Tiddler
  filter : Filter := .everything

namespace Collection

/-- One tiddler per title, in the order in which the titles come first. A copy that is not synced
takes the place of one that is. -/
def bestCopies (ts : List Tiddler) : Keyed String Tiddler :=
  ts.foldl (fun seen t =>
    match seen.get? t.title with
    | none => seen.insert t.title t
    | some kept => if kept.isSynced && !t.isSynced then seen.insert t.title t else seen) .empty

/-- A way to make one collection from another. -/
inductive Step
  /-- Keeps the tiddlers that meet a condition. -/
  | narrow (condition : Filter)
  /-- Puts the tiddlers in order; those that compare equal stay in theirs. -/
  | sortBy (order : Tiddler → Tiddler → Ordering)
  /-- Keeps the first tiddlers, or all if no count is given. -/
  | limit (count : Option Nat)
  /-- Keeps one tiddler per title. -/
  | unique
  /-- Makes a new tiddler from each. -/
  | map (f : Tiddler → Tiddler)

/-- What a step makes of a list of tiddlers. -/
def Step.onList : Step → List Tiddler → List Tiddler
  | narrow condition, ts => ts.filter condition.accepts
  | sortBy order, ts => ts.mergeSort fun a b => (order a b).isLE
  | limit none, ts => ts
  | limit (some count), ts => ts.take count
  | unique, ts => (bestCopies ts).values
  | map f, ts => ts.map f

/-- What a step makes of the filter. -/
def Step.onFilter : Step → Filter → Filter
  | narrow condition, f => f.andThen condition
  | map _, _ => .everything
  | _, f => f

/-- Takes a step. -/
def apply (c : Collection) (s : Step) : Collection := ⟨s.onList c.tiddlers, s.onFilter c.filter⟩

/-- Takes steps one after the other. -/
def applyAll (c : Collection) (steps : List Step) : Collection := steps.foldl apply c

/-- Takes steps one after the other and gives what each leads to, and the last collection. A step
that could not be read leaves the collection as it was. -/
def trace {ε : Type} (c : Collection) :
    List (Except ε Step) → List (Except ε Collection) × Collection
  | [] => ([], c)
  | .error e :: steps => (.error e :: (c.trace steps).1, (c.trace steps).2)
  | .ok s :: steps => (.ok (c.apply s) :: ((c.apply s).trace steps).1, ((c.apply s).trace steps).2)

/-- The titles, in order. -/
def titles (c : Collection) : List String := c.tiddlers.map (·.title)

@[simp] theorem tiddlers_apply (c : Collection) (s : Step) :
    (c.apply s).tiddlers = s.onList c.tiddlers := rfl

@[simp] theorem filter_apply (c : Collection) (s : Step) :
    (c.apply s).filter = s.onFilter c.filter := rfl

end Collection

end TiddlerShelf
