import TiddlerShelf.Filter.Basic
import TiddlerShelf.Hub.Basic

/-!
# Audiences

An audience is a hub together with the listeners that register there. A listener notes what it hears
and then, the first few times it is called, acts: it may register itself and others, cancel
registrations, announce events, or have an edit withdrawn.
-/

namespace TiddlerShelf

/-- Something that a listener does. Where an action names a listener for the first time, it makes
that listener, with the actions it takes in its first `times` calls. -/
inductive Action
  | bind (kind : EventKind) (name : Option String) (listener : String) (script : List Action)
    (times : Nat)
  | unbind (kind : EventKind) (name : Option String) (listener : Option String)
  | bindFilter (label : String) (filter : Filter) (listener : String) (script : List Action)
    (times : Nat)
  | unbindFilter (label : String)
  | announce (event : Event)
  | withdraw (title : String)

/-- A listener: what it does when called, and in how many calls it still does so. -/
structure Listener where
  script : List Action := []
  remaining : Nat := 0

/-- Listeners and their registrations. -/
structure Audience where
  hub : Hub String := {}
  listeners : Keyed String Listener := .empty
  predicates : Keyed String Predicate := .empty
  /-- The identity that the next predicate gets. -/
  nextPredicate : Nat := 0
  /-- What was heard by which listener, in order. -/
  heard : List (String × Change) := []
  /-- The titles whose edits listeners have had withdrawn, in order, if there was one or not. -/
  withdrawn : List String := []

namespace Audience

/-- Makes a listener unless there is one of that name. -/
def meet (a : Audience) (name : String) (l : Listener) : Audience :=
  if a.listeners.contains name then a else { a with listeners := a.listeners.insert name l }

/-- Makes a predicate with an identity of its own. -/
def freshPredicate (a : Audience) (accepts : Tiddler → Bool) : Predicate × Audience :=
  (⟨a.nextPredicate, accepts⟩, { a with nextPredicate := a.nextPredicate + 1 })

/-- The predicate under a label, which is made on first use. -/
def predicate (a : Audience) (label : String) (filter : Filter) : Predicate × Audience :=
  match a.predicates.get? label with
  | some p => (p, a)
  | none =>
    let (p, a) := a.freshPredicate filter.accepts
    (p, { a with predicates := a.predicates.insert label p })

/-- Registers a listener under a predicate of its own, which the label stands for from now on. -/
def bindFresh (a : Audience) (label : String) (filter : Filter) (listener : String) : Audience :=
  let (p, a) := (a.meet listener {}).freshPredicate filter.accepts
  { a with predicates := a.predicates.insert label p, hub := a.hub.bindFilter p listener }

/-- Registers a listener or cancels registrations. Other actions change nothing here. -/
def register (a : Audience) : Action → Audience
  | .bind kind name listener script times =>
    let a := a.meet listener ⟨script, times⟩
    { a with hub := a.hub.bind kind name listener }
  | .unbind kind name none => { a with hub := a.hub.unbind kind name none }
  | .unbind kind name (some listener) =>
    let a := a.meet listener {}
    { a with hub := a.hub.unbind kind name (some listener) }
  | .bindFilter label filter listener script times =>
    let (p, a) := (a.meet listener ⟨script, times⟩).predicate label filter
    { a with hub := a.hub.bindFilter p listener }
  | .unbindFilter label =>
    match a.predicates.get? label with
    | some p => { a with hub := a.hub.unbindFilter p }
    | none => a
  | .announce _ | .withdraw _ => a

/-- Takes note that a listener has had the edit of a title withdrawn. -/
def noteWithdrawn (a : Audience) (title : String) : Audience :=
  { a with withdrawn := a.withdrawn ++ [title] }

/-- Calls a listener: it notes the change, and its actions come due while it has calls to act in. -/
def hear (a : Audience) (name : String) (change : Change) : Audience × List Action :=
  let a := { a with heard := a.heard ++ [(name, change)] }
  match a.listeners.get? name with
  | some ⟨script, remaining + 1⟩ =>
    ({ a with listeners := a.listeners.insert name ⟨script, remaining⟩ }, script)
  | _ => (a, [])

end Audience

end TiddlerShelf
