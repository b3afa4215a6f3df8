import TiddlerShelf.Hub.Event
import TiddlerShelf.Keyed

/-!
# Hubs

Listeners register with a hub for all events of a kind, for those of one name, or for changes of
tiddlers that a predicate accepts. An event calls the listeners of its kind first, then those of its
name, then those whose predicates accept the tiddler, each group in the order of registration.
Listeners and predicates are told apart by identity: one that registers twice is called twice.
-/

namespace TiddlerShelf

/-- A test on tiddlers with an identity of its own: two predicates of one test are still two. -/
structure Predicate where
  id : Nat
  accepts : Tiddler → Bool

/-- The registrations for one kind of event. -/
structure Bindings (ℓ : Type) where
  all : List ℓ := []
  named : Keyed String (List ℓ) := .empty

namespace Bindings

variable {ℓ : Type}

/-- The listeners registered for a name. -/
def forName (b : Bindings ℓ) : Option String → List ℓ
  | none => []
  | some name => b.named.getD name []

/-- Registers a listener for a name, or for all names. -/
def bind (b : Bindings ℓ) (name : Option String) (listener : ℓ) : Bindings ℓ :=
  match name with
  | none => { b with all := b.all ++ [listener] }
  | some name => { b with named := b.named.insert name (b.named.getD name [] ++ [listener]) }

/-- Drops a listener, or every one, from a list. -/
def strip [DecidableEq ℓ] (listener : Option ℓ) (ls : List ℓ) : List ℓ :=
  match listener with
  | none => []
  | some listener => ls.filter (· ≠ listener)

/-- Drops a listener, or every one, from a name, or from all names and from where no name
was given. -/
def unbind [DecidableEq ℓ] (b : Bindings ℓ) (name : Option String) (listener : Option ℓ) :
    Bindings ℓ :=
  let b := match name with
    | some name =>
      match b.named.get? name with
      | some ls => { b with named := b.named.insert name (strip listener ls) }
      | none => b
    | none => { all := strip listener b.all, named := b.named.mapValues (strip listener) }
  { b with named := b.named.filterValues fun ls => !ls.isEmpty }

/-- The number of registrations. -/
def size (b : Bindings ℓ) : Nat := b.all.length + total List.length b.named.values

end Bindings

/-- The registrations of listeners. -/
structure Hub (ℓ : Type) where
  bindings : EventKind → Bindings ℓ := fun _ => {}
  filters : List (Predicate × ℓ) := []

namespace Hub

variable {ℓ : Type}

/-- Changes the registrations for one kind. -/
def modify (h : Hub ℓ) (kind : EventKind) (f : Bindings ℓ → Bindings ℓ) : Hub ℓ :=
  { h with bindings := fun k => if k = kind then f (h.bindings k) else h.bindings k }

/-- Registers a listener for the events of a kind, all or those of one name. -/
def bind (h : Hub ℓ) (kind : EventKind) (name : Option String) (listener : ℓ) : Hub ℓ :=
  h.modify kind (·.bind name listener)

/-- Registers a listener for changes of tiddlers that a predicate accepts. -/
def bindFilter (h : Hub ℓ) (predicate : Predicate) (listener : ℓ) : Hub ℓ :=
  { h with filters := h.filters ++ [(predicate, listener)] }

/-- Drops registrations for a kind: for one name or for whatever name, of one listener or of all. -/
def unbind [DecidableEq ℓ] (h : Hub ℓ) (kind : EventKind) (name : Option String)
    (listener : Option ℓ) : Hub ℓ :=
  h.modify kind (·.unbind name listener)

/-- Drops the registrations with a predicate. -/
def unbindFilter (h : Hub ℓ) (predicate : Predicate) : Hub ℓ :=
  { h with filters := h.filters.filter fun f => f.1.id ≠ predicate.id }

/-- The listeners whose predicates accept what has changed. Predicates hear of tiddlers only. -/
def accepting (h : Hub ℓ) (e : Event) : List ℓ :=
  match e.kind, e.change.tiddler? with
  | .tiddler, some t => (h.filters.filter fun f => f.1.accepts t).map Prod.snd
  | _, _ => []

/-- The listeners that an event calls, in order. -/
def called (h : Hub ℓ) (e : Event) : List ℓ :=
  (h.bindings e.kind).all ++ (h.bindings e.kind).forName e.name ++ h.accepting e

/-- The number of registrations. -/
def size (h : Hub ℓ) : Nat :=
  (h.bindings .recipe).size + (h.bindings .bag).size + (h.bindings .tiddler).size + h.filters.length

end Hub

end TiddlerShelf
