import TiddlerShelf.Tiddler.Basic

/-!
# Events

An event says that a tiddler has changed or gone, or that a container has come into view. It has a
kind and the name of what it is about.
-/

namespace TiddlerShelf

/-- The kinds of event. -/
inductive EventKind
  | recipe
  | bag
  | tiddler
deriving DecidableEq

/-- The kind that a word stands for. -/
def EventKind.ofWord? : String → Option EventKind
  | "recipe" => some recipe
  | "bag" => some bag
  | "tiddler" => some tiddler
  | _ => none

/-- What has happened. -/
inductive Change
  | changed (t : Tiddler)
  | deleted (t : Tiddler)
  | container (c : Container)
deriving DecidableEq

namespace Change

/-- The tiddler that has changed or gone. -/
def tiddler? : Change → Option Tiddler
  | changed t | deleted t => some t
  | container _ => none

/-- Whether a tiddler has gone. -/
def isDeleted : Change → Bool
  | deleted _ => true
  | _ => false

end Change

/-- Something that happened, as it is announced. -/
structure Event where
  kind : EventKind
  name : Option String
  change : Change
deriving DecidableEq

namespace Event

/-- A tiddler has changed. -/
def changed (t : Tiddler) : Event := ⟨.tiddler, some t.title, .changed t⟩

/-- A tiddler has gone. -/
def deleted (t : Tiddler) : Event := ⟨.tiddler, some t.title, .deleted t⟩

/-- A bag has come into view. -/
def bagSeen (bag : Container) : Event := ⟨.bag, some bag.name, .container bag⟩

/-- The store has come to read from a container. -/
def moved (place : Container) : Event :=
  ⟨if place.isRecipe then .recipe else .bag, some place.name, .container place⟩

end Event

end TiddlerShelf
