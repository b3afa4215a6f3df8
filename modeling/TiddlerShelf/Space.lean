import TiddlerShelf.Text.Cut

/-!
# Spaces

Bags and recipes whose names differ only in an ending for their audience belong to one space.
-/

namespace TiddlerShelf.Space

/-- The endings that mark a container as one facet of a space. -/
def endings : List String := ["_public", "_private", "_archive"]

/-- The space of a container: its name without such an ending. One ending is taken off, not two. -/
def ofName (name : String) : String :=
  match endings.findSome? fun ending => Text.dropEnding? ending.toList name.toList with
  | some space => String.ofList space
  | none => name

end TiddlerShelf.Space
