import TiddlerShelf.Container
import TiddlerShelf.Tiddler.Fields
import TiddlerShelf.Time.Instant

/-!
# Tiddlers

A tiddler is a small titled document. It carries a sync stamp exactly while it is a copy confirmed
by the server. `sameAs` is the equality the store decides by: all fields agree, where containers are
compared by name.
-/

namespace TiddlerShelf

/-- A titled document. -/
structure Tiddler where
  title : String
  text : String := ""
  tags : List String := []
  fields : Fields := .empty
  revision : Option Nat := none
  modifier : Option String := none
  creator : Option String := none
  modified : Option String := none
  created : Option String := none
  contentType : Option String := none
  permissions : List String := []
  bag : Option Container := none
  recipe : Option Container := none
  lastSync : Option Instant := none
deriving DecidableEq

namespace Tiddler

/-- Files the tiddler under a container according to the container's kind. -/
def placeIn (t : Tiddler) (c : Container) : Tiddler :=
  match c.kind with
  | .bag => { t with bag := some c }
  | .recipe => { t with recipe := some c }

/-- An empty tiddler addressed through a container. -/
def inContainer (title : String) (c : Container) : Tiddler := Tiddler.placeIn { title } c

/-- Whether the tiddler is a copy confirmed by the server. -/
def isSynced (t : Tiddler) : Bool := t.lastSync.isSome

/-- Whether the tiddler knows where it lives. -/
def hasContainer (t : Tiddler) : Bool := t.bag.isSome || t.recipe.isSome

def bagName (t : Tiddler) : Option String := t.bag.map (·.name)

def recipeName (t : Tiddler) : Option String := t.recipe.map (·.name)

/-- The space the tiddler comes from, by its bag. -/
def space (t : Tiddler) : Option String := t.bag.map (·.spaceName)

/-- What two tiddlers must share to count as equal: every field, of the containers only
the names. -/
def identity (t : Tiddler) : Tiddler × Option String × Option String :=
  ({ t with bag := none, recipe := none }, t.bagName, t.recipeName)

/-- Whether two tiddlers agree in every field, containers being compared by name. -/
def sameAs (s t : Tiddler) : Bool := s.identity == t.identity

theorem sameAs_iff {s t : Tiddler} : s.sameAs t = true ↔ s.identity = t.identity := by
  simp [sameAs]

theorem sameAs_refl (t : Tiddler) : t.sameAs t = true := sameAs_iff.2 rfl

theorem sameAs_comm (s t : Tiddler) : s.sameAs t = t.sameAs s := by
  simp only [sameAs, Bool.beq_comm]

/-- How a caller points at a tiddler: by title alone, or with a whole document. -/
inductive Target
  | title (title : String)
  | document (t : Tiddler)

namespace Target

/-- The title pointed at. -/
def name : Target → String
  | title s => s
  | document t => t.title

/-- The document handed over, if there was one. -/
def given? : Target → Option Tiddler
  | title _ => none
  | document t => some t

/-- A tiddler to look up with. -/
def wanted : Target → Tiddler
  | title s => { title := s }
  | document t => t

end Target

end Tiddler

end TiddlerShelf
