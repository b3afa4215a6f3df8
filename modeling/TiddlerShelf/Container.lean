import TiddlerShelf.Space

/-!
# Containers

A tiddler lives in a bag and may be read through a recipe, an ordered stack of bags. Containers are
told apart by name alone: `sameAs` compares nothing else, while `=` compares every field.
-/

namespace TiddlerShelf

/-- The two kinds of container. -/
inductive Container.Kind
  | bag
  | recipe
deriving DecidableEq

/-- The word for a kind of container. -/
def Container.Kind.word : Container.Kind → String
  | bag => "bag"
  | recipe => "recipe"

/-- A bag or a recipe on a server. The bags of a recipe are listed lowest precedence first. -/
structure Container where
  kind : Container.Kind
  name : String
  host : String := "/"
  bags : List String := []
deriving DecidableEq

namespace Container

/-- The bag of a name on the default host. -/
def bag (name : String) : Container := { kind := .bag, name }

/-- The recipe of a name on the default host. -/
def recipe (name : String) : Container := { kind := .recipe, name }

def isBag (c : Container) : Bool := c.kind == .bag

def isRecipe (c : Container) : Bool := c.kind == .recipe

/-- Whether two containers count as the same one: they have one name. -/
def sameAs (c d : Container) : Bool := c.name == d.name

/-- A host without the slashes at its end. -/
def hostRoot (host : String) : String :=
  String.ofList (Text.trimEndWhile (· == '/') host.toList)

/-- The address of the container's listing, such as `/bags/notes`. -/
def route (c : Container) : String := hostRoot c.host ++ "/" ++ c.kind.word ++ "s/" ++ c.name

/-- The space the container belongs to. -/
def spaceName (c : Container) : String := Space.ofName c.name

/-- A short name with the kind, such as `bag:notes`. -/
def label (c : Container) : String := c.kind.word ++ ":" ++ c.name

/-- Why a text does not name a container. -/
inductive SpecError
  | noKind (spec : String)
  | noName (spec : String)
  | unknownKind (word : String)
deriving DecidableEq

def SpecError.message : SpecError → String
  | noKind spec => "expected bag:NAME or recipe:NAME, got " ++ spec
  | noName spec => "container name missing in " ++ spec
  | unknownKind word => "unknown container kind: " ++ word

/-- Reads `bag:NAME` or `recipe:NAME`, with blanks allowed around both parts. -/
def ofSpec (spec : String) : Except SpecError Container :=
  match Text.splitOnce ':' spec.toList with
  | none => .error (.noKind spec)
  | some (kind, name) =>
    let name := String.ofList (Text.trim name)
    let kind := String.ofList (Text.trim kind)
    if name = "" then .error (.noName spec)
    else if kind = Kind.bag.word then .ok (bag name)
    else if kind = Kind.recipe.word then .ok (recipe name)
    else .error (.unknownKind kind)

end Container

end TiddlerShelf
