import TiddlerShelf.Text.Decimal
import TiddlerShelf.Text.LowerCase
import TiddlerShelf.Tiddler.Basic

/-!
# Attributes

Filters and sorting look a tiddler's attributes up by name: a built-in attribute first, then the
free-form field of that name. A built-in attribute that is empty gives way to the field.
-/

namespace TiddlerShelf

/-- The value of an attribute. -/
inductive Attribute
  | number (n : Nat)
  | text (s : String)
  | list (items : List String)
deriving DecidableEq

namespace Attribute

/-- Whether the value counts as present: an empty text or list does not. -/
def isFilled : Attribute → Bool
  | number _ => true
  | text s => s != ""
  | list items => !items.isEmpty

def asText? : Attribute → Option String
  | text s => some s
  | _ => none

/-- Whether the value equals a filter's operand. A list equals none. -/
def equalsText (value : String) : Attribute → Bool
  | text s => s == value
  | number n => Text.numeral n == value
  | list _ => false

/-- The value with all letters in lower case. -/
def folded : Attribute → Attribute
  | number n => number n
  | text s => text (Text.lowerCase s)
  | list items => list (items.map Text.lowerCase)

/-- Numbers come before texts and texts before lists; within a kind the order is that of numbers, of
code points, and of lists item by item. -/
def order : Attribute → Attribute → Ordering
  | number m, number n => compare m n
  | number _, _ => .lt
  | text _, number _ => .gt
  | text s, text t => compare s t
  | text _, list _ => .lt
  | list xs, list ys => List.compareLex compare xs ys
  | list _, _ => .gt

/-- The order of optional values: a missing one comes first, and case makes no difference. -/
def orderOptional : Option Attribute → Option Attribute → Ordering
  | none, none => .eq
  | none, some _ => .lt
  | some _, none => .gt
  | some a, some b => order a.folded b.folded

end Attribute

namespace Tiddler

/-- The built-in attribute of a name. -/
def builtIn? (t : Tiddler) (name : String) : Option Attribute :=
  match name with
  | "title" => some (.text t.title)
  | "text" => some (.text t.text)
  | "tags" => some (.list t.tags)
  | "permissions" => some (.list t.permissions)
  | "revision" => t.revision.map .number
  | "modifier" => t.modifier.map .text
  | "creator" => t.creator.map .text
  | "modified" => t.modified.map .text
  | "created" => t.created.map .text
  | "type" => t.contentType.map .text
  | "bag" => t.bagName.map .text
  | "recipe" => t.recipeName.map .text
  | _ => none

/-- The attribute of a name: the built-in one if it is filled, else the free-form field, else the
built-in one though it is empty. -/
def attribute? (t : Tiddler) (name : String) : Option Attribute :=
  match (t.builtIn? name).filter Attribute.isFilled with
  | some value => some value
  | none => ((t.fields.get? name).map .text).or (t.builtIn? name)

/-- Whether the tiddler has a filled attribute of that name. -/
def hasAttribute (t : Tiddler) (name : String) : Bool :=
  (t.attribute? name).any Attribute.isFilled

end Tiddler

end TiddlerShelf
