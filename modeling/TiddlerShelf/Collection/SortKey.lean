import TiddlerShelf.Text.Blank
import TiddlerShelf.Text.Cut
import TiddlerShelf.Tiddler.Attribute

/-!
# Sort keys

An order is written as the names of attributes with commas in between, such as `title, -modified`.
The first attribute in which two tiddlers differ decides, and a minus sign turns its direction
around.
-/

namespace TiddlerShelf.Collection

open TiddlerShelf.Text

/-- An attribute to sort by and the direction. -/
structure SortKey where
  name : String
  descending : Bool
deriving DecidableEq

namespace SortKey

/-- Reads one key without the blanks around it. An empty one is none. -/
def ofChars? : List Char → Option SortKey
  | [] => none
  | '-' :: name => some ⟨String.ofList name, true⟩
  | name => some ⟨String.ofList name, false⟩

/-- Reads the keys of an order. -/
def listOfText (order : String) : List SortKey :=
  (splitAll ',' order.toList).filterMap fun part => ofChars? (trim part)

/-- The value that a tiddler is sorted by: an empty one counts as missing. -/
def value? (key : SortKey) (t : Tiddler) : Option Attribute :=
  (t.attribute? key.name).filter Attribute.isFilled

/-- Compares two tiddlers by one key. -/
def compare (key : SortKey) (s t : Tiddler) : Ordering :=
  let order := Attribute.orderOptional (key.value? s) (key.value? t)
  if key.descending then order.swap else order

/-- Compares two tiddlers by the first key in which they differ. -/
def compareAll (keys : List SortKey) (s t : Tiddler) : Ordering :=
  keys.foldr (fun key rest => (key.compare s t).then rest) .eq

end SortKey

end TiddlerShelf.Collection
