import TiddlerShelf.Tiddler.Basic

/-!
# Keys

A tiddler is filed under its bag and its title. The key is both with a slash in between, where
slashes and percent signs inside them are escaped, so that the slash in between stands out.
-/

namespace TiddlerShelf

/-- A character as it stands in a key. -/
def Key.escapeChar (c : Char) : List Char :=
  if c = '%' then ['%', '2', '5'] else if c = '/' then ['%', '2', 'F'] else [c]

/-- A name as it stands in a key. -/
def Key.escape (name : String) : List Char := name.toList.flatMap escapeChar

/-- The key of a title in a bag. -/
def Key.ofNames (bag title : String) : String := String.ofList (escape bag ++ '/' :: escape title)

namespace Tiddler

/-- The key that the tiddler is filed under. A tiddler without a bag is filed under the
empty name. -/
def key (t : Tiddler) : String := Key.ofNames (t.bagName.getD "") t.title

/-- The key that the tiddler is kept under outside the store, where it needs a bag. -/
def durableKey? (t : Tiddler) : Option String := t.bagName.map fun bag => Key.ofNames bag t.title

end Tiddler

end TiddlerShelf
