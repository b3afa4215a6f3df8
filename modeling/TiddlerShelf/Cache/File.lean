import TiddlerShelf.Json.Parser
import TiddlerShelf.Json.Printer
import TiddlerShelf.Keyed
import TiddlerShelf.Text.Blank
import TiddlerShelf.Tiddler.Key
import TiddlerShelf.Tiddler.Wire

/-!
# Cache files

Tiddlers kept in a file as one JSON object, under their keys. Every change reads the whole file and
writes it anew. A file that cannot be read stays as it is until it is cleared, and a quota refuses
new keys but not new values.
-/

namespace TiddlerShelf

/-- A file that tiddlers are kept in. It may be missing, and its place may be blocked, so that
nothing can be written there. -/
structure CacheFile where
  text : Option String := none
  quota : Option Nat := none
  blocked : Bool := false

namespace CacheFile

/-- Reads the tiddlers that a text holds. Blanks alone hold none. -/
def entriesOfText? (text : String) : Option (Keyed String Tiddler) :=
  if (Text.trim text.toList).isEmpty then some .empty
  else match Json.parse? text with
    | some (.object members) => (members.mapM entry?).map .ofList
    | _ => none
where
  /-- Reads a key and the tiddler under it. -/
  entry? (m : Option String × Json) : Option (String × Tiddler) := do
    some (← m.1, ← Tiddler.ofJson? m.2)

/-- The text that holds some tiddlers. -/
def textOfEntries (entries : Keyed String Tiddler) : String :=
  (Json.object (entries.entries.map fun e => (some e.1, e.2.toJson))).pretty

/-- The tiddlers in the file, if it can be read. A missing file holds none. -/
def load? (f : CacheFile) : Option (Keyed String Tiddler) :=
  match f.blocked, f.text with
  | false, some text => entriesOfText? text
  | _, _ => some .empty

/-- Writes tiddlers into the file, if nothing blocks it. -/
def write (f : CacheFile) (entries : Keyed String Tiddler) : CacheFile :=
  if f.blocked then f else { f with text := some (textOfEntries entries) }

/-- Whether the quota lets a key in. -/
def admits (f : CacheFile) (entries : Keyed String Tiddler) (key : String) : Bool :=
  entries.contains key || f.quota.all fun limit => entries.size < limit

/-- Keeps a tiddler under its key. -/
def set (f : CacheFile) (t : Tiddler) : CacheFile :=
  match t.durableKey?, f.load? with
  | some key, some entries => if f.admits entries key then f.write (entries.insert key t) else f
  | _, _ => f

/-- The tiddler kept under the key of another. -/
def get? (f : CacheFile) (t : Tiddler) : Option Tiddler := do
  (← f.load?).get? (← t.durableKey?)

/-- Forgets the tiddler kept under the key of another. -/
def remove (f : CacheFile) (t : Tiddler) : CacheFile :=
  match t.durableKey?, f.load? with
  | some key, some entries => f.write (entries.erase key)
  | _, _ => f

/-- All tiddlers kept, in order; none if the file cannot be read. -/
def list (f : CacheFile) : List Tiddler := (f.load?.map Keyed.values).getD []

/-- Forgets all tiddlers, also those that cannot be read. -/
def clear (f : CacheFile) : CacheFile := f.write .empty

end CacheFile

end TiddlerShelf
