import TiddlerShelf.Json.Basic
import TiddlerShelf.Text.Decimal
import TiddlerShelf.Tiddler.Basic
import TiddlerShelf.Time.Rfc3339

/-!
# Tiddlers as JSON

`Tiddler.toJson` writes all slots of a tiddler and `Tiddler.ofJson?` reads them. A slot that is
missing takes its default, one that is present must have its exact type, and only the optional slots
may be `null`.
-/

namespace TiddlerShelf

open TiddlerShelf.Text

namespace Json

/-- The largest numbers that a revision may have lie below this one. -/
def wordLimit : Nat := Nat.pow 2 64

/-- A number value. -/
def ofNat (n : Nat) : Json := .number (digits n)

/-- Reads a number that is written with digits alone and fits into a word. -/
def nat? : Json → Option Nat
  | .number literal =>
    if literal.all isDigit && digitsValue literal < wordLimit then some (digitsValue literal)
    else none
  | _ => none

/-- A list of strings. -/
def ofTexts (items : List String) : Json := .array (items.map ofString)

/-- Reads a list of strings. -/
def texts? : Json → Option (List String) := list? text?

/-- Reads what is in a slot, or takes the default of an empty one. -/
def slot? {α : Type} (read? : Json → Option α) (default : α) : Option Json → Option α
  | none => some default
  | some v => read? v

end Json

namespace Fields

/-- The fields as an object. -/
def toJson (fs : Fields) : Json := .object (fs.entries.map fun e => (some e.1, .ofString e.2))

/-- Reads an object of strings; of two members with one key the later counts. -/
def ofJson? : Json → Option Fields
  | .object members => (members.mapM readMember?).map ofList
  | _ => none
where
  /-- Reads one member. -/
  readMember? (m : Option String × Json) : Option (String × String) := do
    some (← m.1, ← m.2.text?)

end Fields

namespace Container

/-- The slots of a container. -/
def slotNames : List String := ["kind", "name", "host", "bags"]

/-- Reads the word for a kind, which may also stand as the only key over a `null`. -/
def Kind.ofJson? : Json → Option Kind
  | .string (some word) => ofWord? word
  | .object [(some word, .null)] => ofWord? word
  | _ => none
where
  /-- The kind that a word stands for. -/
  ofWord? (word : String) : Option Kind :=
    if word = bag.word then some bag else if word = recipe.word then some recipe else none

/-- The container as an object, which leaves an empty list of bags out. -/
def toJson (c : Container) : Json :=
  .object (
    [ (some "kind", .ofString c.kind.word),
      (some "name", .ofString c.name),
      (some "host", .ofString c.host) ] ++
    if c.bags.isEmpty then [] else [(some "bags", .ofTexts c.bags)])

/-- Reads a container. -/
def ofJson? (v : Json) : Option Container := do
  match ← v.slots? slotNames with
  | [kind, name, host, bags] =>
    some {
      kind := ← Kind.ofJson? (← kind)
      name := ← (← name).text?
      host := ← Json.slot? Json.text? "/" host
      bags := ← Json.slot? Json.texts? [] bags }
  | _ => none

end Container

namespace Tiddler

/-- The slots of a tiddler, in the order in which they are written. -/
def slotNames : List String :=
  ["title", "text", "tags", "fields", "revision", "modifier", "creator", "modified", "created",
    "type", "permissions", "bag", "recipe", "lastSync"]

/-- The tiddler as an object with all slots. -/
def toJson (t : Tiddler) : Json :=
  .object [
    (some "title", .ofString t.title),
    (some "text", .ofString t.text),
    (some "tags", .ofTexts t.tags),
    (some "fields", t.fields.toJson),
    (some "revision", .ofOption .ofNat t.revision),
    (some "modifier", .ofOption .ofString t.modifier),
    (some "creator", .ofOption .ofString t.creator),
    (some "modified", .ofOption .ofString t.modified),
    (some "created", .ofOption .ofString t.created),
    (some "type", .ofOption .ofString t.contentType),
    (some "permissions", .ofTexts t.permissions),
    (some "bag", .ofOption Container.toJson t.bag),
    (some "recipe", .ofOption Container.toJson t.recipe),
    (some "lastSync", .ofOption (fun i => .ofString i.toText) t.lastSync) ]

/-- Reads a slot that may be missing or `null`. -/
def optional? {α : Type} (read? : Json → Option α) : Option Json → Option (Option α) :=
  Json.slot? (Json.nullable? read?) none

/-- Reads a tiddler. -/
def ofJson? (v : Json) : Option Tiddler := do
  match ← v.slots? slotNames with
  | [title, text, tags, fields, revision, modifier, creator, modified, created, contentType,
      permissions, bag, recipe, lastSync] =>
    some {
      title := ← (← title).text?
      text := ← Json.slot? Json.text? "" text
      tags := ← Json.slot? Json.texts? [] tags
      fields := ← Json.slot? Fields.ofJson? .empty fields
      revision := ← optional? Json.nat? revision
      modifier := ← optional? Json.text? modifier
      creator := ← optional? Json.text? creator
      modified := ← optional? Json.text? modified
      created := ← optional? Json.text? created
      contentType := ← optional? Json.text? contentType
      permissions := ← Json.slot? Json.texts? [] permissions
      bag := ← optional? Container.ofJson? bag
      recipe := ← optional? Container.ofJson? recipe
      lastSync := ← optional? (fun v => v.text?.bind Instant.parseLoose?) lastSync }
  | _ => none

end Tiddler

end TiddlerShelf
