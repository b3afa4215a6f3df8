/-!
# JSON values

A JSON value as it was read: members of objects stay in their order and may repeat a key, numbers
keep their literal. A string whose escapes leave half of a surrogate pair alone is no text; it is
kept as `none`, so that a reader may pass over it.
-/

namespace TiddlerShelf

/-- A JSON value. -/
inductive Json
  | null
  | bool (b : Bool)
  | number (literal : List Char)
  | string (text : Option String)
  | array (items : List Json)
  | object (members : List (Option String × Json))
deriving Inhabited

namespace Json

/-- A string value. -/
def ofString (s : String) : Json := .string (some s)

/-- The text of a string that is one. -/
def text? : Json → Option String
  | .string s => s
  | _ => none

/-- Reads a list whose items `read?` can all read. -/
def list? {α : Type} (read? : Json → Option α) : Json → Option (List α)
  | .array items => items.mapM read?
  | _ => none

/-- Reads a value for which `null` may stand. -/
def nullable? {α : Type} (read? : Json → Option α) : Json → Option (Option α)
  | .null => some none
  | v => (read? v).map some

/-- A value that `null` stands for when there is none. -/
def ofOption {α : Type} (write : α → Json) : Option α → Json
  | none => .null
  | some a => write a

/-- The value of the only member under a key: missing as `some none`, and `none` if it
is repeated. -/
def member? (key : String) (members : List (Option String × Json)) : Option (Option Json) :=
  match members.filter fun m => m.1 == some key with
  | [] => some none
  | [m] => some (some m.2)
  | _ => none

/-- The values of a record's slots. An object gives each slot the value under its name, other keys
being passed over; an array gives values to the first slots in their order. There is no record if a
key is no text, a slot is filled twice or the array is too long. -/
def slots? (names : List String) : Json → Option (List (Option Json))
  | .object members =>
    if members.all fun m => m.1.isSome then names.mapM fun name => member? name members else none
  | .array items =>
    if items.length ≤ names.length then
      some (items.map some ++ List.replicate (names.length - items.length) none)
    else none
  | _ => none

end Json

end TiddlerShelf
