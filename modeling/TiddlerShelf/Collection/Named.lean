import TiddlerShelf.Collection.Basic
import TiddlerShelf.Collection.SortKey
import TiddlerShelf.Text.Decimal
import TiddlerShelf.Time.Rfc3339

/-!
# Named steps

The steps that a collection offers, and the names under which `Step.named` finds them. Some depend
on the place that the store reads from, if it is known. An argument that is needed but cannot be
read counts as not given.

| Name     | Argument                | Keeps tiddlers that                            |
|----------|-------------------------|------------------------------------------------|
| `tag`    | tag                     | carry the tag                                  |
| `title`  | title                   | have exactly this title                        |
| `text`   | part                    | have it in their text                          |
| `bag`    | name                    | live in the bag                                |
| `space`  | name, or none           | come from the space (from the current one)     |
| `recipe` | name, or none           | were read through the recipe (the current one) |
| `dirty`  | time, or none           | are not synced, or were before the time        |
| `sort`   | `title, -modified`      | all, in order                                  |
| `limit`  | count                   | come first                                     |
| `attr`   | `name` or `name=value`  | have the attribute (with the value)            |
| `not`    | `name` or `name=value`  | do not                                         |
| other    | value, or none          | have the attribute of that name (and value)    |
-/

namespace TiddlerShelf.Collection

open TiddlerShelf.Text

/-- Which spaces to keep. -/
inductive SpaceChoice
  | current
  | elsewhere
  | named (space : String)
deriving DecidableEq

namespace Step

/-- Keeps what a filter text accepts. -/
def find? (text : String) : Except Filter.ParseError Step := (Filter.parse text).map narrow

/-- Keeps tiddlers that meet a condition. -/
def condition (l : Leaf) : Step := narrow (.leaf l)

/-- Keeps tiddlers that pass a test. -/
def passing (test : Tiddler → Bool) : Step := narrow (.predicate test)

/-- Keeps tiddlers with an attribute, or with a value of it. -/
def having (name : String) : Option String → Step
  | some value => condition (.field name value false)
  | none => passing fun t => t.hasAttribute name

/-- Keeps tiddlers without an attribute, or without a value of it. -/
def lacking (name : String) : Option String → Step
  | some value => condition (.field name value true)
  | none => passing fun t => !t.hasAttribute name

/-- Keeps the tiddlers of a bag. -/
def bag (name : String) : Step := passing fun t => t.bagName == some name

/-- Keeps the tiddlers of a space. While no place is known, none is in the current space. -/
def space (here : Option Container) : SpaceChoice → Step
  | .named space => condition (.space space)
  | .current =>
    match here with
    | some place => condition (.space place.spaceName)
    | none => passing fun _ => false
  | .elsewhere =>
    match here with
    | some place => narrow (.not (.leaf (.space place.spaceName)))
    | none => narrow .everything

/-- Keeps the tiddlers read through a recipe: the named one, else the current place if it is one. -/
def recipe (here : Option Container) (name : Option String) : Step :=
  let wanted := name.or ((here.filter Container.isRecipe).map (·.name))
  passing fun t => wanted.any fun name => t.recipeName == some name

/-- Keeps the tiddlers that are not synced, or were synced before a time. -/
def dirty (since : Option Instant) : Step :=
  passing fun t => match t.lastSync with
    | none => true
    | some synced => since.any synced.before

/-- Puts tiddlers in the order that sort keys give. -/
def sort (order : String) : Step := sortBy (SortKey.compareAll (SortKey.listOfText order))

/-- Splits `name=value`, with blanks allowed around both. Without an equals sign all is the name. -/
def splitAttribute (argument : String) : String × Option String :=
  match splitOnce '=' argument.toList with
  | some (name, value) => (String.ofList (trim name), some (String.ofList (trim value)))
  | none => (trimText argument, none)

/-- The largest counts lie below this one. -/
def countLimit : Nat := Nat.pow 2 64

/-- Reads a count: digits, with a plus sign and blanks allowed around them. -/
def count? (argument : String) : Option Nat :=
  let cs := trim argument.toList
  let digits := match cs with
    | '+' :: cs => cs
    | cs => cs
  if digits ≠ [] && digits.all isDigit && digitsValue digits < countLimit then
    some (digitsValue digits)
  else none

/-- The step of a name. -/
def named (here : Option Container) (name : String) (argument : Option String) : Step :=
  let text := argument.getD ""
  match name with
  | "tag" => condition (.tag text)
  | "title" => condition (.title text)
  | "text" => condition (.text text)
  | "bag" => bag text
  | "space" => space here (match argument with
    | some name => .named name
    | none => .current)
  | "recipe" => recipe here argument
  | "dirty" => dirty (argument.bind Instant.parse?)
  | "sort" => sort text
  | "limit" => limit (argument.bind count?)
  | "attr" => having (splitAttribute text).1 (splitAttribute text).2
  | "not" => lacking (splitAttribute text).1 (splitAttribute text).2
  | name => having name argument

end Step

end TiddlerShelf.Collection
