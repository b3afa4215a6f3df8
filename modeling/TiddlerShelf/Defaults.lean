import TiddlerShelf.Remote.Basic
import TiddlerShelf.Text.Cut

/-!
# Default containers

A store reads from one container and files new tiddlers in another. Where they are not given, they
follow from the recipe or the bag that the server says the client is in.
-/

namespace TiddlerShelf

/-- The containers that a store reads from and writes to. -/
structure Defaults where
  pullFrom : Container
  pushTo : Container
deriving DecidableEq

namespace Defaults

/-- Reads from and writes to one container. -/
def single (c : Container) : Defaults := ⟨c, c⟩

/-- Splits a text at its last `sep`, which belongs to neither part. -/
def splitLast (sep : Char) : List Char → Option (List Char × List Char)
  | [] => none
  | c :: cs =>
    match splitLast sep cs with
    | some (left, right) => some (c :: left, right)
    | none => if c = sep then some ([], cs) else none

/-- What stands before the last underscore of a recipe's name. Something must stand on both sides of
it, and what stands before it must be on one line. -/
def spaceOfRecipe? (name : String) : Option String :=
  match splitLast '_' name.toList with
  | some (space, ending) =>
    if space ≠ [] ∧ ending ≠ [] ∧ '\n' ∉ space then some (String.ofList space) else none
  | none => none

/-- The bag that drafts go to when they are read through a recipe: the public bag of its space. -/
def publicBag? (recipe : String) : Option String :=
  (spaceOfRecipe? recipe).map (· ++ "_public")

/-- The defaults that follow from what a server reported, if it named a recipe or a bag. An empty
name is none. -/
def ofDiscovery? (found : Discovery) (host : String) : Option Defaults :=
  match found.recipe.filter (· != ""), found.bag.filter (· != "") with
  | some recipe, _ =>
    let pullFrom : Container := { kind := .recipe, name := recipe, host }
    match publicBag? recipe with
    | some bag => some { pullFrom, pushTo := { kind := .bag, name := bag, host } }
    | none => some (single pullFrom)
  | none, some bag => some (single { kind := .bag, name := bag, host })
  | none, none => none

end Defaults

end TiddlerShelf
