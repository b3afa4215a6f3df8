import TiddlerShelf.Defaults
import TiddlerShelf.Remote.Server

/-!
# Fixtures

A small server to try a store on: six tiddlers in six bags, all under one recipe.
-/

namespace TiddlerShelf.Fixtures

/-- The recipe that the server says the client is in. -/
def currentRecipe : String := "foo_public"

/-- The bags of the recipe, the lowest first. -/
def bags : List String :=
  ["dogs_public", "bunnies_public", "hello_public", "cats_public", "bar_public", "foo_public"]

/-- Tiddlers for the server. -/
def tiddlers : List Tiddler :=
  let cake := Fields.ofList [("cake", "lie")]
  let author := some "bengillies"
  [ { title := "Foo", tags := ["cat", "dog"], fields := cake, modifier := author,
      text := "Foo was 'ere", bag := some (.bag "foo_public") },
    { title := "Bar", tags := ["cat", "rabbit"], text := "Bar was here",
      contentType := some "text/x-tiddler", bag := some (.bag "bar_public") },
    { title := "Fluffy", tags := ["cat"], fields := cake, text := "Meow meow",
      bag := some (.bag "cats_public") },
    { title := "HelloThere", tags := ["introduction"], fields := cake, modifier := author,
      text := "Welcome", bag := some (.bag "hello_public") },
    { title := "bunnywunny", tags := ["dog", "rabbit"], fields := cake, modifier := author,
      bag := some (.bag "bunnies_public") },
    { title := "Woof", text := "Woof woof, I'm a dog, woof woof", bag := some (.bag "dogs_public"),
      recipe := some (.recipe "foo") } ]

/-- The server with its recipe and nothing in the bags. -/
def server : Server :=
  ({ discovery := { recipe := some currentRecipe } } : Server).defineRecipe currentRecipe bags

/-- The server with the tiddlers filed. -/
def filledServer : Server := tiddlers.foldl Server.seed server

/-- Defaults that spare asking the server. -/
def defaults : Defaults := ⟨.recipe currentRecipe, .bag currentRecipe⟩

end TiddlerShelf.Fixtures
