import TiddlerShelf.Container

/-!
# Sources

A source is a listing that a store fetches again whenever it is refreshed: that of a container, or
the hits of a search. Its route tells it from others.
-/

namespace TiddlerShelf

/-- A listing to be fetched again. -/
inductive Source
  | container (c : Container)
  | search (query host : String)
deriving DecidableEq

namespace Source

/-- The address of the listing. -/
def route : Source → String
  | container c => c.route
  | search query host => Container.hostRoot host ++ "/search?q=" ++ query

/-- Whether the listing is that of a search. -/
def isSearch : Source → Bool
  | container _ => false
  | search .. => true

end Source

end TiddlerShelf
