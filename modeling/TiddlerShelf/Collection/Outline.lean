import TiddlerShelf.Collection.Basic
import TiddlerShelf.Filter.Outline

/-!
# Outlines of collections

An outline shows the titles and the filter of a collection, for people who inspect one.
-/

namespace TiddlerShelf.Collection

/-- The outline of a collection. -/
def outline (c : Collection) : String :=
  "Collection \x7b titles: " ++ Filter.listOutline (c.titles.map Text.quoted) ++ ", ast: " ++
    c.filter.outline ++ " \x7d"

end TiddlerShelf.Collection
