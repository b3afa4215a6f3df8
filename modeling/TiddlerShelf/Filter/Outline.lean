import TiddlerShelf.Filter.Basic
import TiddlerShelf.Text.Quoted

/-!
# Outlines of filters

An outline shows how a filter is built, node by node, for people who inspect one.
-/

namespace TiddlerShelf.Filter

open TiddlerShelf.Text

/-- The outline of a condition. -/
def leafOutline : Leaf → String
  | .title s => "Title(" ++ quoted s ++ ")"
  | .tag s => "Tag(" ++ quoted s ++ ")"
  | .field name value negated =>
    "Field \x7b field: " ++ quoted name ++ ", value: " ++ quoted value ++ ", negated: " ++
      (if negated then "true" else "false") ++ " \x7d"
  | .space s => "Space(" ++ quoted s ++ ")"
  | .modifier s => "Modifier(" ++ quoted s ++ ")"
  | .text s => "Text(" ++ quoted s ++ ")"

/-- Texts between square brackets, with commas in between. -/
def listOutline (items : List String) : String := "[" ++ String.intercalate ", " items ++ "]"

mutual

/-- The outline of a filter. -/
def outline : Filter → String
  | all parts => "And(" ++ listOutline (outlines parts) ++ ")"
  | any parts => "Or(" ++ listOutline (outlines parts) ++ ")"
  | not part => "Not(" ++ part.outline ++ ")"
  | predicate _ => "Function(..)"
  | leaf condition => "Match(" ++ leafOutline condition ++ ")"

/-- The outlines of the filters of a list. -/
def outlines : List Filter → List String
  | [] => []
  | part :: parts => part.outline :: outlines parts

end

/-- The outline of a filter ready to be applied, which keeps its parts to itself. -/
def testerOutline : String := "Tester(..)"

end TiddlerShelf.Filter
