import TiddlerShelf.Filter.Token

/-!
# Filters as text

`written` gives the text of a filter: conditions in their token's form, the parts of a conjunction
separated by blanks, those of a disjunction by commas, and round brackets where a part would
otherwise join the wrong group. `isCanonical` singles out the filters that reading can give.
-/

namespace TiddlerShelf.Filter

/-- The token that a condition is written as. -/
def leafChars : Leaf → List Char
  | .title s => '[' :: '[' :: s.toList ++ [']', ']']
  | .tag s => '#' :: s.toList
  | .field name value negated =>
    '[' :: name.toList ++ (if negated then ['!', '='] else ['=']) ++ value.toList ++ [']']
  | .space s => '@' :: s.toList
  | .modifier s => '+' :: s.toList
  | .text s => '"' :: s.toList ++ ['"']

/-- Puts round brackets around a text. -/
def bracketed (cs : List Char) : List Char := '(' :: cs ++ [')']

/-- Whether the filter is a conjunction. -/
def isAll : Filter → Bool
  | all _ => true
  | _ => false

/-- Whether the filter is a disjunction. -/
def isAny : Filter → Bool
  | any _ => true
  | _ => false

mutual

/-- The text of a filter. A predicate has none. -/
def chars : Filter → List Char
  | all parts => partsChars [' '] true parts
  | any parts => partsChars [','] false parts
  | not part => '!' :: (if part.isAll || part.isAny then bracketed part.chars else part.chars)
  | predicate _ => []
  | leaf condition => leafChars condition

/-- The texts of the parts of a conjunction (`inAll`) or a disjunction, with a separator
in between. -/
def partsChars (separator : List Char) (inAll : Bool) : List Filter → List Char
  | [] => []
  | part :: parts =>
    let text := if part.isAny || (inAll && part.isAll) then bracketed part.chars else part.chars
    match parts with
    | [] => text
    | _ => text ++ separator ++ partsChars separator inAll parts

end

/-- The text of a filter. -/
def written (f : Filter) : String := String.ofList f.chars

/-- Whether the operand of a condition consists of characters that its token admits. -/
def leafIsCanonical : Leaf → Bool
  | .title s => s != "" && s.toList.all Token.isTitleChar
  | .tag s | .space s | .modifier s => s != "" && s.toList.all Token.isNameChar
  | .field name value _ =>
    name != "" && name.toList.all Token.isFieldNameChar &&
      value != "" && value.toList.all Token.isTitleChar
  | .text s => s != "" && s.toList.all Token.isQuotedChar

mutual

/-- Whether reading a text can give the filter: every conjunction and disjunction has at least two
parts, there is no predicate, and every condition fits its token. -/
def isCanonical : Filter → Bool
  | all parts | any parts => 2 ≤ parts.length && allCanonical parts
  | not part => part.isCanonical
  | predicate _ => false
  | leaf condition => leafIsCanonical condition

/-- Whether every filter of a list is canonical. -/
def allCanonical : List Filter → Bool
  | [] => true
  | part :: parts => part.isCanonical && allCanonical parts

end

end TiddlerShelf.Filter
