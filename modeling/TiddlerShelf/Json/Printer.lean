import TiddlerShelf.Json.Basic
import TiddlerShelf.Json.Token

/-!
# Writing JSON

The tokens of a value, and its text in two layouts: `compact` has no blanks, `pretty` puts each item
and member on a line of its own.
-/

namespace TiddlerShelf.Json

mutual

/-- The tokens that write a value. -/
def tokens : Json → List Token
  | .null => [.null]
  | .bool b => [.bool b]
  | .number literal => [.number literal]
  | .string s => [.string s]
  | .array items => .arrayStart :: itemTokens items ++ [.arrayEnd]
  | .object members => .objectStart :: memberTokens members ++ [.objectEnd]

/-- The tokens of the items of an array, with commas in between. -/
def itemTokens : List Json → List Token
  | [] => []
  | [v] => v.tokens
  | v :: w :: items => v.tokens ++ .comma :: itemTokens (w :: items)

/-- The tokens of the members of an object, with commas in between. -/
def memberTokens : List (Option String × Json) → List Token
  | [] => []
  | [(key, v)] => .string key :: .colon :: v.tokens
  | (key, v) :: m :: members =>
    .string key :: .colon :: v.tokens ++ .comma :: memberTokens (m :: members)

end

/-- The text of a value without blanks. -/
def compact (v : Json) : String := String.ofList (v.tokens.flatMap Token.chars)

/-- A line break and the blanks that a line begins with, two for each level. -/
def lineBreak (level : Nat) : List Char := '\n' :: List.replicate (2 * level) ' '

mutual

/-- The text of a value on lines of their own, inside `level` arrays and objects. -/
def prettyChars (level : Nat) : Json → List Char
  | .array [] => ['[', ']']
  | .array items => '[' :: prettyItems (level + 1) items ++ lineBreak level ++ [']']
  | .object [] => ['{', '}']
  | .object members => '{' :: prettyMembers (level + 1) members ++ lineBreak level ++ ['}']
  | .null => Token.null.chars
  | .bool b => (Token.bool b).chars
  | .number literal => literal
  | .string s => (Token.string s).chars

/-- The items of an array, each on its line, with commas in between. -/
def prettyItems (level : Nat) : List Json → List Char
  | [] => []
  | [v] => lineBreak level ++ prettyChars level v
  | v :: w :: items =>
    lineBreak level ++ prettyChars level v ++ ',' :: prettyItems level (w :: items)

/-- The members of an object, each on its line, with commas in between. -/
def prettyMembers (level : Nat) : List (Option String × Json) → List Char
  | [] => []
  | [(key, v)] => lineBreak level ++ (Token.string key).chars ++ [':', ' '] ++ prettyChars level v
  | (key, v) :: m :: members =>
    lineBreak level ++ (Token.string key).chars ++ [':', ' '] ++ prettyChars level v ++
      ',' :: prettyMembers level (m :: members)

end

/-- The text of a value with each item and member on a line of its own. -/
def pretty (v : Json) : String := String.ofList (prettyChars 0 v)

end TiddlerShelf.Json
