import TiddlerShelf.Filter.Basic
import TiddlerShelf.Text.WordChar

/-!
# Tokens of filter texts

A filter text is read token by token. Each kind of token has its rule, the rules are tried in a
fixed order, and the first that fits decides. `length_of_next` says that reading a token always uses
up text, and that the inside of a bracketed block is shorter than the text around it.

| Token      | Written                           |
|------------|-----------------------------------|
| title      | `[[Title]]`                       |
| tag        | `#tag`                            |
| field      | `[name=value]`, `[name!=value]`   |
| space      | `@space`                          |
| modifier   | `+modifier`                       |
| text       | `"part"`                          |
| not        | `!` before anything but a word    |
| block      | `( ... )`                         |
| or         | `,`                               |
-/

namespace TiddlerShelf.Filter

/-- Why a text is no filter. -/
inductive ParseError
  | unmatchedBrackets
  | emptyFilter
  | missingOperand (rest : String)
deriving DecidableEq

def ParseError.message : ParseError → String
  | unmatchedBrackets => "Brackets don't match"
  | emptyFilter => "No filter found"
  | missingOperand rest => "Negation at '" ++ rest ++ "' has nothing to negate"

/-- The smallest part of a filter text that means something. -/
inductive Token
  | leaf (condition : Leaf)
  | not
  | block (inner : List Char)
  | or
deriving DecidableEq

namespace Token

open TiddlerShelf.Text

/-- The characters of the names that follow a sign: all but blanks and commas. -/
def isNameChar (c : Char) : Bool := !isBlank c && c != ','

/-- The characters of a title: all but the closing square bracket. -/
def isTitleChar (c : Char) : Bool := c != ']'

/-- The characters of a field's name. -/
def isFieldNameChar (c : Char) : Bool := c != '!' && c != '=' && c != ']'

/-- The characters of a quoted text. -/
def isQuotedChar (c : Char) : Bool := c != '"'

/-- Reads `[[Title]]`. -/
def title? : List Char → Option (Leaf × List Char)
  | '[' :: '[' :: cs =>
    match takeRun? isTitleChar cs with
    | some (title, ']' :: ']' :: rest) => some (.title (String.ofList title), rest)
    | _ => none
  | _ => none

/-- Reads a sign and the name after it. -/
def signed? (sign : Char) (condition : String → Leaf) : List Char → Option (Leaf × List Char)
  | c :: cs =>
    if c = sign then
      (takeRun? isNameChar cs).map fun (name, rest) => (condition (String.ofList name), rest)
    else none
  | [] => none

/-- Reads the value of a field and the bracket after it. -/
def fieldValue? (name : List Char) (negated : Bool) (cs : List Char) : Option (Leaf × List Char) :=
  match takeRun? isTitleChar cs with
  | some (value, ']' :: rest) =>
    some (.field (String.ofList name) (String.ofList value) negated, rest)
  | _ => none

/-- Reads `[name=value]` or `[name!=value]`. -/
def field? : List Char → Option (Leaf × List Char)
  | '[' :: cs =>
    match takeRun? isFieldNameChar cs with
    | some (name, '=' :: rest) => fieldValue? name false rest
    | some (name, '!' :: '=' :: rest) => fieldValue? name true rest
    | _ => none
  | _ => none

/-- Reads a text between quotes. -/
def quoted? : List Char → Option (Leaf × List Char)
  | '"' :: cs =>
    match takeRun? isQuotedChar cs with
    | some (part, '"' :: rest) => some (.text (String.ofList part), rest)
    | _ => none
  | _ => none

/-- Reads a condition, by the first rule that fits. -/
def leaf? (cs : List Char) : Option (Leaf × List Char) :=
  title? cs <|> signed? '#' .tag cs <|> field? cs <|> signed? '@' .space cs <|>
    signed? '+' .modifier cs <|> quoted? cs

/-- Splits a text at the bracket that closes the last of `depth + 1` open ones. -/
def closeBlock (depth : Nat) : List Char → Option (List Char × List Char)
  | [] => none
  | c :: cs =>
    if c = ')' then
      match depth with
      | 0 => some ([], cs)
      | depth + 1 => (closeBlock depth cs).map fun (inner, rest) => (c :: inner, rest)
    else (closeBlock (if c = '(' then depth + 1 else depth) cs).map
      fun (inner, rest) => (c :: inner, rest)

/-- Reads a token that is no condition. An exclamation mark before a word is none. -/
def sign? : List Char → Except ParseError (Option (Token × List Char))
  | '!' :: c :: cs => .ok (if isWordChar c then none else some (not, c :: cs))
  | '(' :: cs =>
    match closeBlock 0 cs with
    | some (inner, rest) => .ok (some (block inner, rest))
    | none => .error .unmatchedBrackets
  | ',' :: cs => .ok (some (or, cs))
  | _ => .ok none

/-- Reads the token that a text begins with, blanks aside; `none` if there is none. -/
def next (cs : List Char) : Except ParseError (Option (Token × List Char)) :=
  match leaf? (trim cs) with
  | some (condition, rest) => .ok (some (leaf condition, rest))
  | none => sign? (trim cs)

/-- The length of the text inside a token. -/
def innerLength : Token → Nat
  | block inner => inner.length
  | _ => 0

theorem length_of_title? {cs rest : List Char} {l : Leaf} (h : title? cs = some (l, rest)) :
    rest.length < cs.length := by
  unfold title? at h
  split at h
  · split at h
    · rename_i hrun
      have := length_of_takeRun? hrun
      cases h
      simp only [List.length_cons] at this ⊢
      omega
    · cases h
  · cases h

theorem length_of_signed? {sign : Char} {condition : String → Leaf} {cs rest : List Char} {l : Leaf}
    (h : signed? sign condition cs = some (l, rest)) : rest.length < cs.length := by
  unfold signed? at h
  split at h
  · split at h
    · obtain ⟨⟨run, rest'⟩, hrun, heq⟩ := Option.map_eq_some_iff.1 h
      have := length_of_takeRun? hrun
      cases heq
      simp only [List.length_cons]
      omega
    · cases h
  · cases h

theorem length_of_fieldValue? {name cs rest : List Char} {negated : Bool} {l : Leaf}
    (h : fieldValue? name negated cs = some (l, rest)) : rest.length < cs.length := by
  unfold fieldValue? at h
  split at h
  · rename_i hrun
    have := length_of_takeRun? hrun
    cases h
    simp only [List.length_cons] at this
    omega
  · cases h

theorem length_of_field? {cs rest : List Char} {l : Leaf} (h : field? cs = some (l, rest)) :
    rest.length < cs.length := by
  unfold field? at h
  split at h
  · split at h
    · rename_i hrun
      have h₁ := length_of_takeRun? hrun
      have h₂ := length_of_fieldValue? h
      simp only [List.length_cons] at h₁ ⊢
      omega
    · rename_i hrun
      have h₁ := length_of_takeRun? hrun
      have h₂ := length_of_fieldValue? h
      simp only [List.length_cons] at h₁ ⊢
      omega
    · cases h
  · cases h

theorem length_of_quoted? {cs rest : List Char} {l : Leaf} (h : quoted? cs = some (l, rest)) :
    rest.length < cs.length := by
  unfold quoted? at h
  split at h
  · split at h
    · rename_i hrun
      have := length_of_takeRun? hrun
      cases h
      simp only [List.length_cons] at this ⊢
      omega
    · cases h
  · cases h

theorem length_of_leaf? {cs rest : List Char} {l : Leaf} (h : leaf? cs = some (l, rest)) :
    rest.length < cs.length := by
  simp only [leaf?, Option.orElse_eq_orElse, Option.orElse_eq_or, Option.or_eq_some_iff] at h
  rcases h with h | ⟨-, h | ⟨-, h | ⟨-, h | ⟨-, h | ⟨-, h⟩⟩⟩⟩⟩
  · exact length_of_title? h
  · exact length_of_signed? h
  · exact length_of_field? h
  · exact length_of_signed? h
  · exact length_of_signed? h
  · exact length_of_quoted? h

/-- Closing a block splits the text at one bracket. -/
theorem append_of_closeBlock {depth : Nat} {cs inner rest : List Char}
    (h : closeBlock depth cs = some (inner, rest)) : inner ++ ')' :: rest = cs := by
  induction cs generalizing depth inner with
  | nil => simp [closeBlock] at h
  | cons c cs ih =>
    simp only [closeBlock] at h
    split at h
    · rename_i hc
      subst hc
      split at h
      · cases h
        rfl
      · obtain ⟨⟨i, r⟩, hi, heq⟩ := Option.map_eq_some_iff.1 h
        cases heq
        simp [ih hi]
    · obtain ⟨⟨i, r⟩, hi, heq⟩ := Option.map_eq_some_iff.1 h
      cases heq
      simp [ih hi]

theorem length_of_sign? {cs rest : List Char} {token : Token}
    (h : sign? cs = .ok (some (token, rest))) : rest.length + token.innerLength < cs.length := by
  unfold sign? at h
  split at h
  · split at h
    · cases h
    · cases h
      simp [innerLength]
  · split at h
    · rename_i hblock
      have := congrArg List.length (append_of_closeBlock hblock)
      cases h
      simp only [innerLength, List.length_append, List.length_cons] at this ⊢
      omega
    · cases h
  · cases h
    simp [innerLength]
  · cases h

/-- Reading a token uses up text: what remains and what the token has inside are shorter together
than the text was. -/
theorem length_of_next {cs rest : List Char} {token : Token}
    (h : next cs = .ok (some (token, rest))) : rest.length + token.innerLength < cs.length := by
  have htrim := length_trim_le cs
  unfold next at h
  split at h
  · rename_i hleaf
    have := length_of_leaf? hleaf
    cases h
    simp only [innerLength]
    omega
  · have := length_of_sign? h
    omega

end Token

end TiddlerShelf.Filter
