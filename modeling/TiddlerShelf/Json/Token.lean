import TiddlerShelf.Json.Quoted
import TiddlerShelf.Text.Cut
import TiddlerShelf.Text.Decimal

/-!
# Tokens of JSON texts

A JSON text is a sequence of tokens with blanks between them. `Token.chars` writes a token and
`Token.listOfChars?` reads all tokens of a text.
-/

namespace TiddlerShelf.Json

open TiddlerShelf.Text

/-- The smallest part of a JSON text that means something. -/
inductive Token
  | null
  | bool (b : Bool)
  | number (literal : List Char)
  | string (text : Option String)
  | arrayStart
  | arrayEnd
  | objectStart
  | objectEnd
  | colon
  | comma
deriving DecidableEq

/-- The blanks that may stand between tokens. -/
def isGap (c : Char) : Bool := c == ' ' || c == '\n' || c == '\t' || c == '\r'

/-- Reads the digits before the point: a zero, or digits that do not begin with one. -/
def wholeDigits? : List Char → Option (List Char × List Char)
  | '0' :: cs => some (['0'], cs)
  | cs => takeRun? isDigit cs

/-- Reads a fraction, if one begins. -/
def fraction? : List Char → Option (List Char × List Char)
  | '.' :: cs => (takeRun? isDigit cs).map fun (run, rest) => ('.' :: run, rest)
  | cs => some ([], cs)

/-- Reads the digits of an exponent after its sign. -/
def exponentDigits? : List Char → Option (List Char × List Char)
  | '+' :: cs => (takeRun? isDigit cs).map fun (run, rest) => ('+' :: run, rest)
  | '-' :: cs => (takeRun? isDigit cs).map fun (run, rest) => ('-' :: run, rest)
  | cs => takeRun? isDigit cs

/-- Reads an exponent, if one begins. -/
def exponent? : List Char → Option (List Char × List Char)
  | c :: cs =>
    if c = 'e' || c = 'E' then (exponentDigits? cs).map fun (run, rest) => (c :: run, rest)
    else some ([], c :: cs)
  | [] => some ([], [])

/-- Reads a number without a sign. -/
def magnitude? (cs : List Char) : Option (List Char × List Char) := do
  let (whole, cs) ← wholeDigits? cs
  let (fraction, cs) ← fraction? cs
  let (exponent, cs) ← exponent? cs
  some (whole ++ fraction ++ exponent, cs)

/-- Reads a number. -/
def numeral? : List Char → Option (List Char × List Char)
  | '-' :: cs => (magnitude? cs).map fun (literal, rest) => ('-' :: literal, rest)
  | cs => magnitude? cs

namespace Token

/-- The text of a token. A string that is no text is written as one lone half of a
surrogate pair. -/
def chars : Token → List Char
  | null => ['n', 'u', 'l', 'l']
  | bool true => ['t', 'r', 'u', 'e']
  | bool false => ['f', 'a', 'l', 's', 'e']
  | number literal => literal
  | string (some s) => quote s.toList
  | string none => ['"', '\\', 'u', 'd', '8', '0', '0', '"']
  | arrayStart => ['[']
  | arrayEnd => [']']
  | objectStart => ['{']
  | objectEnd => ['}']
  | colon => [':']
  | comma => [',']

/-- Reads one token. -/
def next? : List Char → Option (Token × List Char)
  | '[' :: cs => some (arrayStart, cs)
  | ']' :: cs => some (arrayEnd, cs)
  | '{' :: cs => some (objectStart, cs)
  | '}' :: cs => some (objectEnd, cs)
  | ':' :: cs => some (colon, cs)
  | ',' :: cs => some (comma, cs)
  | '"' :: cs => (unquote? cs).map fun (s, rest) => (string s, rest)
  | 'n' :: 'u' :: 'l' :: 'l' :: cs => some (null, cs)
  | 't' :: 'r' :: 'u' :: 'e' :: cs => some (bool true, cs)
  | 'f' :: 'a' :: 'l' :: 's' :: 'e' :: cs => some (bool false, cs)
  | cs => (numeral? cs).map fun (literal, rest) => (number literal, rest)

end Token

theorem length_of_wholeDigits? {cs run rest : List Char}
    (h : wholeDigits? cs = some (run, rest)) : rest.length < cs.length := by
  unfold wholeDigits? at h
  split at h
  · cases h
    simp
  · exact length_of_takeRun? h

theorem length_of_fraction? {cs run rest : List Char} (h : fraction? cs = some (run, rest)) :
    rest.length ≤ cs.length := by
  unfold fraction? at h
  split at h
  · obtain ⟨⟨_, _⟩, hr, heq⟩ := Option.map_eq_some_iff.1 h
    have := length_of_takeRun? hr
    cases heq
    simp only [List.length_cons]
    omega
  · cases h
    exact Nat.le_refl _

theorem length_of_exponentDigits? {cs run rest : List Char}
    (h : exponentDigits? cs = some (run, rest)) : rest.length < cs.length := by
  unfold exponentDigits? at h
  split at h
  · obtain ⟨⟨_, _⟩, hr, heq⟩ := Option.map_eq_some_iff.1 h
    have := length_of_takeRun? hr
    cases heq
    simp only [List.length_cons]
    omega
  · obtain ⟨⟨_, _⟩, hr, heq⟩ := Option.map_eq_some_iff.1 h
    have := length_of_takeRun? hr
    cases heq
    simp only [List.length_cons]
    omega
  · exact length_of_takeRun? h

theorem length_of_exponent? {cs run rest : List Char} (h : exponent? cs = some (run, rest)) :
    rest.length ≤ cs.length := by
  unfold exponent? at h
  split at h
  · split at h
    · obtain ⟨⟨_, _⟩, hr, heq⟩ := Option.map_eq_some_iff.1 h
      have := length_of_exponentDigits? hr
      cases heq
      simp only [List.length_cons]
      omega
    · cases h
      exact Nat.le_refl _
  · cases h
    exact Nat.le_refl _

theorem length_of_magnitude? {cs run rest : List Char} (h : magnitude? cs = some (run, rest)) :
    rest.length < cs.length := by
  simp only [magnitude?, Option.bind_eq_bind, Option.bind_eq_some_iff] at h
  obtain ⟨⟨w, c₁⟩, h₁, ⟨f, c₂⟩, h₂, ⟨e, c₃⟩, h₃, heq⟩ := h
  have : c₁.length < cs.length := length_of_wholeDigits? h₁
  have : c₂.length ≤ c₁.length := length_of_fraction? h₂
  have : c₃.length ≤ c₂.length := length_of_exponent? h₃
  simp only [Option.some.injEq, Prod.mk.injEq] at heq
  rw [← heq.2]
  omega

theorem length_of_numeral? {cs run rest : List Char} (h : numeral? cs = some (run, rest)) :
    rest.length < cs.length := by
  unfold numeral? at h
  split at h
  · obtain ⟨⟨_, _⟩, hr, heq⟩ := Option.map_eq_some_iff.1 h
    have := length_of_magnitude? hr
    cases heq
    simp only [List.length_cons]
    omega
  · exact length_of_magnitude? h

namespace Token

/-- Reading a token uses up text. -/
theorem length_of_next? {cs rest : List Char} {token : Token}
    (h : next? cs = some (token, rest)) : rest.length < cs.length := by
  unfold next? at h
  split at h
  case h_7 =>
    obtain ⟨⟨_, _⟩, hr, heq⟩ := Option.map_eq_some_iff.1 h
    have := length_of_unquote? hr
    cases heq
    simp only [List.length_cons]
    omega
  case h_11 =>
    obtain ⟨⟨_, _⟩, hr, heq⟩ := Option.map_eq_some_iff.1 h
    have := length_of_numeral? hr
    cases heq
    exact this
  all_goals
    cases h
    simp only [List.length_cons]
    omega

/-- Reads all tokens of a text. -/
def listOfChars? (cs : List Char) : Option (List Token) :=
  match hgap : cs.dropWhile isGap with
  | [] => some []
  | c :: rest =>
    match hnext : next? (c :: rest) with
    | none => none
    | some (token, rest') =>
      have : rest'.length < cs.length := by
        have := length_of_next? hnext
        have := Text.length_dropWhile_le (p := isGap) cs
        rw [hgap] at this
        omega
      (listOfChars? rest').map (token :: ·)
termination_by cs.length

end Token

end TiddlerShelf.Json
