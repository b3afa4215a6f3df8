/-!
# JSON strings

The inside of a JSON string: how characters are escaped, and how escapes are read back. Escapes may
name the two halves of a surrogate pair one after the other; a half that stands alone makes the
string no text.
-/

namespace TiddlerShelf.Json

/-- The lower-case digit for a number below sixteen. -/
def hexDigit (n : Nat) : Char := if n < 10 then Char.ofNat (48 + n) else Char.ofNat (87 + n)

/-- The number that a hexadecimal digit of either case stands for. -/
def hexValue? (c : Char) : Option Nat :=
  if '0' ≤ c ∧ c ≤ '9' then some (c.toNat - 48)
  else if 'a' ≤ c ∧ c ≤ 'f' then some (c.toNat - 87)
  else if 'A' ≤ c ∧ c ≤ 'F' then some (c.toNat - 55)
  else none

/-- A character as it stands in a string: quotes, backslashes and control characters are escaped. -/
def escapeChar (c : Char) : List Char :=
  match c with
  | '"' => ['\\', '"']
  | '\\' => ['\\', '\\']
  | '\x08' => ['\\', 'b']
  | '\t' => ['\\', 't']
  | '\n' => ['\\', 'n']
  | '\x0c' => ['\\', 'f']
  | '\r' => ['\\', 'r']
  | c =>
    if c.toNat < 32 then ['\\', 'u', '0', '0', hexDigit (c.toNat / 16), hexDigit (c.toNat % 16)]
    else [c]

/-- A text as it stands in a string, with the quotes around it. -/
def quote (s : List Char) : List Char := '"' :: s.flatMap escapeChar ++ ['"']

/-- The character that a letter after a backslash stands for. -/
def escaped? : Char → Option Char
  | '"' => some '"'
  | '\\' => some '\\'
  | '/' => some '/'
  | 'b' => some '\x08'
  | 'f' => some '\x0c'
  | 'n' => some '\n'
  | 'r' => some '\r'
  | 't' => some '\t'
  | _ => none

/-- The number that four hexadecimal digits stand for. -/
def hexNumber? (a b c d : Char) : Option Nat := do
  some ((← hexValue? a) * 4096 + (← hexValue? b) * 256 + (← hexValue? c) * 16 + (← hexValue? d))

/-- Puts a code point before those read after it. -/
def before (n : Nat) (r : List Nat × List Char) : List Nat × List Char := (n :: r.1, r.2)

/-- Reads the inside of a string and the closing quote into code points, among which escapes may put
halves of surrogate pairs. -/
def codePoints? : List Char → Option (List Nat × List Char)
  | '"' :: rest => some ([], rest)
  | '\\' :: 'u' :: a :: b :: c :: d :: cs =>
    (hexNumber? a b c d).bind fun n => (codePoints? cs).map (before n)
  | '\\' :: c :: cs => (escaped? c).bind fun e => (codePoints? cs).map (before e.toNat)
  | c :: cs =>
    if c.toNat < 32 || c = '\\' then none else (codePoints? cs).map (before c.toNat)
  | [] => none

/-- Whether a code point is the first half of a surrogate pair. -/
def isHighHalf (n : Nat) : Bool := 0xD800 ≤ n && n < 0xDC00

/-- Whether a code point is the second half of a surrogate pair. -/
def isLowHalf (n : Nat) : Bool := 0xDC00 ≤ n && n < 0xE000

/-- Joins surrogate pairs; `none` if a half stands alone. -/
def joinPairs? : List Nat → Option (List Char)
  | [] => some []
  | [n] => if isHighHalf n || isLowHalf n then none else some [Char.ofNat n]
  | n :: m :: points =>
    if isHighHalf n then
      if isLowHalf m then
        (joinPairs? points).map (Char.ofNat (0x10000 + (n - 0xD800) * 1024 + (m - 0xDC00)) :: ·)
      else none
    else if isLowHalf n then none
    else (joinPairs? (m :: points)).map (Char.ofNat n :: ·)

/-- Reads the inside of a string and the closing quote. -/
def unquote? (cs : List Char) : Option (Option String × List Char) :=
  (codePoints? cs).map fun (points, rest) => ((joinPairs? points).map String.ofList, rest)

theorem length_of_codePoints? {cs rest : List Char} {points : List Nat}
    (h : codePoints? cs = some (points, rest)) : rest.length < cs.length := by
  fun_induction codePoints? cs generalizing points with
  | case1 =>
    cases h
    simp
  | case2 a b c d cs ih =>
    obtain ⟨_, -, h⟩ := Option.bind_eq_some_iff.1 h
    obtain ⟨⟨_, _⟩, hr, heq⟩ := Option.map_eq_some_iff.1 h
    cases heq
    have := ih hr
    simp only [List.length_cons] at this ⊢
    omega
  | case3 c cs _ ih =>
    obtain ⟨_, -, h⟩ := Option.bind_eq_some_iff.1 h
    obtain ⟨⟨_, _⟩, hr, heq⟩ := Option.map_eq_some_iff.1 h
    cases heq
    have := ih hr
    simp only [List.length_cons] at this ⊢
    omega
  | case4 => cases h
  | case5 c cs _ _ _ _ ih =>
    obtain ⟨⟨_, _⟩, hr, heq⟩ := Option.map_eq_some_iff.1 h
    cases heq
    have := ih hr
    simp only [List.length_cons] at this ⊢
    omega
  | case6 => cases h

theorem length_of_unquote? {cs rest : List Char} {s : Option String}
    (h : unquote? cs = some (s, rest)) : rest.length < cs.length := by
  obtain ⟨⟨points, r⟩, hp, heq⟩ := Option.map_eq_some_iff.1 h
  cases heq
  exact length_of_codePoints? hp

end TiddlerShelf.Json
