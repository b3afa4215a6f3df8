import TiddlerShelf.Filter.Token

/-!
# Reading filters

Tokens that stand side by side are joined by "and", and commas join such groups by "or". A group or
a filter with one part is that part. Reading stops at the first place where no token begins; a text
that has given no condition by then is no filter.
-/

namespace TiddlerShelf.Filter

open TiddlerShelf.Text

/-- What reading a filter text meets next. -/
inductive Term
  | leaf (negations : Nat) (condition : Leaf)
  | block (negations : Nat) (inner : List Char)
  | or
deriving DecidableEq

namespace Term

/-- The length of the text inside a term. -/
def innerLength : Term → Nat
  | block _ inner => inner.length
  | _ => 0

/-- Reads what `negations` exclamation marks negate, and those that follow. -/
def operand (negations : Nat) (cs : List Char) : Except ParseError (Term × List Char) :=
  match h : Token.next cs with
  | .error e => .error e
  | .ok (some (.leaf condition, rest)) => .ok (leaf negations condition, rest)
  | .ok (some (.block inner, rest)) => .ok (block negations inner, rest)
  | .ok (some (.not, rest)) =>
    have : rest.length < cs.length :=
      Nat.lt_of_le_of_lt (Nat.le_add_right _ _) (Token.length_of_next h)
    operand (negations + 1) rest
  | .ok (some (.or, _)) | .ok none => .error (.missingOperand (String.ofList (trim cs)))
termination_by cs.length

/-- Reads the next term, or `none` where no token begins. -/
def next (cs : List Char) : Except ParseError (Option (Term × List Char)) :=
  match Token.next cs with
  | .error e => .error e
  | .ok none => .ok none
  | .ok (some (.leaf condition, rest)) => .ok (some (leaf 0 condition, rest))
  | .ok (some (.block inner, rest)) => .ok (some (block 0 inner, rest))
  | .ok (some (.not, rest)) => (operand 1 rest).map some
  | .ok (some (.or, rest)) => .ok (some (or, rest))

theorem length_of_operand {negations : Nat} {cs rest : List Char} {term : Term}
    (h : operand negations cs = .ok (term, rest)) :
    rest.length + term.innerLength < cs.length := by
  fun_induction operand negations cs with
  | case1 => cases h
  | case2 _ _ _ _ hnext =>
    cases h
    simpa [innerLength, Token.innerLength] using Token.length_of_next hnext
  | case3 _ _ _ _ hnext =>
    cases h
    simpa [innerLength, Token.innerLength] using Token.length_of_next hnext
  | case4 _ _ _ _ hlt ih => exact Nat.lt_trans (ih h) hlt
  | case5 => cases h
  | case6 => cases h

/-- Reading a term uses up text. -/
theorem length_of_next {cs rest : List Char} {term : Term}
    (h : next cs = .ok (some (term, rest))) : rest.length + term.innerLength < cs.length := by
  unfold next at h
  split at h
  · cases h
  · cases h
  · rename_i hnext
    cases h
    simpa [innerLength, Token.innerLength] using Token.length_of_next hnext
  · rename_i hnext
    cases h
    simpa [innerLength, Token.innerLength] using Token.length_of_next hnext
  · rename_i mid hnext
    have hmid := Token.length_of_next hnext
    cases hop : operand 1 mid with
    | error e => simp [hop, Except.map] at h
    | ok result =>
      simp only [hop, Except.map, Except.ok.injEq, Option.some.injEq] at h
      subst h
      have := length_of_operand hop
      simp only [Token.innerLength] at hmid
      omega
  · rename_i hnext
    cases h
    simpa [innerLength, Token.innerLength] using Token.length_of_next hnext

end Term

/-- Joins parts: no part gives nothing, one part is itself. -/
def join? (wrap : List Filter → Filter) : List Filter → Option Filter
  | [] => none
  | [part] => some part
  | parts => some (wrap parts)

/-- Reads a filter after the finished groups and the parts of the group begun. -/
def parseAfter (groups parts : List Filter) (cs : List Char) : Except ParseError Filter :=
  match h : Term.next cs with
  | .error e => .error e
  | .ok none =>
    match join? any (groups ++ (join? all parts).toList) with
    | some f => .ok f
    | none => .error .emptyFilter
  | .ok (some (.or, rest)) =>
    have : rest.length < cs.length :=
      Nat.lt_of_le_of_lt (Nat.le_add_right _ _) (Term.length_of_next h)
    parseAfter (groups ++ (join? all parts).toList) [] rest
  | .ok (some (.leaf negations condition, rest)) =>
    have : rest.length < cs.length :=
      Nat.lt_of_le_of_lt (Nat.le_add_right _ _) (Term.length_of_next h)
    parseAfter groups (parts ++ [negated negations (leaf condition)]) rest
  | .ok (some (.block negations inner, rest)) =>
    have : rest.length < cs.length :=
      Nat.lt_of_le_of_lt (Nat.le_add_right _ _) (Term.length_of_next h)
    have : inner.length < cs.length :=
      Nat.lt_of_le_of_lt (Nat.le_add_left _ _) (Term.length_of_next h)
    match parseAfter [] [] inner with
    | .error e => .error e
    | .ok part => parseAfter groups (parts ++ [negated negations part]) rest
termination_by cs.length

/-- Reads a filter text. -/
def parse (text : String) : Except ParseError Filter := parseAfter [] [] text.toList

end TiddlerShelf.Filter
