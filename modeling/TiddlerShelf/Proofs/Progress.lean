import TiddlerShelf.Proofs.BlockEnds

/-! # Reading uses up text

Every token takes characters off the front of the trimmed text, and a block has two fewer inside
than it takes off. So a reader that may make only so many calls within one another reads every text
that has fewer characters, and gives what `parse` gives (`areEnough`). `reading_uses_up_text` puts
this together with where blocks end. -/

namespace TiddlerShelf

open TiddlerShelf.Text

namespace Filter

/-! ## Tokens -/

namespace Token

theorem length_chars_pos (token : Token) : 0 < token.chars.length := by
  cases token with
  | leaf l => cases l <;> exact Nat.succ_pos _
  | not | block inner | or => exact Nat.succ_pos _

variable {cs rest : List Char} {token : Token}

theorem length_trim_of_next (h : next cs = .ok (some (token, rest))) :
    (trim cs).length = token.chars.length + rest.length := by
  rw [← chars_of_next h, List.length_append]

theorem length_of_next_block {inner : List Char} (h : next cs = .ok (some (block inner, rest))) :
    inner.length + 2 + rest.length = (trim cs).length := by
  rw [length_trim_of_next h]
  simp [chars, bracketed]

end Token

/-! ## Reading within a number of calls -/

mutual

/-- The part of a group that a token begins, read in at most `calls` calls within one another: an
exclamation mark reads on for what it negates, and a block for the filter inside it. There is no
result if the calls do not suffice. -/
def partWithin : Nat → Token → List Char → Option (Except ParseError (Filter × List Char))
  | 0, _, _ => none
  | _ + 1, .leaf l, rest => some (.ok (leaf l, rest))
  | calls + 1, .block inner, rest =>
    (filterWithin calls [] [] inner).map fun result => result.map fun part => (part, rest)
  | calls + 1, .not, rest =>
    match Token.next rest with
    | .error e => some (.error e)
    | .ok none | .ok (some (.or, _)) => some (.error (.missingOperand (String.ofList (trim rest))))
    | .ok (some (token, more)) =>
      (partWithin calls token more).map fun result =>
        result.map fun (part, rest) => (not part, rest)
  | _ + 1, .or, rest => some (.error (.missingOperand (String.ofList (trim rest))))

/-- The filter that is read after finished groups and the parts of the group begun, in at most
`calls` calls within one another: each token takes a call, as what follows it does. -/
def filterWithin : Nat → List Filter → List Filter → List Char → Option (Except ParseError Filter)
  | 0, _, _, _ => none
  | calls + 1, groups, parts, cs =>
    match Token.next cs with
    | .error e => some (.error e)
    | .ok none => some (finish (groups ++ (join? all parts).toList))
    | .ok (some (.or, rest)) => filterWithin calls (groups ++ (join? all parts).toList) [] rest
    | .ok (some (token, rest)) =>
      match partWithin calls token rest with
      | none => none
      | some (.error e) => some (.error e)
      | some (.ok (part, rest)) => filterWithin calls groups (parts ++ [part]) rest

end

/-- Reads a filter text in at most `calls` calls within one another. -/
def parseWithin (calls : Nat) (text : String) : Option (Except ParseError Filter) :=
  filterWithin calls [] [] text.toList

section equations

variable {cs rest : List Char} {token : Token} (calls : Nat)

/-- An exclamation mark negates the part behind it. -/
theorem partWithin_not (h : Token.next cs = .ok (some (token, rest))) (hor : token ≠ .or) :
    partWithin (calls + 1) .not cs = (partWithin calls token rest).map fun result =>
      result.map fun (part, rest) => (not part, rest) := by
  rw [partWithin, h]
  cases token with
  | or => contradiction
  | _ => rfl

/-- A token other than a comma begins the next part of the group. -/
theorem filterWithin_part (groups parts : List Filter)
    (h : Token.next cs = .ok (some (token, rest))) (hor : token ≠ .or) :
    filterWithin (calls + 1) groups parts cs = match partWithin calls token rest with
      | none => none
      | some (.error e) => some (.error e)
      | some (.ok (part, rest)) => filterWithin calls groups (parts ++ [part]) rest := by
  rw [filterWithin, h]
  cases token with
  | or => contradiction
  | _ => rfl

end equations

/-! ## Operands as parts -/

/-- The part of a group that an operand is, with what follows it. A comma is none. -/
def operandPart? : Except ParseError (Term × List Char) →
    Option (Except ParseError (Filter × List Char))
  | .error e => some (.error e)
  | .ok (.leaf n l, rest) => some (.ok (negated n (leaf l), rest))
  | .ok (.block n inner, rest) =>
    some ((parseAfter [] [] inner).map fun part => (negated n part, rest))
  | .ok (.or, _) => none

namespace Term

variable {cs rest : List Char}

theorem operand_of_error {e : ParseError} (n : Nat) (h : Token.next cs = .error e) :
    operand n cs = .error e := by
  rw [operand]
  split <;> simp_all

theorem operand_of_missing (n : Nat)
    (h : Token.next cs = .ok none ∨ ∃ rest, Token.next cs = .ok (some (.or, rest))) :
    operand n cs = .error (.missingOperand (String.ofList (trim cs))) := by
  rw [operand]
  split <;> simp_all

theorem operand_ne_or (n : Nat) (cs rest : List Char) : operand n cs ≠ .ok (.or, rest) := by
  intro h
  fun_induction operand n cs with
  | case4 _ _ _ _ _ ih => exact ih h
  | _ => cases h

/-- One exclamation mark more before an operand negates the part once more. -/
theorem operandPart?_operand_succ (n : Nat) (cs : List Char) :
    operandPart? (operand (n + 1) cs) =
      (operandPart? (operand n cs)).map fun result =>
        result.map fun (part, rest) => (not part, rest) := by
  fun_induction operand n cs with
  | case1 _ _ _ hnext => rw [operand_of_error _ hnext]; rfl
  | case2 _ _ _ _ hnext => rw [operand_of_leaf _ hnext]; rfl
  | case3 _ _ inner _ hnext =>
    rw [operand_of_block _ hnext]
    cases hinner : parseAfter [] [] inner <;> simp [operandPart?, hinner, Except.map, negated]
  | case4 _ _ _ hnext _ ih => rw [operand_of_not _ hnext]; exact ih
  | case5 _ _ _ hnext => rw [operand_of_missing _ (.inr ⟨_, hnext⟩)]; rfl
  | case6 _ _ hnext => rw [operand_of_missing _ (.inl hnext)]; rfl

end Term

/-- Reading takes an operand as the next part of its group, and goes on behind it. -/
theorem parseAfter_of_operand {cs rest : List Char} {token : Token}
    (h : Token.next cs = .ok (some (token, rest))) (hor : token ≠ .or) :
    ∃ result, operandPart? (Term.operand 0 cs) = some result ∧
      (∀ part rest, result = .ok (part, rest) → rest.length < cs.length) ∧
      ∀ groups parts, parseAfter groups parts cs = match result with
        | .error e => .error e
        | .ok (part, rest) => parseAfter groups (parts ++ [part]) rest := by
  have hnext := Term.next_eq_operand h hor
  cases hoperand : Term.operand 0 cs with
  | error e =>
    refine ⟨.error e, rfl, nofun, fun groups parts => ?_⟩
    rw [parseAfter_eq, hnext, hoperand]
    rfl
  | ok result =>
    obtain ⟨term, more⟩ := result
    have hlength := Term.length_of_operand hoperand
    rw [hoperand] at hnext
    cases term with
    | or => exact absurd hoperand (Term.operand_ne_or 0 cs more)
    | leaf n l =>
      refine ⟨_, rfl, ?_, fun groups parts => parseAfter_leaf hnext⟩
      rintro part rest ⟨⟩
      omega
    | block n inner =>
      refine ⟨_, rfl, ?_, fun groups parts => ?_⟩
      · intro part rest heq
        cases hinner : parseAfter [] [] inner with
        | error e => simp [hinner, Except.map] at heq
        | ok f =>
          rw [hinner] at heq
          cases heq
          omega
      · rw [parseAfter_eq, hnext]
        cases hinner : parseAfter [] [] inner <;> simp [Except.map, hinner]

/-! ## Enough calls -/

/-- Whether `calls` calls within one another are enough to read the part that a text of at most
`calls` characters begins with, and the filter in a text of fewer. -/
structure AreEnough (calls : Nat) : Prop where
  part : ∀ {cs rest : List Char} {token : Token}, Token.next cs = .ok (some (token, rest)) →
    token ≠ .or → cs.length ≤ calls →
    partWithin calls token rest = operandPart? (Term.operand 0 cs)
  filter : ∀ (groups parts : List Filter) {cs : List Char}, cs.length < calls →
    filterWithin calls groups parts cs = some (parseAfter groups parts cs)

namespace AreEnough

variable {calls : Nat} {cs rest : List Char} {token : Token}

theorem zero : AreEnough 0 := by
  refine ⟨fun h _ hlength => ?_, fun _ _ _ hlength => absurd hlength (Nat.not_lt_zero _)⟩
  have := Token.length_of_next h
  omega

theorem part_succ (h : AreEnough calls) (hnext : Token.next cs = .ok (some (token, rest)))
    (hor : token ≠ .or) (hlength : cs.length ≤ calls + 1) :
    partWithin (calls + 1) token rest = operandPart? (Term.operand 0 cs) := by
  have hshorter := Token.length_of_next hnext
  cases token with
  | or => contradiction
  | leaf l =>
    rw [Term.operand_of_leaf 0 hnext]
    rfl
  | block inner =>
    have hinner := Token.length_of_next_block hnext
    have htrim := length_trim_le cs
    rw [Term.operand_of_block 0 hnext, partWithin, h.filter [] [] (by omega)]
    rfl
  | not =>
    rw [Term.operand_of_not 0 hnext, Term.operandPart?_operand_succ]
    cases hoperand : Token.next rest with
    | error e =>
      rw [partWithin, hoperand, Term.operand_of_error 0 hoperand]
      rfl
    | ok found =>
      cases found with
      | none =>
        rw [partWithin, hoperand, Term.operand_of_missing 0 (.inl hoperand)]
        rfl
      | some found =>
        obtain ⟨token, more⟩ := found
        by_cases htoken : token = .or
        · subst htoken
          rw [partWithin, hoperand, Term.operand_of_missing 0 (.inr ⟨more, hoperand⟩)]
          rfl
        · rw [partWithin_not calls hoperand htoken, h.part hoperand htoken (by omega)]

theorem filter_succ (h : AreEnough calls) (groups parts : List Filter)
    (hlength : cs.length ≤ calls) :
    filterWithin (calls + 1) groups parts cs = some (parseAfter groups parts cs) := by
  cases hnext : Token.next cs with
  | error e =>
    have hterm : Term.next cs = .error e := by rw [Term.next, hnext]
    rw [filterWithin, hnext, parseAfter_eq, hterm]
  | ok found =>
    cases found with
    | none =>
      have hterm : Term.next cs = .ok none := by rw [Term.next, hnext]
      rw [filterWithin, hnext, parseAfter_none hterm]
    | some found =>
      obtain ⟨token, rest⟩ := found
      have hshorter := Token.length_of_next hnext
      by_cases hor : token = .or
      · subst hor
        have hterm : Term.next cs = .ok (some (.or, rest)) := by rw [Term.next, hnext]
        rw [filterWithin, hnext, parseAfter_or hterm]
        exact h.filter _ _ (by omega)
      · obtain ⟨result, hresult, hrest, hread⟩ := parseAfter_of_operand hnext hor
        rw [filterWithin_part calls groups parts hnext hor, h.part hnext hor hlength, hresult,
          hread]
        cases result with
        | error e => rfl
        | ok part =>
          have := hrest part.1 part.2 rfl
          exact h.filter _ _ (by omega)

end AreEnough

/-- However many calls there are, they are enough for texts of that length: by induction on their
number, since each call leaves less text to those within it. -/
theorem areEnough (calls : Nat) : AreEnough calls := by
  induction calls with
  | zero => exact .zero
  | succ calls ih =>
    exact ⟨ih.part_succ, fun groups parts _ hlength =>
      ih.filter_succ groups parts (Nat.le_of_lt_succ hlength)⟩

/-! ## Progress -/

/-- A text that begins with an opening bracket is split at its bytes without a mishap, and as the
rule for blocks splits it: into a block and the rest exactly if it has an even beginning, and these
are the ones that the text begins with; the brackets do not match otherwise. A token that is read
from any text leaves an end of the trimmed text that is shorter than that, as the text inside a
block is. So reading ends: more calls than the text has characters, one within the other, give what
`parse` does. -/
theorem reading_uses_up_text (text : String) :
    (text.toList.head? = some '(' →
      (∃ found, splitBlock text = .ok found ∧ Token.sign? text.toList =
        found.map fun (inner, rest) => some (.block inner.toList, rest.toList)) ∧
      ((∃ inner rest, splitBlock text = .ok (.ok (inner, rest))) ↔
        ∃ p, EvenBeginning p text.toList) ∧
      (∀ inner rest, splitBlock text = .ok (.ok (inner, rest)) ↔
        BeginsWithBlock text.toList inner.toList rest.toList) ∧
      (splitBlock text = .ok (.error .unmatchedBrackets) ↔ ¬∃ p, EvenBeginning p text.toList)) ∧
    (∀ token rest, Token.next text.toList = .ok (some (token, rest)) →
      rest <:+ trim text.toList ∧ rest.length < (trim text.toList).length ∧
        ∀ inner, token = .block inner → inner.length < (trim text.toList).length) ∧
    ∀ calls, text.length < calls → parseWithin calls text = some (parse text) := by
  refine ⟨fun h => ?_, fun token rest h => ?_, fun calls h => ?_⟩
  · exact ⟨exists_splitBlock h, exists_splitBlock_eq_ok_iff h, fun _ _ => splitBlock_eq_ok_iff h,
      splitBlock_eq_error_iff h⟩
  · have hlength := Token.length_trim_of_next h
    have hpos := Token.length_chars_pos token
    refine ⟨⟨token.chars, Token.chars_of_next h⟩, by omega, ?_⟩
    rintro inner rfl
    have hblock := Token.length_of_next_block h
    omega
  · exact (areEnough calls).filter [] [] (by rwa [String.length_toList])

/-- The block holds a character of two bytes and another block. -/
theorem reading_uses_up_nested_block :
    "(#é (#b)) c".toList.head? = some '(' ∧
      BeginsWithBlock "(#é (#b)) c".toList "#é (#b)".toList " c".toList ∧
      Token.next "(#é (#b)) c".toList = .ok (some (.block "#é (#b)".toList, " c".toList)) ∧
      " c".toList <:+ trim "(#é (#b)) c".toList ∧
      "(#é (#b)) c".length < 12 ∧ parseWithin 12 "(#é (#b)) c" = some (parse "(#é (#b)) c") := by
  have hopen : "(#é (#b)) c".toList.head? = some '(' := rfl
  have hchars : "(#é (#b)) c".toList = '(' :: "#é (#b)) c".toList := rfl
  have hclose : Token.closeBlock 0 "#é (#b)) c".toList = some ("#é (#b)".toList, " c".toList) := rfl
  have hcut : splitBlock "(#é (#b)) c" = .ok (.ok ("#é (#b)", " c")) := by
    simp only [splitBlock_eq hchars, hclose, String.ofList_toList]
  have hnext : Token.next "(#é (#b)) c".toList =
      .ok (some (.block "#é (#b)".toList, " c".toList)) := rfl
  have hlength : "(#é (#b)) c".length < 12 := by decide
  obtain ⟨hblock, htoken, hends⟩ := reading_uses_up_text "(#é (#b)) c"
  obtain ⟨-, -, hsplit, -⟩ := hblock hopen
  exact ⟨hopen, (hsplit _ _).1 hcut, hnext, (htoken _ _ hnext).1, hlength, hends 12 hlength⟩

end Filter

end TiddlerShelf
