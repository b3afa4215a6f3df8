import TiddlerShelf.Proofs.Grouping

/-! # Where blocks end

A block ends at the first place where as many round brackets have been closed as opened
(`closeBlock_eq_some_iff`), and there is none in a text that has no such place
(`closeBlock_eq_none_iff`). In the bytes of a text that place is found by keeping count of the open
brackets, and cutting there finds the same block: the count never falls below zero, and no cut goes
through a character (`splitBlock_eq`). -/

namespace TiddlerShelf

open TiddlerShelf.Text

namespace Text

/-! ## Brackets that suffice -/

theorem count_cons_of_not_bracket {c : Char} (hc : Leaf.isRoundBracket c = false)
    (cs : List Char) :
    (c :: cs).count '(' = cs.count '(' ∧ (c :: cs).count ')' = cs.count ')' := by
  simp only [Leaf.isRoundBracket, Bool.or_eq_false_iff, beq_eq_false_iff_ne] at hc
  exact ⟨List.count_cons_of_ne hc.1, List.count_cons_of_ne hc.2⟩

/-- Whether `depth` open round brackets suffice for a text: no beginning of it closes more than
these and those that it opens itself. -/
def Covers (depth : Nat) (cs : List Char) : Prop :=
  ∀ p, p <+: cs → p.count ')' ≤ p.count '(' + depth

section Covers

variable {depth : Nat} {c : Char} {cs : List Char}

theorem covers_nil : Covers depth [] := by
  intro p hp
  obtain rfl := List.prefix_nil.1 hp
  exact Nat.zero_le _

/-- The empty beginning closes nothing, so that those with the first character in them decide. -/
theorem covers_cons_iff : Covers depth (c :: cs) ↔
    ∀ p, p <+: cs → (c :: p).count ')' ≤ (c :: p).count '(' + depth := by
  constructor
  · intro h p hp
    exact h _ (List.cons_prefix_cons.2 ⟨rfl, hp⟩)
  · intro h p hp
    obtain rfl | ⟨q, rfl, hq⟩ := List.prefix_cons_iff.1 hp
    · exact Nat.zero_le _
    · exact h q hq

theorem covers_open_iff : Covers depth ('(' :: cs) ↔ Covers (depth + 1) cs := by
  refine covers_cons_iff.trans (forall₂_congr fun p _ => ?_)
  rw [List.count_cons_of_ne (by decide), List.count_cons_self]
  omega

theorem covers_close_iff : Covers (depth + 1) (')' :: cs) ↔ Covers depth cs := by
  refine covers_cons_iff.trans (forall₂_congr fun p _ => ?_)
  rw [List.count_cons_self, List.count_cons_of_ne (by decide)]
  omega

theorem not_covers_close : ¬Covers 0 (')' :: cs) := fun h =>
  absurd (h [')'] (List.cons_prefix_cons.2 ⟨rfl, List.nil_prefix⟩)) (by decide)

theorem covers_cons_iff_of_not_bracket (hc : Leaf.isRoundBracket c = false) :
    Covers depth (c :: cs) ↔ Covers depth cs := by
  refine covers_cons_iff.trans (forall₂_congr fun p _ => ?_)
  obtain ⟨hopen, hclose⟩ := count_cons_of_not_bracket hc p
  rw [hopen, hclose]

end Covers

/-- The round brackets of a text pair up if the open ones suffice for it and it closes them all. -/
theorem isPaired_iff {depth : Nat} {cs : List Char} : isPaired depth cs = true ↔
    Covers depth cs ∧ cs.count ')' = cs.count '(' + depth := by
  induction cs generalizing depth with
  | nil => cases depth <;> simp [isPaired, covers_nil]
  | cons c cs ih =>
    obtain rfl | rfl | hc := Leaf.isRoundBracket_cases c
    · rw [isPaired_open, ih, covers_open_iff, List.count_cons_of_ne (by decide),
        List.count_cons_self]
      exact and_congr_right fun _ => by omega
    · cases depth with
      | zero => simp [isPaired, not_covers_close]
      | succ depth =>
        rw [isPaired_close, ih, covers_close_iff, List.count_cons_self,
          List.count_cons_of_ne (by decide)]
        exact and_congr_right fun _ => by omega
    · obtain ⟨hopen, hclose⟩ := count_cons_of_not_bracket hc cs
      rw [isPaired_cons hc, ih, covers_cons_iff_of_not_bracket hc, hopen, hclose]

/-! ## Cuts -/

/-- The part of a text between two byte offsets; there is none if the second lies before the first,
or one of them inside a character or behind the end. -/
def cut? (s : String) (start stop : Nat) : Option String :=
  if h : String.Pos.Raw.IsValid s ⟨start⟩ ∧ String.Pos.Raw.IsValid s ⟨stop⟩ ∧ start ≤ stop then
    some (s.extract (s.pos ⟨start⟩ h.1) (s.pos ⟨stop⟩ h.2.1))
  else none

/-- A text can be cut where its parts meet. -/
theorem cut?_append (before part after : String) :
    cut? (before ++ part ++ after) before.utf8ByteSize (before ++ part).utf8ByteSize =
      some part := by
  have hstart : String.Pos.Raw.IsValid (before ++ part ++ after) before.rawEndPos :=
    (String.Pos.Raw.isValid_rawEndPos.append_right part).append_right after
  have hstop : String.Pos.Raw.IsValid (before ++ part ++ after) (before ++ part).rawEndPos :=
    String.Pos.Raw.isValid_rawEndPos.append_right after
  have hle : before.utf8ByteSize ≤ (before ++ part).utf8ByteSize := by
    rw [String.utf8ByteSize_append]
    exact Nat.le_add_right _ _
  refine (dif_pos ⟨hstart, hstop, hle⟩).trans (congrArg some ?_)
  have hbefore : (String.pos _ _ hstart).Splits before (part ++ after) :=
    ⟨String.append_assoc, rfl⟩
  have hafter : (String.pos _ _ hstop).Splits (before ++ part) after := ⟨rfl, rfl⟩
  obtain ⟨h, hcopy⟩ := String.copy_slice_eq_iff_splits.2 ⟨before, after, hbefore, hafter⟩
  exact (String.extract_eq_copy_slice _ _ h).trans hcopy

/-- Two bytes make up the character in the middle. -/
example : cut? "aéb" 1 3 = some "é" ∧ cut? "aéb" 1 2 = none := by decide

end Text

namespace Filter

/-! ## Blocks in characters -/

/-- Whether `p` is a beginning of a text, and not the empty one, in which as many round brackets are
closed as opened. -/
structure EvenBeginning (p cs : List Char) : Prop where
  begins : p <+: cs
  ne_nil : p ≠ []
  even : p.count ')' = p.count '('

/-- Whether a text begins with a block: `inner`, which closes no more round brackets than it opens
at any place, between two of them that make it the shortest even beginning, and `rest` behind. -/
structure BeginsWithBlock (cs inner rest : List Char) : Prop where
  chars : bracketed inner ++ rest = cs
  balanced : ∀ p, p <+: inner → p.count ')' ≤ p.count '('
  even : EvenBeginning (bracketed inner) cs
  shortest : ∀ p, EvenBeginning p cs → (bracketed inner).length ≤ p.length

theorem count_bracketed (inner : List Char) :
    (bracketed inner).count '(' = inner.count '(' + 1 ∧
      (bracketed inner).count ')' = inner.count ')' + 1 := by
  simp [bracketed, List.count_append]

/-- What an even beginning has behind the bracket that opens it closes that bracket, too. -/
theorem EvenBeginning.tail {p cs : List Char} (h : EvenBeginning p ('(' :: cs)) :
    ∃ q, p = '(' :: q ∧ q <+: cs ∧ q.count ')' = q.count '(' + 1 := by
  obtain hnil | ⟨q, rfl, hq⟩ := List.prefix_cons_iff.1 h.begins
  · exact absurd hnil h.ne_nil
  · refine ⟨q, rfl, hq, ?_⟩
    have heven := h.even
    rwa [List.count_cons_of_ne (by decide), List.count_cons_self] at heven

/-- An even beginning is at least as long as a block, since what stands inside the block closes no
bracket that has been opened before it. -/
theorem EvenBeginning.length_bracketed_le {p inner rest : List Char} (hinner : Covers 0 inner)
    (h : EvenBeginning p ('(' :: (inner ++ ')' :: rest))) :
    (bracketed inner).length ≤ p.length := by
  obtain ⟨q, rfl, hq, hcount⟩ := h.tail
  refine Nat.not_lt.1 fun hlt => ?_
  have hlength : q.length ≤ inner.length := by
    simp only [bracketed, List.length_append, List.length_cons, List.length_nil] at hlt
    omega
  have hbegins : q <+: inner :=
    List.prefix_of_prefix_length_le hq (List.prefix_append inner (')' :: rest)) hlength
  have hle := hinner q hbegins
  omega

namespace Token

theorem exists_of_map_cons {c : Char} {found : Option (List Char × List Char)}
    {inner rest : List Char}
    (h : (found.map fun (inner, rest) => (c :: inner, rest)) = some (inner, rest)) :
    ∃ more, inner = c :: more ∧ found = some (more, rest) := by
  obtain ⟨⟨more, after⟩, hfound, heq⟩ := Option.map_eq_some_iff.1 h
  cases heq
  exact ⟨more, rfl, hfound⟩

theorem isPaired_of_closeBlock {depth : Nat} {cs inner rest : List Char}
    (h : closeBlock depth cs = some (inner, rest)) : isPaired depth inner = true := by
  induction cs generalizing depth inner with
  | nil => contradiction
  | cons c cs ih =>
    obtain rfl | rfl | hc := Leaf.isRoundBracket_cases c
    · rw [closeBlock_open] at h
      obtain ⟨more, rfl, hmore⟩ := exists_of_map_cons h
      rw [isPaired_open]
      exact ih hmore
    · cases depth with
      | zero =>
        cases h
        rfl
      | succ depth =>
        rw [closeBlock_close] at h
        obtain ⟨more, rfl, hmore⟩ := exists_of_map_cons h
        rw [isPaired_close]
        exact ih hmore
    · rw [closeBlock_cons hc] at h
      obtain ⟨more, rfl, hmore⟩ := exists_of_map_cons h
      rw [isPaired_cons hc]
      exact ih hmore

/-- No bracket closes a block where the open ones suffice for the whole text. -/
theorem closeBlock_eq_none_iff {depth : Nat} {cs : List Char} :
    closeBlock depth cs = none ↔ Covers depth cs := by
  induction cs generalizing depth with
  | nil => simp [closeBlock, covers_nil]
  | cons c cs ih =>
    obtain rfl | rfl | hc := Leaf.isRoundBracket_cases c
    · rw [closeBlock_open, Option.map_eq_none_iff, ih, covers_open_iff]
    · cases depth with
      | zero => simp [closeBlock, not_covers_close]
      | succ depth => rw [closeBlock_close, Option.map_eq_none_iff, ih, covers_close_iff]
    · rw [closeBlock_cons hc, Option.map_eq_none_iff, ih, covers_cons_iff_of_not_bracket hc]

/-- The block found behind an opening bracket is the one that the text begins with. -/
theorem closeBlock_eq_some_iff {cs inner rest : List Char} :
    closeBlock 0 cs = some (inner, rest) ↔ BeginsWithBlock ('(' :: cs) inner rest := by
  have hcounts := count_bracketed inner
  have hbracketed : bracketed inner ++ rest = '(' :: (inner ++ ')' :: rest) := by
    simp [bracketed]
  constructor
  · intro h
    obtain ⟨hcovers, heven⟩ := isPaired_iff.1 (isPaired_of_closeBlock h)
    obtain rfl := append_of_closeBlock h
    exact ⟨hbracketed, hcovers, ⟨⟨rest, hbracketed⟩, List.cons_ne_nil _ _, by omega⟩,
      fun p hp => hp.length_bracketed_le hcovers⟩
  · intro h
    obtain ⟨-, rfl⟩ := List.cons.inj (hbracketed.symm.trans h.chars)
    have heven := h.even.even
    have hpaired : isPaired 0 inner = true := isPaired_iff.2 ⟨h.balanced, by omega⟩
    exact (Balanced.of_isPaired hpaired).closeBlock_eq rest

/-- Behind an opening bracket there is a block just where the text has an even beginning. -/
theorem isSome_closeBlock_iff {cs : List Char} :
    (closeBlock 0 cs).isSome = true ↔ ∃ p, EvenBeginning p ('(' :: cs) := by
  rw [Option.isSome_iff_exists]
  constructor
  · rintro ⟨⟨inner, rest⟩, h⟩
    exact ⟨bracketed inner, (closeBlock_eq_some_iff.1 h).even⟩
  · rintro ⟨p, hp⟩
    obtain ⟨q, rfl, hq, hcount⟩ := hp.tail
    refine Option.ne_none_iff_exists'.1 fun h => ?_
    have hle := closeBlock_eq_none_iff.1 h q hq
    omega

end Token

/-! ## Blocks in bytes -/

/-- What would stop the search for a block in the bytes of a text: a count of open brackets below
zero, or a cut that does not go between two characters. -/
inductive Mishap
  | negativeDepth
  | badCut
deriving DecidableEq

/-- Looks for the bracket that closes the last of `depth` open ones, in a text that begins at the
byte `offset`, and gives its offset. -/
def closingOffset (depth offset : Nat) : List Char → Except Mishap (Option Nat)
  | [] => .ok none
  | c :: cs =>
    if c = '(' then closingOffset (depth + 1) (offset + c.utf8Size) cs
    else if c = ')' then
      match depth with
      | 0 => .error .negativeDepth
      | 1 => .ok (some offset)
      | depth + 2 => closingOffset (depth + 1) (offset + c.utf8Size) cs
    else closingOffset depth (offset + c.utf8Size) cs

/-- Splits a text that begins with an opening bracket into the block that it begins with and the
rest, by cutting the text at bytes. -/
def splitBlock (text : String) : Except Mishap (Except ParseError (String × String)) :=
  match closingOffset 0 0 text.toList with
  | .error mishap => .error mishap
  | .ok none => .ok (.error .unmatchedBrackets)
  | .ok (some stop) =>
    match cut? text 1 stop, cut? text (stop + 1) text.utf8ByteSize with
    | some inner, some rest => .ok (.ok (inner, rest))
    | _, _ => .error .badCut

theorem closingOffset_open (depth offset : Nat) (cs : List Char) :
    closingOffset depth offset ('(' :: cs) = closingOffset (depth + 1) (offset + 1) cs := rfl

theorem closingOffset_close (depth offset : Nat) (cs : List Char) :
    closingOffset (depth + 2) offset (')' :: cs) = closingOffset (depth + 1) (offset + 1) cs := rfl

theorem closingOffset_cons {c : Char} (hc : Leaf.isRoundBracket c = false) (depth offset : Nat)
    (cs : List Char) :
    closingOffset depth offset (c :: cs) = closingOffset depth (offset + c.utf8Size) cs := by
  simp only [Leaf.isRoundBracket, Bool.or_eq_false_iff, beq_eq_false_iff_ne] at hc
  simp only [closingOffset, if_neg hc.1, if_neg hc.2]

theorem utf8ByteSize_ofList_cons (c : Char) (cs : List Char) :
    (String.ofList (c :: cs)).utf8ByteSize = c.utf8Size + (String.ofList cs).utf8ByteSize := by
  rw [String.ofList_cons, String.utf8ByteSize_append, String.utf8ByteSize_singleton]

/-- A character before a block moves the offset of what closes it by the bytes of the character. -/
theorem map_offset_cons (offset : Nat) (c : Char) (found : Option (List Char × List Char)) :
    ((found.map fun (inner, rest) => (c :: inner, rest)).map fun block =>
        offset + (String.ofList block.1).utf8ByteSize) =
      found.map fun block => offset + c.utf8Size + (String.ofList block.1).utf8ByteSize := by
  rw [Option.map_map]
  congr 1
  funext block
  simp only [Function.comp, utf8ByteSize_ofList_cons, Nat.add_assoc]

/-- The count is one more than the brackets that are open within the block, so that it is never
lowered from zero, and the offset is the bytes of the characters passed over. -/
theorem closingOffset_succ (depth offset : Nat) (cs : List Char) :
    closingOffset (depth + 1) offset cs = .ok ((Token.closeBlock depth cs).map fun block =>
      offset + (String.ofList block.1).utf8ByteSize) := by
  induction cs generalizing depth offset with
  | nil => rfl
  | cons c cs ih =>
    obtain rfl | rfl | hc := Leaf.isRoundBracket_cases c
    · rw [closingOffset_open, ih, Token.closeBlock_open, map_offset_cons]
      rfl
    · cases depth with
      | zero => rfl
      | succ depth =>
        rw [closingOffset_close, ih, Token.closeBlock_close, map_offset_cons]
        rfl
    · rw [closingOffset_cons hc, ih, Token.closeBlock_cons hc, map_offset_cons]

/-- Cutting at bytes gives the block that the characters give, and nothing stops the search. -/
theorem splitBlock_eq {text : String} {cs : List Char} (h : text.toList = '(' :: cs) :
    splitBlock text = .ok (match Token.closeBlock 0 cs with
      | none => .error .unmatchedBrackets
      | some (inner, rest) => .ok (String.ofList inner, String.ofList rest)) := by
  have hoffset := closingOffset_succ 0 1 cs
  rw [splitBlock, h, closingOffset_open, hoffset]
  cases hblock : Token.closeBlock 0 cs with
  | none => rfl
  | some block =>
    obtain ⟨inner, rest⟩ := block
    have htext : text = "(" ++ String.ofList inner ++ ")" ++ String.ofList rest := by
      rw [← String.toList_inj, h, ← Token.append_of_closeBlock hblock]
      simp
    have hopen : "(".utf8ByteSize = 1 := rfl
    have hclose : ")".utf8ByteSize = 1 := rfl
    have hinner := cut?_append "(" (String.ofList inner) (")" ++ String.ofList rest)
    have hrest := cut?_append ("(" ++ String.ofList inner ++ ")") (String.ofList rest) ""
    rw [← String.append_assoc, ← htext, String.utf8ByteSize_append, hopen] at hinner
    rw [String.append_empty, ← htext, String.utf8ByteSize_append, String.utf8ByteSize_append,
      hopen, hclose] at hrest
    simp only [Option.map_some, hinner, hrest]

/-- Without the bracket in front the count would fall below zero. -/
example : splitBlock "a)" = .error .negativeDepth := rfl

section splitBlock

variable {text : String}

/-- Where a text begins with an opening bracket, the rule for blocks reads what cutting it at bytes
gives. -/
theorem exists_splitBlock (h : text.toList.head? = some '(') :
    ∃ found, splitBlock text = .ok found ∧ Token.sign? text.toList =
      found.map fun (inner, rest) => some (.block inner.toList, rest.toList) := by
  obtain ⟨cs, hcs⟩ := List.head?_eq_some_iff.1 h
  refine ⟨_, splitBlock_eq hcs, ?_⟩
  rw [hcs, Token.sign?]
  cases Token.closeBlock 0 cs <;> simp [Except.map]

theorem splitBlock_eq_ok_iff (h : text.toList.head? = some '(') {inner rest : String} :
    splitBlock text = .ok (.ok (inner, rest)) ↔
      BeginsWithBlock text.toList inner.toList rest.toList := by
  obtain ⟨cs, hcs⟩ := List.head?_eq_some_iff.1 h
  rw [splitBlock_eq hcs, hcs, ← Token.closeBlock_eq_some_iff]
  cases Token.closeBlock 0 cs with
  | none => simp
  | some block => simp [Prod.ext_iff, ← String.toList_inj]

theorem splitBlock_eq_error_iff (h : text.toList.head? = some '(') :
    splitBlock text = .ok (.error .unmatchedBrackets) ↔ ¬∃ p, EvenBeginning p text.toList := by
  obtain ⟨cs, hcs⟩ := List.head?_eq_some_iff.1 h
  rw [splitBlock_eq hcs, hcs, ← Token.isSome_closeBlock_iff]
  cases Token.closeBlock 0 cs <;> simp

theorem exists_splitBlock_eq_ok_iff (h : text.toList.head? = some '(') :
    (∃ inner rest, splitBlock text = .ok (.ok (inner, rest))) ↔
      ∃ p, EvenBeginning p text.toList := by
  obtain ⟨cs, hcs⟩ := List.head?_eq_some_iff.1 h
  rw [splitBlock_eq hcs, hcs, ← Token.isSome_closeBlock_iff]
  cases Token.closeBlock 0 cs <;> simp

end splitBlock

end Filter

end TiddlerShelf
