import TiddlerShelf.Proofs.Canonical

/-! # Filter texts in round brackets

A block ends where the round brackets that have been opened are closed, whatever else stands in
between, so that those in the operands of conditions count as well. A text whose round brackets pair
up reads alike with round brackets around it. In a text that is read to its end they do pair up if
they do so in every operand (`parse_bracketed`). -/

namespace TiddlerShelf

open TiddlerShelf.Text

theorem Leaf.isRoundBracket_cases (c : Char) : c = '(' ∨ c = ')' ∨ isRoundBracket c = false := by
  rw [isRoundBracket, Bool.or_eq_false_iff, beq_eq_false_iff_ne, beq_eq_false_iff_ne]
  by_cases hopen : c = '('
  · exact .inl hopen
  · by_cases hclose : c = ')'
    · exact .inr (.inl hclose)
    · exact .inr (.inr ⟨hopen, hclose⟩)

namespace Text

/-- Whether the round brackets of a text pair up, where `depth` of them have been opened before. -/
def isPaired (depth : Nat) : List Char → Bool
  | [] => depth == 0
  | c :: cs =>
    if c = '(' then isPaired (depth + 1) cs
    else if c = ')' then
      match depth with
      | 0 => false
      | depth + 1 => isPaired depth cs
    else isPaired depth cs

theorem isPaired_open (depth : Nat) (cs : List Char) :
    isPaired depth ('(' :: cs) = isPaired (depth + 1) cs := rfl

theorem isPaired_close (depth : Nat) (cs : List Char) :
    isPaired (depth + 1) (')' :: cs) = isPaired depth cs := rfl

theorem isPaired_cons {c : Char} (hc : Leaf.isRoundBracket c = false) (depth : Nat)
    (cs : List Char) : isPaired depth (c :: cs) = isPaired depth cs := by
  simp only [Leaf.isRoundBracket, Bool.or_eq_false_iff, beq_eq_false_iff_ne] at hc
  simp only [isPaired, if_neg hc.1, if_neg hc.2]

/-- A text that closes what has been opened before leaves the brackets opened still earlier to the
text behind it. -/
theorem isPaired_append {depth : Nat} {cs : List Char} (h : isPaired depth cs = true) (more : Nat)
    (ds : List Char) : isPaired (depth + more) (cs ++ ds) = isPaired more ds := by
  induction cs generalizing depth with
  | nil =>
    obtain rfl : depth = 0 := by simpa [isPaired] using h
    rw [Nat.zero_add, List.nil_append]
  | cons c cs ih =>
    rw [List.cons_append]
    obtain rfl | rfl | hc := Leaf.isRoundBracket_cases c
    · rw [isPaired_open, Nat.add_right_comm]
      exact ih h
    · match depth with
      | 0 => contradiction
      | depth + 1 =>
        rw [Nat.add_right_comm, isPaired_close]
        exact ih h
    · rw [isPaired_cons hc] at h ⊢
      exact ih h

theorem isPaired_zero_append {cs : List Char} (h : isPaired 0 cs = true) (ds : List Char) :
    isPaired 0 (cs ++ ds) = isPaired 0 ds :=
  isPaired_append h 0 ds

theorem isPaired_of_all {cs : List Char} (h : cs.all (!Leaf.isRoundBracket ·) = true) :
    isPaired 0 cs = true := by
  induction cs with
  | nil => rfl
  | cons c cs ih =>
    rw [List.all_cons, Bool.and_eq_true, Bool.not_eq_true'] at h
    rw [isPaired_cons h.1]
    exact ih h.2

theorem isRoundBracket_of_isBlank {c : Char} (h : isBlank c = true) :
    Leaf.isRoundBracket c = false := by
  obtain rfl | rfl | hc := Leaf.isRoundBracket_cases c
  · contradiction
  · contradiction
  · exact hc

theorem isPaired_of_blank {cs : List Char} (h : cs.all isBlank = true) : isPaired 0 cs = true := by
  refine isPaired_of_all (List.all_eq_true.2 fun c hc => ?_)
  rw [isRoundBracket_of_isBlank (List.all_eq_true.1 h c hc)]
  rfl

theorem isPaired_of_trim {cs : List Char} (h : isPaired 0 (trim cs) = true) :
    isPaired 0 cs = true := by
  obtain ⟨before, after, hbefore, hafter, heq⟩ := exists_trim cs
  rw [heq, List.append_assoc, isPaired_zero_append (isPaired_of_blank hbefore),
    isPaired_zero_append h, isPaired_of_blank hafter]

end Text

/-- Whether the round brackets in every operand of a condition pair up. -/
def Leaf.isPaired (l : Leaf) : Bool := l.operands.all (Text.isPaired 0 ·.toList)

namespace Filter

/-! ## Blocks -/

theorem Token.closeBlock_open (depth : Nat) (cs : List Char) : closeBlock depth ('(' :: cs) =
    (closeBlock (depth + 1) cs).map fun (inner, rest) => ('(' :: inner, rest) := rfl

theorem Token.closeBlock_close (depth : Nat) (cs : List Char) : closeBlock (depth + 1) (')' :: cs) =
    (closeBlock depth cs).map fun (inner, rest) => (')' :: inner, rest) := rfl

theorem Token.closeBlock_cons {c : Char} (hc : Leaf.isRoundBracket c = false) (depth : Nat)
    (cs : List Char) : closeBlock depth (c :: cs) =
      (closeBlock depth cs).map fun (inner, rest) => (c :: inner, rest) := by
  simp only [Leaf.isRoundBracket, Bool.or_eq_false_iff, beq_eq_false_iff_ne] at hc
  simp only [closeBlock, if_neg hc.1, if_neg hc.2]

/-- A text that closes what has been opened before is passed over on the way to the end of a
block. -/
theorem Token.closeBlock_append {depth : Nat} {cs : List Char} (h : isPaired depth cs = true)
    (more : Nat) (ds : List Char) : closeBlock (depth + more) (cs ++ ds) =
      (closeBlock more ds).map fun (inner, rest) => (cs ++ inner, rest) := by
  induction cs generalizing depth with
  | nil =>
    obtain rfl : depth = 0 := by simpa [isPaired] using h
    simp
  | cons c cs ih =>
    rw [List.cons_append]
    obtain rfl | rfl | hc := Leaf.isRoundBracket_cases c
    · rw [closeBlock_open, Nat.add_right_comm, ih h, Option.map_map]
      rfl
    · match depth with
      | 0 => contradiction
      | depth + 1 =>
        rw [Nat.add_right_comm, closeBlock_close, ih h, Option.map_map]
        rfl
    · rw [isPaired_cons hc] at h
      rw [closeBlock_cons hc, ih h, Option.map_map]
      rfl

theorem Token.Balanced.of_isPaired {cs : List Char} (h : isPaired 0 cs = true) : Balanced cs := by
  intro depth rest
  have happend := closeBlock_append h depth rest
  rwa [Nat.zero_add] at happend

/-! ## Tokens -/

/-- What is written of a token. -/
def Token.chars : Token → List Char
  | leaf l => leafChars l
  | not => ['!']
  | block inner => bracketed inner
  | or => [',']

theorem Token.chars_of_next {cs rest : List Char} {token : Token}
    (h : next cs = .ok (some (token, rest))) : token.chars ++ rest = trim cs := by
  unfold next at h
  split at h
  · rename_i hleaf
    cases h
    exact (reads_of_leaf? hleaf).chars
  · unfold sign? at h
    split at h
    · rename_i heq
      split at h <;> cases h
      rw [heq]
      rfl
    · rename_i heq
      split at h
      · rename_i hblock
        cases h
        rw [heq, chars, bracketed, ← append_of_closeBlock hblock]
        simp
      · contradiction
    · rename_i heq
      cases h
      rw [heq]
      rfl
    · cases h

/-! ## Texts read to their end -/

namespace Term

/-- What is written of a term, its negations aside. -/
def chars : Term → List Char
  | leaf _ l => leafChars l
  | block _ inner => bracketed inner
  | or => [',']

/-- The text inside a term. -/
def inner : Term → List Char
  | block _ inner => inner
  | _ => []

end Term

/-- Whether a text is read to its end: terms follow one another until nothing but blanks is left,
and so they do inside every block. -/
inductive ReadToEnd : List Char → Prop
  | blank {cs : List Char} (h : trim cs = []) : ReadToEnd cs
  | term {cs rest : List Char} {term : Term} (h : Term.next cs = .ok (some (term, rest)))
    (hinner : ReadToEnd term.inner) (hrest : ReadToEnd rest) : ReadToEnd cs

/-! ## Brackets -/

theorem isPaired_leafChars {l : Leaf} (h : l.isPaired = true) :
    isPaired 0 (leafChars l) = true := by
  have hmem {s : String} (hs : s ∈ l.operands) : isPaired 0 s.toList = true :=
    List.all_eq_true.1 h s hs
  cases l with
  | title s => exact isPaired_zero_append (hmem List.mem_cons_self) [']', ']']
  | tag s | space s | modifier s => exact hmem List.mem_cons_self
  | field name value negated =>
    have hname := hmem (s := name) List.mem_cons_self
    have hvalue := hmem (s := value) (List.mem_cons_of_mem _ List.mem_cons_self)
    have hend : isPaired 0 (Token.fieldSign negated ++ (value.toList ++ [']'])) = true := by
      cases negated <;> exact isPaired_zero_append hvalue [']']
    simp only [leafChars, List.append_assoc]
    exact (isPaired_zero_append hname _).trans hend
  | text s => exact isPaired_zero_append (hmem List.mem_cons_self) ['"']

theorem isPaired_bracketed {cs : List Char} (h : isPaired 0 cs = true) :
    isPaired 0 (bracketed cs) = true := by
  have hinner := isPaired_append h 1 [')']
  rwa [Nat.zero_add] at hinner

/-- The round brackets of a text pair up if they do so in the token that it begins with and behind
it. -/
theorem Token.isPaired_of_next {cs rest : List Char} {token : Token}
    (h : next cs = .ok (some (token, rest))) (htoken : isPaired 0 token.chars = true)
    (hrest : isPaired 0 rest = true) : isPaired 0 cs = true := by
  refine isPaired_of_trim ?_
  rw [← chars_of_next h, isPaired_zero_append htoken, hrest]

theorem Term.isPaired_of_operand {n : Nat} {cs rest : List Char} {term : Term}
    (h : operand n cs = .ok (term, rest)) (hterm : isPaired 0 term.chars = true)
    (hrest : isPaired 0 rest = true) : isPaired 0 cs = true := by
  fun_induction operand n cs with
  | case1 => contradiction
  | case2 _ _ _ _ hnext =>
    cases h
    exact Token.isPaired_of_next hnext hterm hrest
  | case3 _ _ _ _ hnext =>
    cases h
    exact Token.isPaired_of_next hnext hterm hrest
  | case4 _ _ _ hnext _ ih => exact Token.isPaired_of_next hnext rfl (ih h)
  | case5 => contradiction
  | case6 => contradiction

theorem Term.isPaired_of_next {cs rest : List Char} {term : Term}
    (h : next cs = .ok (some (term, rest))) (hterm : isPaired 0 term.chars = true)
    (hrest : isPaired 0 rest = true) : isPaired 0 cs = true := by
  unfold next at h
  split at h
  · contradiction
  · cases h
  · rename_i hnext
    cases h
    exact Token.isPaired_of_next hnext hterm hrest
  · rename_i hnext
    cases h
    exact Token.isPaired_of_next hnext hterm hrest
  · rename_i mid hnext
    cases hmid : operand 1 mid with
    | error e =>
      rw [hmid] at h
      contradiction
    | ok result =>
      rw [hmid] at h
      cases h
      exact Token.isPaired_of_next hnext rfl (isPaired_of_operand hmid hterm hrest)
  · rename_i hnext
    cases h
    exact Token.isPaired_of_next hnext hterm hrest

/-! ## Conditions -/

mutual

/-- The conditions in a filter, from left to right. -/
def conditions : Filter → List Leaf
  | all parts | any parts => allConditions parts
  | not part => part.conditions
  | predicate _ => []
  | leaf l => [l]

/-- The conditions in the filters of a list. -/
def allConditions : List Filter → List Leaf
  | [] => []
  | part :: parts => part.conditions ++ allConditions parts

end

theorem allConditions_append (fs gs : List Filter) :
    allConditions (fs ++ gs) = allConditions fs ++ allConditions gs := by
  induction fs with
  | nil => rfl
  | cons f fs ih => simp only [List.cons_append, allConditions, ih, List.append_assoc]

theorem allConditions_singleton (f : Filter) : allConditions [f] = f.conditions := by
  simp only [allConditions, List.append_nil]

theorem conditions_negated (n : Nat) (f : Filter) : (negated n f).conditions = f.conditions := by
  induction n with
  | zero => rfl
  | succ n ih => exact ih

theorem allConditions_join? {wrap : List Filter → Filter}
    (hwrap : ∀ parts, (wrap parts).conditions = allConditions parts) (parts : List Filter) :
    allConditions (join? wrap parts).toList = allConditions parts := by
  match parts with
  | [] => rfl
  | [part] => rfl
  | part :: next :: parts =>
    exact (allConditions_singleton _).trans (hwrap _)

/-- The conditions of what has been read before are in the filter: by induction along the text. -/
theorem mem_conditions_of_parseAfter {groups parts : List Filter} {cs : List Char} {f : Filter}
    (h : parseAfter groups parts cs = .ok f) {l : Leaf}
    (hl : l ∈ allConditions (groups ++ parts)) : l ∈ f.conditions := by
  have hjoined (groups parts : List Filter) :
      allConditions (groups ++ (join? all parts).toList) = allConditions (groups ++ parts) := by
    rw [allConditions_append, allConditions_append, allConditions_join? fun _ => by rw [conditions]]
  fun_induction parseAfter groups parts cs generalizing f with
  | case1 => contradiction
  | case2 groups parts _ _ g hjoin =>
    cases h
    rw [← hjoined, ← @allConditions_join? any fun _ => by rw [conditions], hjoin] at hl
    simpa [allConditions] using hl
  | case3 => contradiction
  | case4 groups parts _ _ _ _ ih =>
    refine ih h ?_
    rwa [List.append_nil, hjoined]
  | case5 _ _ _ _ _ _ _ _ ih =>
    refine ih h ?_
    rw [← List.append_assoc, allConditions_append]
    exact List.mem_append_left _ hl
  | case6 => contradiction
  | case7 _ _ _ _ _ _ _ _ _ _ _ _ ih =>
    refine ih h ?_
    rw [← List.append_assoc, allConditions_append]
    exact List.mem_append_left _ hl

theorem mem_conditions_of_part {groups parts : List Filter} {cs : List Char} {f part : Filter}
    (h : parseAfter groups (parts ++ [part]) cs = .ok f) {l : Leaf} (hl : l ∈ part.conditions) :
    l ∈ f.conditions := by
  refine mem_conditions_of_parseAfter h ?_
  rw [← List.append_assoc, allConditions_append, allConditions_singleton]
  exact List.mem_append_right _ hl

/-- Where a text is read to its end and the round brackets of every operand pair up, so do those of
the text: by induction along the text and into its blocks. -/
theorem ReadToEnd.isPaired {cs : List Char} (hend : ReadToEnd cs) {groups parts : List Filter}
    {f : Filter} (h : parseAfter groups parts cs = .ok f)
    (hpaired : ∀ l ∈ f.conditions, l.isPaired = true) : isPaired 0 cs = true := by
  induction hend generalizing groups parts f with
  | blank htrim =>
    refine isPaired_of_trim ?_
    rw [htrim]
    rfl
  | @term cs rest term hnext _ _ ihinner ihrest =>
    rw [parseAfter_eq, hnext] at h
    cases term with
    | or => exact Term.isPaired_of_next hnext rfl (ihrest h hpaired)
    | leaf n l =>
      have hl : l ∈ (negated n (leaf l)).conditions := by
        rw [conditions_negated]
        exact List.mem_singleton_self l
      have hleaf := isPaired_leafChars (hpaired l (mem_conditions_of_part h hl))
      exact Term.isPaired_of_next hnext hleaf (ihrest h hpaired)
    | block n inner =>
      cases hpart : parseAfter [] [] inner with
      | error e =>
        simp only [hpart] at h
        contradiction
      | ok part =>
        simp only [hpart] at h
        have hinner : Text.isPaired 0 inner = true := by
          refine ihinner hpart fun l hl => hpaired l (mem_conditions_of_part h ?_)
          rwa [conditions_negated]
        exact Term.isPaired_of_next hnext (isPaired_bracketed hinner) (ihrest h hpaired)

/-! ## Brackets around texts -/

/-- A filter text whose round brackets pair up, those in operands included, reads alike with round
brackets around it. In a text that is read to its end they pair up if they do so within each
operand. -/
theorem parse_bracketed {s : String} {f : Filter} (h : parse s = .ok f) :
    (Text.isPaired 0 s.toList = true → parse ("(" ++ s ++ ")") = .ok f) ∧
      (ReadToEnd s.toList → (∀ l ∈ f.conditions, l.isPaired = true) →
        Text.isPaired 0 s.toList = true) := by
  refine ⟨fun hpaired => ?_, fun hend hoperands => hend.isPaired h hoperands⟩
  have htext : ("(" ++ s ++ ")").toList = bracketed s.toList := by simp [bracketed]
  have htoken := Token.next_block (.of_isPaired hpaired) .nil
  rw [List.append_nil] at htoken
  have hterm : Term.next (bracketed s.toList) = .ok (some (.block 0 s.toList, [])) := by
    rw [Term.next, htoken]
  rw [parse, htext, parseAfter_block h hterm, parseAfter_nil]
  rfl

/-- The brackets in the title pair up, and those in the quoted text do. -/
theorem parse_pairs_in_operands :
    let f : Filter := .any [.leaf (.title "a (b)"), .leaf (.text "(c)")]
    parse "[[a (b)]],\"(c)\"" = .ok f ∧ ReadToEnd "[[a (b)]],\"(c)\"".toList ∧
      (∀ l ∈ f.conditions, l.isPaired = true) ∧ parse "([[a (b)]],\"(c)\")" = .ok f := by
  intro f
  have htitle : Term.next "[[a (b)]],\"(c)\"".toList =
      .ok (some (.leaf 0 (.title "a (b)"), ",\"(c)\"".toList)) := rfl
  have hor : Term.next ",\"(c)\"".toList = .ok (some (.or, "\"(c)\"".toList)) := rfl
  have htext : Term.next "\"(c)\"".toList = .ok (some (.leaf 0 (.text "(c)"), [])) := rfl
  have hread : parse "[[a (b)]],\"(c)\"" = .ok f := by
    rw [parse, parseAfter_leaf htitle, parseAfter_or hor, parseAfter_leaf htext, parseAfter_nil]
    rfl
  have hend : ReadToEnd "[[a (b)]],\"(c)\"".toList := by
    have hnil : ReadToEnd [] := .blank rfl
    exact .term htitle hnil (.term hor hnil (.term htext hnil hnil))
  have hoperands : ∀ l ∈ f.conditions, l.isPaired = true := by decide
  have hbracketed := parse_bracketed hread
  exact ⟨hread, hend, hoperands, hbracketed.1 (hbracketed.2 hend hoperands)⟩

/-- A tag may hold a closing bracket, but not in a block: there the bracket closes the block. -/
theorem tag_ends_with_block :
    parse "#a)" = .ok (.leaf (.tag "a)")) ∧ ReadToEnd "#a)".toList ∧
      parse "(#a))" = .ok (.leaf (.tag "a")) ∧ parse "(#a))" ≠ parse "#a)" := by
  have htag : Term.next "#a)".toList = .ok (some (.leaf 0 (.tag "a)"), [])) := rfl
  have hread : parse "#a)" = .ok (.leaf (.tag "a)")) := by
    rw [parse, parseAfter_leaf htag, parseAfter_nil]
    rfl
  have hblock : Term.next "(#a))".toList = .ok (some (.block 0 "#a".toList, ")".toList)) := rfl
  have hinner : Term.next "#a".toList = .ok (some (.leaf 0 (.tag "a"), [])) := rfl
  have hrest : Term.next ")".toList = .ok none := rfl
  have hname : parseAfter [] [] "#a".toList = .ok (.leaf (.tag "a")) := by
    rw [parseAfter_leaf hinner, parseAfter_nil]
    rfl
  have hbracketed : parse "(#a))" = .ok (.leaf (.tag "a")) := by
    rw [parse, parseAfter_block hname hblock, parseAfter_none hrest]
    rfl
  refine ⟨hread, .term htag (.blank rfl) (.blank rfl), hbracketed, ?_⟩
  rw [hread, hbracketed]
  simp

end Filter

end TiddlerShelf
