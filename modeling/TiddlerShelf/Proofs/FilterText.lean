import TiddlerShelf.Filter.Parser
import TiddlerShelf.Filter.Written
import TiddlerShelf.Proofs.Trimming

/-! # The text of filters

The shape of what is written of a canonical filter, and the tokens that it begins with. The operands
may hold no round bracket, since a block ends at the bracket that closes it wherever that stands.
Each token is read with more text behind it, which is empty or begins with a separator. -/

namespace TiddlerShelf

open TiddlerShelf.Text

namespace Text

/-- A run is read up to the first character that does not belong to it. -/
theorem takeRun?_append {p : Char → Bool} {run : List Char} (hne : run ≠ [])
    (hrun : run.all p = true) (rest : List Char) (hrest : ∀ c ∈ rest.head?, p c = false) :
    takeRun? p (run ++ rest) = some (run, rest) := by
  have htake : rest.takeWhile p = [] ∧ rest.dropWhile p = rest := by
    cases rest with
    | nil => exact ⟨rfl, rfl⟩
    | cons c rest => simp [hrest c rfl]
  have hall := List.all_eq_true.1 hrun
  unfold takeRun?
  rw [List.takeWhile_append_of_pos hall, List.dropWhile_append_of_pos hall, htake.1, htake.2,
    List.append_nil]
  cases run with
  | nil => contradiction
  | cons c run => rfl

end Text

namespace Leaf

/-- The texts that a condition is made of. -/
def operands : Leaf → List String
  | title s | tag s | space s | modifier s | text s => [s]
  | field name value _ => [name, value]

/-- Whether a character is a round bracket. -/
def isRoundBracket (c : Char) : Bool := c == '(' || c == ')'

/-- Whether no operand of a condition holds a round bracket. -/
def isBracketFree (l : Leaf) : Bool := l.operands.all fun s => s.toList.all (!isRoundBracket ·)

end Leaf

namespace Filter

mutual

/-- Whether no operand in the filter holds a round bracket. -/
def isBracketFree : Filter → Bool
  | all parts | any parts => allBracketFree parts
  | not part => part.isBracketFree
  | predicate _ => true
  | leaf condition => condition.isBracketFree

/-- Whether no operand in the filters of a list holds a round bracket. -/
def allBracketFree : List Filter → Bool
  | [] => true
  | part :: parts => part.isBracketFree && allBracketFree parts

end

/-- The canonical filters without round brackets in their operands. -/
inductive Writable : Filter → Prop
  | leaf {l : Leaf} (hl : leafIsCanonical l = true) (hfree : l.isBracketFree = true) :
    Writable (leaf l)
  | not {part : Filter} (hpart : Writable part) : Writable (not part)
  | all {parts : List Filter} (hlen : 2 ≤ parts.length) (hparts : ∀ part ∈ parts, Writable part) :
    Writable (all parts)
  | any {parts : List Filter} (hlen : 2 ≤ parts.length) (hparts : ∀ part ∈ parts, Writable part) :
    Writable (any parts)

mutual

theorem Writable.of_isCanonical : ∀ {f : Filter}, f.isCanonical = true → f.isBracketFree = true →
    Writable f
  | .all parts, h, hfree => by
    simp only [isCanonical, Bool.and_eq_true, decide_eq_true_eq] at h
    exact .all h.1 (Writable.of_allCanonical h.2 hfree)
  | .any parts, h, hfree => by
    simp only [isCanonical, Bool.and_eq_true, decide_eq_true_eq] at h
    exact .any h.1 (Writable.of_allCanonical h.2 hfree)
  | .not _, h, hfree => .not (Writable.of_isCanonical h hfree)
  | .predicate _, h, _ => nomatch h
  | .leaf _, h, hfree => .leaf h hfree

theorem Writable.of_allCanonical : ∀ {parts : List Filter}, allCanonical parts = true →
    allBracketFree parts = true → ∀ part ∈ parts, Writable part
  | [], _, _ => nofun
  | part :: parts, h, hfree => by
    rw [allCanonical, Bool.and_eq_true] at h
    rw [allBracketFree, Bool.and_eq_true] at hfree
    exact List.forall_mem_cons.2
      ⟨Writable.of_isCanonical h.1 hfree.1, Writable.of_allCanonical h.2 hfree.2⟩

end

/-! ## What the text of a filter looks like -/

/-- The text of a part of a conjunction or of a disjunction. -/
def partText (inAll : Bool) (part : Filter) : List Char :=
  if part.isAny || (inAll && part.isAll) then bracketed part.chars else part.chars

theorem partsChars_singleton (separator : List Char) (inAll : Bool) (part : Filter) :
    partsChars separator inAll [part] = partText inAll part := rfl

theorem partsChars_cons_cons (separator : List Char) (inAll : Bool) (part next : Filter)
    (parts : List Filter) :
    partsChars separator inAll (part :: next :: parts) =
      partText inAll part ++ separator ++ partsChars separator inAll (next :: parts) := rfl

theorem chars_not (part : Filter) : (not part).chars = '!' :: partText true part := by
  rw [chars, partText, Bool.true_and, Bool.or_comm]

/-- What is written of a condition ends in the last character of its token. -/
theorem filled_leafChars {l : Leaf} (h : leafIsCanonical l = true) : Filled (leafChars l) := by
  have hname : ∀ (sign : Char) (s : String), (s != "" && s.toList.all Token.isNameChar) = true →
      Filled (sign :: s.toList) := by
    intro sign s hs
    simp only [Bool.and_eq_true, bne_iff_ne] at hs
    have hne : s.toList ≠ [] := by simpa using hs.1
    have hlast := List.all_eq_true.1 hs.2 _ (List.getLast_mem hne)
    simp only [Token.isNameChar, Bool.and_eq_true, Bool.not_eq_true'] at hlast
    exact ⟨sign :: s.toList.dropLast, s.toList.getLast hne,
      congrArg (sign :: ·) (List.dropLast_concat_getLast hne).symm, hlast.1⟩
  cases l with
  | title s =>
    exact (filled_append_singleton [']'] (by decide : isBlank ']' = false)).append
      ('[' :: '[' :: s.toList)
  | tag s => exact hname '#' s h
  | field name value negated =>
    exact filled_append_singleton _ (by decide : isBlank ']' = false)
  | space s => exact hname '@' s h
  | modifier s => exact hname '+' s h
  | text s => exact filled_append_singleton ('"' :: s.toList) (by decide)

theorem filled_bracketed (cs : List Char) : Filled (bracketed cs) :=
  filled_append_singleton ('(' :: cs) (by decide)

theorem filled_partText (inAll : Bool) {part : Filter} (h : Filled part.chars) :
    Filled (partText inAll part) := by
  unfold partText
  split
  · exact filled_bracketed _
  · exact h

theorem filled_partsChars (separator : List Char) (inAll : Bool) {parts : List Filter}
    (hne : parts ≠ []) (h : ∀ part ∈ parts, Filled part.chars) :
    Filled (partsChars separator inAll parts) := by
  match parts with
  | [part] => exact filled_partText inAll (h part List.mem_cons_self)
  | part :: next :: parts =>
    rw [partsChars_cons_cons]
    exact (filled_partsChars separator inAll (List.cons_ne_nil _ _)
      fun p hp => h p (List.mem_cons_of_mem _ hp)).append _

theorem Writable.filled {f : Filter} (h : Writable f) : Filled f.chars := by
  induction h with
  | leaf hl hfree => exact filled_leafChars hl
  | not hpart ih =>
    rw [chars_not]
    exact (filled_partText true ih).cons '!'
  | all hlen hparts ih => exact filled_partsChars _ _ (by rintro rfl; simp at hlen) ih
  | any hlen hparts ih => exact filled_partsChars _ _ (by rintro rfl; simp at hlen) ih

/-- The first character of a part of a conjunction is neither blank nor part of a word. -/
theorem Writable.opens {f : Filter} (h : Writable f) :
    ∃ c cs, partText true f = c :: cs ∧ isBlank c = false ∧ isWordChar c = false := by
  cases h with
  | leaf hl hfree =>
    rename_i l
    cases l <;> exact ⟨_, _, rfl, by decide, by decide⟩
  | not hpart =>
    rename_i part
    exact ⟨'!', _, chars_not part, by decide, by decide⟩
  | all | any => exact ⟨'(', _, rfl, by decide, by decide⟩

/-! ## Tokens -/

/-- What may stand behind a part: nothing, or a separator and more. -/
def Follows (rest : List Char) : Prop :=
  rest = [] ∨ ∃ separator more, rest = separator :: more ∧
    (separator = ' ' ∨ separator = ',') ∧ Filled more

namespace Follows

variable {rest : List Char}

theorem nil : Follows [] := .inl rfl

theorem blank (h : Filled rest) : Follows (' ' :: rest) := .inr ⟨_, _, rfl, .inl rfl, h⟩

theorem comma (h : Filled rest) : Follows (',' :: rest) := .inr ⟨_, _, rfl, .inr rfl, h⟩

theorem filled {cs : List Char} (h : Follows rest) (hcs : Filled cs) : Filled (cs ++ rest) := by
  obtain rfl | ⟨separator, more, rfl, -, hmore⟩ := h
  · rwa [List.append_nil]
  · exact (hmore.cons separator).append cs

/-- A separator goes on with no name and closes no bracket. -/
theorem head (h : Follows rest) : ∀ c ∈ rest.head?, Token.isNameChar c = false ∧ c ≠ ']' := by
  obtain rfl | ⟨separator, more, rfl, hseparator, -⟩ := h
  · nofun
  · intro c hc
    obtain rfl := Option.some.inj hc
    rcases hseparator with rfl | rfl <;> decide

end Follows

namespace Token

theorem ne_nil_of_ne_empty {s : String} (h : (s != "") = true) : s.toList ≠ [] := by
  simpa using h

theorem title?_append {s : String} (hne : (s != "") = true)
    (hs : s.toList.all isTitleChar = true) (rest : List Char) :
    title? ('[' :: '[' :: (s.toList ++ ']' :: ']' :: rest)) = some (.title s, rest) := by
  have hrun := takeRun?_append (ne_nil_of_ne_empty hne) hs (']' :: ']' :: rest)
    (by rintro c ⟨⟩; rfl)
  simp only [title?, hrun, String.ofList_toList]

theorem signed?_append (sign : Char) (condition : String → Leaf) {s : String}
    (hs : (s != "" && s.toList.all isNameChar) = true) {rest : List Char} (h : Follows rest) :
    signed? sign condition (sign :: (s.toList ++ rest)) = some (condition s, rest) := by
  rw [Bool.and_eq_true] at hs
  have hrun := takeRun?_append (ne_nil_of_ne_empty hs.1) hs.2 rest fun c hc => (h.head c hc).1
  simp only [signed?, if_true, hrun, Option.map_some, String.ofList_toList]

theorem signed?_eq_none {sign c : Char} (condition : String → Leaf) (cs : List Char)
    (h : c ≠ sign) : signed? sign condition (c :: cs) = none := if_neg h

theorem quoted?_append {s : String} (hs : (s != "" && s.toList.all isQuotedChar) = true)
    (rest : List Char) :
    quoted? ('"' :: (s.toList ++ '"' :: rest)) = some (.text s, rest) := by
  rw [Bool.and_eq_true] at hs
  have hrun := takeRun?_append (ne_nil_of_ne_empty hs.1) hs.2 ('"' :: rest)
    (by rintro c ⟨⟩; rfl)
  simp only [quoted?, hrun, String.ofList_toList]

theorem fieldValue?_append {value : String} (hne : (value != "") = true)
    (hvalue : value.toList.all isTitleChar = true) (name : List Char) (negated : Bool)
    (rest : List Char) :
    fieldValue? name negated (value.toList ++ ']' :: rest) =
      some (.field (String.ofList name) value negated, rest) := by
  have hrun := takeRun?_append (ne_nil_of_ne_empty hne) hvalue (']' :: rest)
    (by rintro c ⟨⟩; rfl)
  simp only [fieldValue?, hrun, String.ofList_toList]

/-- The sign between the name and the value of a field. -/
def fieldSign (negated : Bool) : List Char := if negated then ['!', '='] else ['=']

theorem field?_append {name value : String} (negated : Bool)
    (h : leafIsCanonical (.field name value negated) = true) (rest : List Char) :
    field? ('[' :: (name.toList ++ (fieldSign negated ++ (value.toList ++ ']' :: rest)))) =
      some (.field name value negated, rest) := by
  simp only [leafIsCanonical, Bool.and_eq_true] at h
  obtain ⟨⟨⟨hne, hname⟩, hvalue⟩, hvalues⟩ := h
  cases negated with
  | false =>
    have hrun := takeRun?_append (ne_nil_of_ne_empty hne) hname
      ('=' :: (value.toList ++ ']' :: rest)) (by rintro c ⟨⟩; rfl)
    simp only [field?, fieldSign, Bool.false_eq_true, if_false, List.singleton_append, hrun,
      fieldValue?_append hvalue hvalues, String.ofList_toList]
  | true =>
    have hrun := takeRun?_append (ne_nil_of_ne_empty hne) hname
      ('!' :: '=' :: (value.toList ++ ']' :: rest)) (by rintro c ⟨⟩; rfl)
    simp only [field?, fieldSign, if_true, List.cons_append, List.nil_append, hrun,
      fieldValue?_append hvalue hvalues, String.ofList_toList]

/-- What stands in a field's brackets closes no square bracket. -/
theorem isTitleChar_field {name value : String} {negated : Bool}
    (h : leafIsCanonical (.field name value negated) = true) :
    (name.toList ++ (fieldSign negated ++ value.toList)).all isTitleChar = true := by
  simp only [leafIsCanonical, Bool.and_eq_true] at h
  obtain ⟨⟨⟨-, hname⟩, -⟩, hvalue⟩ := h
  have hsign : (fieldSign negated).all isTitleChar = true := by cases negated <;> rfl
  have hname' : name.toList.all isTitleChar = true := by
    refine List.all_eq_true.2 fun c hc => ?_
    have hc := List.all_eq_true.1 hname c hc
    simp only [isFieldNameChar, Bool.and_eq_true] at hc
    exact hc.2
  rw [List.all_append, List.all_append, hname', hsign, hvalue]
  rfl

/-- What a single square bracket closes is no title, even if it begins with two of them. -/
theorem title?_eq_none {inner rest : List Char} (hinner : inner.all isTitleChar = true)
    (h : Follows rest) : title? ('[' :: (inner ++ ']' :: rest)) = none := by
  unfold title?
  split
  · rename_i cs heq
    have hcs : inner ++ ']' :: rest = '[' :: cs := (List.cons.inj heq).2
    match inner with
    | [] => exact absurd (List.cons.inj hcs).1 (by decide)
    | c :: title =>
      obtain ⟨-, rfl⟩ := List.cons.inj hcs
      rw [List.all_cons, Bool.and_eq_true] at hinner
      split
      · rename_i run more hrun
        cases title with
        | nil => exact absurd hrun nofun
        | cons d title =>
          have hall := takeRun?_append (List.cons_ne_nil d title) hinner.2 (']' :: rest)
            (by rintro c ⟨⟩; rfl)
          obtain ⟨-, heq⟩ := Prod.mk.inj (Option.some.inj (hall.symm.trans hrun))
          obtain ⟨-, rfl⟩ := List.cons.inj heq
          exact absurd rfl (h.head ']' rfl).2
      · rfl
  · rfl

/-- What is written of a condition reads back as that condition. -/
theorem leaf?_leafChars {l : Leaf} (h : leafIsCanonical l = true) {rest : List Char}
    (hrest : Follows rest) : leaf? (leafChars l ++ rest) = some (l, rest) := by
  cases l with
  | title s =>
    have hs := Bool.and_eq_true_iff.1 h
    have htitle := title?_append hs.1 hs.2 rest
    simp [leaf?, leafChars, htitle]
  | tag s =>
    have htag := signed?_append '#' .tag h hrest
    simp [leaf?, leafChars, title?, htag]
  | field name value negated =>
    have htitle := title?_eq_none (isTitleChar_field h) hrest
    have hfield := field?_append negated h rest
    have hchars : leafChars (.field name value negated) ++ rest =
        '[' :: (name.toList ++ (fieldSign negated ++ (value.toList ++ ']' :: rest))) := by
      simp [leafChars, fieldSign]
    simp only [List.append_assoc] at htitle
    rw [hchars]
    simp [leaf?, signed?_eq_none, htitle, hfield]
  | space s =>
    have hspace := signed?_append '@' .space h hrest
    simp [leaf?, leafChars, title?, signed?_eq_none, field?, hspace]
  | modifier s =>
    have hmodifier := signed?_append '+' .modifier h hrest
    simp [leaf?, leafChars, title?, signed?_eq_none, field?, hmodifier]
  | text s =>
    have htext := quoted?_append h rest
    simp [leaf?, leafChars, title?, signed?_eq_none, field?, htext]

/-- Where there is nothing to trim, the text is read as it stands. -/
theorem next_cons {c : Char} {cs : List Char} (hc : isBlank c = false) (h : Filled (c :: cs)) :
    next (c :: cs) = match leaf? (c :: cs) with
      | some (condition, rest) => .ok (some (leaf condition, rest))
      | none => sign? (c :: cs) := by
  cases hleaf : leaf? (c :: cs) <;> simp only [next, trim_eq_self hc h, hleaf]

theorem next_blank (cs : List Char) : next (' ' :: cs) = next cs := by
  rw [next, trim_blank_cons cs (by decide), next]

theorem next_leaf {l : Leaf} (h : leafIsCanonical l = true) {rest : List Char}
    (hrest : Follows rest) : next (leafChars l ++ rest) = .ok (some (leaf l, rest)) := by
  obtain ⟨c, cs, heq, hc⟩ : ∃ c cs, leafChars l = c :: cs ∧ isBlank c = false := by
    cases l <;> exact ⟨_, _, rfl, by decide⟩
  have hfilled := hrest.filled (filled_leafChars h)
  have hleaf := leaf?_leafChars h hrest
  rw [heq, List.cons_append] at hfilled hleaf ⊢
  rw [next_cons hc hfilled, hleaf]

/-- An exclamation mark negates whatever does not begin like a word. -/
theorem next_not {c : Char} {cs : List Char} (hc : isWordChar c = false) (h : Filled (c :: cs)) :
    next ('!' :: c :: cs) = .ok (some (not, c :: cs)) := by
  rw [next_cons (by decide) (h.cons '!')]
  simp [leaf?, title?, signed?_eq_none, field?, quoted?, sign?, hc]

theorem next_or {rest : List Char} (h : Filled rest) :
    next (',' :: rest) = .ok (some (or, rest)) := by
  rw [next_cons (by decide) (h.cons ',')]
  simp [leaf?, title?, signed?_eq_none, field?, quoted?, sign?]

/-! ## Blocks -/

/-- Whether a text closes all the round brackets that it opens, and no others. -/
def Balanced (cs : List Char) : Prop :=
  ∀ depth rest, closeBlock depth (cs ++ rest) =
    (closeBlock depth rest).map fun (inner, after) => (cs ++ inner, after)

namespace Balanced

variable {cs ds : List Char}

theorem nil : Balanced [] := fun _ _ => by simp

theorem append (hcs : Balanced cs) (hds : Balanced ds) : Balanced (cs ++ ds) := by
  intro depth rest
  rw [List.append_assoc, hcs, hds, Option.map_map]
  congr 1
  funext x
  simp

theorem cons {c : Char} (hc : Leaf.isRoundBracket c = false) (h : Balanced cs) :
    Balanced (c :: cs) := by
  simp only [Leaf.isRoundBracket, Bool.or_eq_false_iff, beq_eq_false_iff_ne] at hc
  intro depth rest
  simp only [List.cons_append, closeBlock, if_neg hc.2, if_neg hc.1, h depth rest, Option.map_map]
  rfl

theorem of_all (h : cs.all (!Leaf.isRoundBracket ·) = true) : Balanced cs := by
  induction cs with
  | nil => exact nil
  | cons c cs ih =>
    rw [List.all_cons, Bool.and_eq_true, Bool.not_eq_true'] at h
    exact cons h.1 (ih h.2)

/-- The bracket that closes a balanced text is the one right behind it. -/
theorem closeBlock_eq (h : Balanced cs) (rest : List Char) :
    closeBlock 0 (cs ++ ')' :: rest) = some (cs, rest) := by
  rw [h]
  simp [closeBlock]

theorem bracketed (h : Balanced cs) : Balanced (bracketed cs) := by
  intro depth rest
  have hinner := h (depth + 1) (')' :: rest)
  have hopen : Filter.bracketed cs ++ rest = '(' :: (cs ++ ')' :: rest) := by
    simp [Filter.bracketed]
  have hne : '(' ≠ ')' := by decide
  simp only [hopen, closeBlock, if_neg hne, if_true, hinner, Option.map_map]
  congr 1
  funext x
  simp [Filter.bracketed]

end Balanced

theorem next_block {cs rest : List Char} (h : Balanced cs) (hrest : Follows rest) :
    next (bracketed cs ++ rest) = .ok (some (block cs, rest)) := by
  have hfilled := hrest.filled (filled_bracketed cs)
  have heq : bracketed cs ++ rest = '(' :: (cs ++ ')' :: rest) := by simp [bracketed]
  rw [heq] at hfilled ⊢
  rw [next_cons (by decide) hfilled]
  simp [leaf?, title?, signed?_eq_none, field?, quoted?, sign?, h.closeBlock_eq]

end Token

theorem balanced_leafChars {l : Leaf} (h : l.isBracketFree = true) :
    Token.Balanced (leafChars l) := by
  refine Token.Balanced.of_all ?_
  cases l with
  | field name value negated =>
    cases negated <;> simp_all [leafChars, Leaf.isBracketFree, Leaf.operands, Leaf.isRoundBracket]
  | _ => simp_all [leafChars, Leaf.isBracketFree, Leaf.operands, Leaf.isRoundBracket]

theorem balanced_partText (inAll : Bool) {part : Filter} (h : Token.Balanced part.chars) :
    Token.Balanced (partText inAll part) := by
  unfold partText
  split
  · exact h.bracketed
  · exact h

theorem balanced_partsChars {separator : List Char} (hseparator : Token.Balanced separator)
    (inAll : Bool) {parts : List Filter} (h : ∀ part ∈ parts, Token.Balanced part.chars) :
    Token.Balanced (partsChars separator inAll parts) := by
  match parts with
  | [] => exact .nil
  | [part] => exact balanced_partText inAll (h part List.mem_cons_self)
  | part :: next :: parts =>
    rw [partsChars_cons_cons]
    have hpart := balanced_partText inAll (h part List.mem_cons_self)
    exact (hpart.append hseparator).append
      (balanced_partsChars hseparator inAll fun p hp => h p (List.mem_cons_of_mem _ hp))

theorem Writable.balanced {f : Filter} (h : Writable f) : Token.Balanced f.chars := by
  induction h with
  | leaf hl hfree => exact balanced_leafChars hfree
  | not hpart ih =>
    rw [chars_not]
    exact .cons (by decide) (balanced_partText true ih)
  | all hlen hparts ih => exact balanced_partsChars (.of_all (by decide)) _ ih
  | any hlen hparts ih => exact balanced_partsChars (.of_all (by decide)) _ ih

end Filter

end TiddlerShelf
