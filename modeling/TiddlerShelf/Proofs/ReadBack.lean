import TiddlerShelf.Proofs.FilterText

/-! # Filters read back

What is written of a canonical filter reads back as that filter (`parse_written`). A part of a
conjunction reads as one term, which a block around it or negations before it do not change, a group
of a disjunction as the parts that it has. -/

namespace TiddlerShelf

open TiddlerShelf.Text

namespace Filter

/-! ## Terms -/

namespace Term

variable {cs rest : List Char}

/-- What a part of a conjunction reads as after a number of negations. -/
def ofPart (negations : Nat) : Filter → Term
  | .not part => ofPart (negations + 1) part
  | .leaf condition => leaf negations condition
  | f => block negations f.chars

theorem operand_of_leaf {l : Leaf} (n : Nat) (h : Token.next cs = .ok (some (.leaf l, rest))) :
    operand n cs = .ok (leaf n l, rest) := by
  rw [operand]
  split <;> simp_all

theorem operand_of_block {inner : List Char} (n : Nat)
    (h : Token.next cs = .ok (some (.block inner, rest))) :
    operand n cs = .ok (block n inner, rest) := by
  rw [operand]
  split <;> simp_all

theorem operand_of_not (n : Nat) (h : Token.next cs = .ok (some (.not, rest))) :
    operand n cs = operand (n + 1) rest := by
  rw [operand]
  split <;> simp_all

/-- An exclamation mark before a part is read as its negation. -/
theorem next_not {part : Filter} (h : Writable part) (hrest : Follows rest) :
    Token.next (partText true (.not part) ++ rest) =
      .ok (some (.not, partText true part ++ rest)) := by
  obtain ⟨c, cs, heq, -, hc⟩ := h.opens
  have hfilled := hrest.filled (filled_partText true h.filled)
  have htext : partText true (.not part) = '!' :: partText true part := chars_not part
  rw [heq, List.cons_append] at hfilled
  rw [htext, heq, List.cons_append, List.cons_append, Token.next_not hc hfilled]

theorem operand_partText {f : Filter} (h : Writable f) (n : Nat) (hrest : Follows rest) :
    operand n (partText true f ++ rest) = .ok (ofPart n f, rest) := by
  induction h generalizing n with
  | leaf hl hfree => exact operand_of_leaf n (Token.next_leaf hl hrest)
  | not hpart ih => exact (operand_of_not n (next_not hpart hrest)).trans (ih (n + 1))
  | all hlen hparts =>
    exact operand_of_block n (Token.next_block (Writable.all hlen hparts).balanced hrest)
  | any hlen hparts =>
    exact operand_of_block n (Token.next_block (Writable.any hlen hparts).balanced hrest)

/-- Reading begins a part like an operand that nothing negates. -/
theorem next_eq_operand {token : Token} (h : Token.next cs = .ok (some (token, rest)))
    (hor : token ≠ .or) : next cs = (operand 0 cs).map some := by
  cases token with
  | leaf l => simp [next, h, operand_of_leaf 0 h, Except.map]
  | block inner => simp [next, h, operand_of_block 0 h, Except.map]
  | not => simp [next, h, operand_of_not 0 h]
  | or => contradiction

theorem next_partText {f : Filter} (h : Writable f) (hrest : Follows rest) :
    next (partText true f ++ rest) = .ok (some (ofPart 0 f, rest)) := by
  obtain ⟨token, more, hnext, hor⟩ : ∃ token more,
      Token.next (partText true f ++ rest) = .ok (some (token, more)) ∧ token ≠ .or := by
    cases h with
    | leaf hl hfree => exact ⟨_, _, Token.next_leaf hl hrest, nofun⟩
    | not hpart => exact ⟨_, _, next_not hpart hrest, nofun⟩
    | all hlen hparts =>
      exact ⟨_, _, Token.next_block (Writable.all hlen hparts).balanced hrest, nofun⟩
    | any hlen hparts =>
      exact ⟨_, _, Token.next_block (Writable.any hlen hparts).balanced hrest, nofun⟩
  rw [next_eq_operand hnext hor, operand_partText h 0 hrest]
  rfl

theorem next_blank (cs : List Char) : next (' ' :: cs) = next cs := by
  rw [next, Token.next_blank, next]

theorem next_comma (h : Filled rest) : next (',' :: rest) = .ok (some (or, rest)) := by
  rw [next, Token.next_or h]

end Term

/-! ## Whole filters -/

/-- What reading gives when the text ends after some groups. -/
def finish (groups : List Filter) : Except ParseError Filter :=
  match join? any groups with
  | some f => .ok f
  | none => .error .emptyFilter

section parseAfter

variable {groups parts : List Filter} {cs rest : List Char} {n : Nat}

/-- Reading goes on after the term that the text begins with. -/
theorem parseAfter_eq (groups parts : List Filter) (cs : List Char) :
    parseAfter groups parts cs = match Term.next cs with
      | .error e => .error e
      | .ok none => finish (groups ++ (join? all parts).toList)
      | .ok (some (.or, rest)) => parseAfter (groups ++ (join? all parts).toList) [] rest
      | .ok (some (.leaf n l, rest)) => parseAfter groups (parts ++ [negated n (leaf l)]) rest
      | .ok (some (.block n inner, rest)) =>
        match parseAfter [] [] inner with
        | .error e => .error e
        | .ok part => parseAfter groups (parts ++ [negated n part]) rest := by
  rw [parseAfter]
  split
  · rename_i hnext
    simp only [hnext]
  · rename_i hnext
    cases hjoin : join? any (groups ++ (join? all parts).toList) <;>
      simp only [hnext, finish, hjoin]
  · rename_i hnext
    simp only [hnext]
  · rename_i hnext
    simp only [hnext]
  · rename_i inner _ hnext
    cases hinner : parseAfter [] [] inner <;> simp only [hnext, hinner]

theorem parseAfter_nil (groups parts : List Filter) :
    parseAfter groups parts [] = finish (groups ++ (join? all parts).toList) :=
  parseAfter_eq groups parts []

theorem parseAfter_blank (groups parts : List Filter) (cs : List Char) :
    parseAfter groups parts (' ' :: cs) = parseAfter groups parts cs := by
  rw [parseAfter_eq, Term.next_blank, ← parseAfter_eq]

theorem parseAfter_comma (groups parts : List Filter) (h : Filled rest) :
    parseAfter groups parts (',' :: rest) =
      parseAfter (groups ++ (join? all parts).toList) [] rest := by
  rw [parseAfter_eq, Term.next_comma h]

theorem parseAfter_leaf {l : Leaf} (h : Term.next cs = .ok (some (.leaf n l, rest))) :
    parseAfter groups parts cs = parseAfter groups (parts ++ [negated n (leaf l)]) rest := by
  rw [parseAfter_eq, h]

theorem parseAfter_block {f : Filter} {inner : List Char} (hinner : parseAfter [] [] inner = .ok f)
    (h : Term.next cs = .ok (some (.block n inner, rest))) :
    parseAfter groups parts cs = parseAfter groups (parts ++ [negated n f]) rest := by
  rw [parseAfter_eq, h]
  simp only [hinner]

end parseAfter

/-- The parts of a conjunction, and of anything else the one that it is. -/
def conjuncts : Filter → List Filter
  | all parts => parts
  | f => [f]

theorem join?_of_two_le (wrap : List Filter → Filter) {parts : List Filter}
    (h : 2 ≤ parts.length) : join? wrap parts = some (wrap parts) := by
  match parts with
  | _ :: _ :: _ => rfl

theorem Writable.join?_conjuncts {f : Filter} (h : Writable f) :
    join? Filter.all (conjuncts f) = some f := by
  cases h with
  | all hlen hparts => exact join?_of_two_le Filter.all hlen
  | _ => rfl

theorem negated_not (n : Nat) (f : Filter) : negated n (not f) = negated (n + 1) f := by
  induction n with
  | zero => rfl
  | succ n ih => exact congrArg not ih

/-- How a filter reads back: as a whole text, as the next part of a conjunction, and as the next
group of a disjunction. -/
structure ReadsBack (f : Filter) : Prop where
  whole : parseAfter [] [] f.chars = .ok f
  part : ∀ {groups parts : List Filter} {n : Nat} {cs rest : List Char},
    Term.next cs = .ok (some (Term.ofPart n f, rest)) →
    parseAfter groups parts cs = parseAfter groups (parts ++ [negated n f]) rest
  group : ∀ (groups : List Filter) {rest : List Char}, Follows rest →
    parseAfter groups [] (partText false f ++ rest) = parseAfter groups (conjuncts f) rest

/-- A part reads back where it stands. -/
theorem ReadsBack.partText {f : Filter} (h : ReadsBack f) (hf : Writable f)
    (groups parts : List Filter) {rest : List Char} (hrest : Follows rest) :
    parseAfter groups parts (partText true f ++ rest) = parseAfter groups (parts ++ [f]) rest :=
  h.part (Term.next_partText hf hrest)

/-- The parts of a conjunction read back one after the other. -/
theorem parseAfter_allParts {ps : List Filter} (hne : ps ≠ [])
    (hps : ∀ p ∈ ps, Writable p ∧ ReadsBack p) (groups parts : List Filter) {rest : List Char}
    (hrest : Follows rest) :
    parseAfter groups parts (partsChars [' '] true ps ++ rest) =
      parseAfter groups (parts ++ ps) rest := by
  match ps with
  | [p] =>
    obtain ⟨hp, hread⟩ := hps p List.mem_cons_self
    exact hread.partText hp groups parts hrest
  | p :: q :: ps =>
    obtain ⟨hp, hread⟩ := hps p List.mem_cons_self
    have hrest' : ∀ p ∈ q :: ps, Writable p ∧ ReadsBack p :=
      fun p hmem => hps p (List.mem_cons_of_mem _ hmem)
    have hfilled := filled_partsChars [' '] true (List.cons_ne_nil q ps)
      fun p hmem => (hrest' p hmem).1.filled
    have ih := parseAfter_allParts (List.cons_ne_nil q ps) hrest' groups (parts ++ [p]) hrest
    rw [partsChars_cons_cons, List.append_assoc, List.append_assoc, List.singleton_append,
      hread.partText hp groups parts (.blank (hrest.filled hfilled)), parseAfter_blank, ih,
      List.append_assoc]
    rfl

/-- The parts of a disjunction read back as groups. -/
theorem parseAfter_anyParts {ps : List Filter} (hne : ps ≠ [])
    (hps : ∀ p ∈ ps, Writable p ∧ ReadsBack p) (groups : List Filter) :
    parseAfter groups [] (partsChars [','] false ps) = finish (groups ++ ps) := by
  match ps with
  | [p] =>
    obtain ⟨hp, hread⟩ := hps p List.mem_cons_self
    have hgroup := hread.group groups .nil
    rw [List.append_nil] at hgroup
    rw [partsChars_singleton, hgroup, parseAfter_nil, hp.join?_conjuncts]
    rfl
  | p :: q :: ps =>
    obtain ⟨hp, hread⟩ := hps p List.mem_cons_self
    have hrest : ∀ p ∈ q :: ps, Writable p ∧ ReadsBack p :=
      fun p hmem => hps p (List.mem_cons_of_mem _ hmem)
    have hfilled := filled_partsChars [','] false (List.cons_ne_nil q ps)
      fun p hmem => (hrest p hmem).1.filled
    have ih := parseAfter_anyParts (List.cons_ne_nil q ps) hrest (groups ++ [p])
    rw [partsChars_cons_cons, List.append_assoc, List.singleton_append,
      hread.group groups (.comma hfilled), parseAfter_comma _ _ hfilled, hp.join?_conjuncts,
      Option.toList_some, ih, List.append_assoc]
    rfl

/-- What reads back as the only group reads back as a whole. -/
theorem Writable.parseAfter_chars {f : Filter} (h : Writable f) (htext : partText false f = f.chars)
    (hgroup : parseAfter [] [] (partText false f ++ []) = parseAfter [] (conjuncts f) []) :
    parseAfter [] [] f.chars = .ok f := by
  rw [htext, List.append_nil, parseAfter_nil, h.join?_conjuncts] at hgroup
  exact hgroup

/-- What reads back as a whole reads back in round brackets. -/
theorem parseAfter_of_block {f : Filter} (hwhole : parseAfter [] [] f.chars = .ok f)
    (hblock : ∀ n, Term.ofPart n f = .block n f.chars) {groups parts : List Filter} {n : Nat}
    {cs rest : List Char} (h : Term.next cs = .ok (some (Term.ofPart n f, rest))) :
    parseAfter groups parts cs = parseAfter groups (parts ++ [negated n f]) rest := by
  rw [hblock] at h
  exact parseAfter_block hwhole h

/-- Every canonical filter reads back: by induction on the filter, since what a block reads as is a
filter within it, and so are the parts of a group. -/
theorem Writable.readsBack {f : Filter} (h : Writable f) : ReadsBack f := by
  induction h with
  | @leaf l hl hfree =>
    have hleaf := Writable.leaf hl hfree
    have hgroup (groups : List Filter) {rest : List Char} (hrest : Follows rest) :
        parseAfter groups [] (Filter.partText false (.leaf l) ++ rest) =
          parseAfter groups [.leaf l] rest :=
      parseAfter_leaf (Term.next_partText hleaf hrest)
    exact ⟨hleaf.parseAfter_chars rfl (hgroup [] .nil), parseAfter_leaf, hgroup⟩
  | @not part hpart ih =>
    have hread {groups parts : List Filter} {n : Nat} {cs rest : List Char}
        (h : Term.next cs = .ok (some (Term.ofPart n (.not part), rest))) :
        parseAfter groups parts cs =
          parseAfter groups (parts ++ [negated n (.not part)]) rest := by
      rw [negated_not]
      exact ih.part h
    have hgroup (groups : List Filter) {rest : List Char} (hrest : Follows rest) :
        parseAfter groups [] (Filter.partText false (.not part) ++ rest) =
          parseAfter groups [.not part] rest :=
      hread (Term.next_partText (.not hpart) hrest)
    exact ⟨hpart.not.parseAfter_chars rfl (hgroup [] .nil), hread, hgroup⟩
  | @all parts hlen hparts ih =>
    have hgroup (groups : List Filter) {rest : List Char} (hrest : Follows rest) :=
      parseAfter_allParts (by rintro rfl; simp at hlen) (fun p hp => ⟨hparts p hp, ih p hp⟩) groups
        [] hrest
    have hwhole := (Writable.all hlen hparts).parseAfter_chars rfl (hgroup [] .nil)
    exact ⟨hwhole, parseAfter_of_block hwhole fun _ => rfl, hgroup⟩
  | @any parts hlen hparts ih =>
    have hwhole : parseAfter [] [] (Filter.any parts).chars = .ok (.any parts) := by
      have hany := parseAfter_anyParts (by rintro rfl; simp at hlen)
        (fun p hp => ⟨hparts p hp, ih p hp⟩) []
      rw [List.nil_append, finish, join?_of_two_le Filter.any hlen] at hany
      exact hany
    exact ⟨hwhole, parseAfter_of_block hwhole fun _ => rfl, fun _ _ hrest =>
      parseAfter_of_block hwhole (fun _ => rfl) (Term.next_partText (.any hlen hparts) hrest)⟩

/-- The text of a canonical filter, whose operands hold no round bracket, reads back as exactly that
filter. -/
theorem parse_written {f : Filter} (hcanonical : f.isCanonical = true)
    (hfree : f.isBracketFree = true) : parse f.written = .ok f := by
  rw [parse, written, String.toList_ofList]
  exact (Writable.of_isCanonical hcanonical hfree).readsBack.whole

/-- A filter of every kind but predicates, nested both ways. -/
def nestedFilter : Filter :=
  .any [.all [.leaf (.tag "a"), .not (.any [.leaf (.title "[b"), .leaf (.field "[c" "=d" true)])],
    .not (.not (.leaf (.text "x, y")))]

theorem parse_nestedFilter :
    nestedFilter.isCanonical = true ∧ nestedFilter.isBracketFree = true ∧
      nestedFilter.written = "#a !([[[b]],[[c!==d]),!!\"x, y\"" ∧
      parse nestedFilter.written = .ok nestedFilter :=
  ⟨by decide, by decide, by decide, parse_written (by decide) (by decide)⟩

end Filter

end TiddlerShelf
