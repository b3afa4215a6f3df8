import TiddlerShelf.Proofs.ReadBack

/-! # Filters that reading gives

Whatever a text is read as is canonical (`isCanonical_of_parse`): every rule reads operands that its
token admits, a group is joined only where it has two parts or more, and what stands in a block has
been read by the same rules. -/

namespace TiddlerShelf

open TiddlerShelf.Text

namespace Text

variable {p : Char → Bool} {cs run rest : List Char}

/-- A run that is read is not empty and consists of characters that belong to it. -/
theorem ofList_of_takeRun? (h : takeRun? p cs = some (run, rest)) :
    (String.ofList run != "" && (String.ofList run).toList.all p) = true := by
  have hne : run ≠ [] := ne_nil_of_takeRun? h
  have hall : run.all p = true := by
    unfold takeRun? at h
    split at h
    · contradiction
    · cases h
      exact List.all_takeWhile
  rw [String.toList_ofList, hall, Bool.and_true, bne_iff_ne]
  intro hempty
  exact hne (by simpa using congrArg String.toList hempty)

end Text

namespace Filter

/-! ## Conditions -/

namespace Token

/-- Whether a condition has been read from the front of a text: it is canonical, and what is written
of it stands there, before the rest. -/
structure Reads (cs : List Char) (l : Leaf) (rest : List Char) : Prop where
  canonical : leafIsCanonical l = true
  chars : leafChars l ++ rest = cs

variable {cs rest : List Char} {l : Leaf}

theorem reads_of_title? (h : title? cs = some (l, rest)) : Reads cs l rest := by
  unfold title? at h
  split at h
  · split at h
    · rename_i title _ hrun
      cases h
      refine ⟨ofList_of_takeRun? hrun, ?_⟩
      rw [leafChars, String.toList_ofList, ← append_of_takeRun? hrun]
      simp
    · contradiction
  · contradiction

/-- A sign and a name are read as a condition on the name, whichever it is. -/
theorem reads_of_signed? {sign : Char} {condition : String → Leaf}
    (hcanonical : ∀ s, leafIsCanonical (condition s) = (s != "" && s.toList.all isNameChar))
    (hchars : ∀ s, leafChars (condition s) = sign :: s.toList)
    (h : signed? sign condition cs = some (l, rest)) : Reads cs l rest := by
  unfold signed? at h
  split at h
  · split at h
    · rename_i hsign
      obtain ⟨⟨name, more⟩, hrun, heq⟩ := Option.map_eq_some_iff.1 h
      cases heq
      refine ⟨(hcanonical _).trans (ofList_of_takeRun? hrun), ?_⟩
      rw [hchars, String.toList_ofList, hsign, List.cons_append, append_of_takeRun? hrun]
    · contradiction
  · contradiction

theorem reads_of_fieldValue? {name more : List Char} (negated : Bool)
    (hname : takeRun? isFieldNameChar cs = some (name, fieldSign negated ++ more))
    (h : fieldValue? name negated more = some (l, rest)) : Reads ('[' :: cs) l rest := by
  unfold fieldValue? at h
  split at h
  · rename_i value _ hrun
    cases h
    refine ⟨?_, ?_⟩
    · rw [leafIsCanonical, ofList_of_takeRun? hname, Bool.true_and, ofList_of_takeRun? hrun]
    · rw [← append_of_takeRun? hname, ← append_of_takeRun? hrun]
      simp [leafChars, fieldSign]
  · contradiction

theorem reads_of_field? (h : field? cs = some (l, rest)) : Reads cs l rest := by
  unfold field? at h
  split at h
  · split at h
    · rename_i hname
      exact reads_of_fieldValue? false hname h
    · rename_i hname
      exact reads_of_fieldValue? true hname h
    · contradiction
  · contradiction

theorem reads_of_quoted? (h : quoted? cs = some (l, rest)) : Reads cs l rest := by
  unfold quoted? at h
  split at h
  · split at h
    · rename_i part _ hrun
      cases h
      refine ⟨ofList_of_takeRun? hrun, ?_⟩
      rw [leafChars, String.toList_ofList, ← append_of_takeRun? hrun]
      simp
    · contradiction
  · contradiction

/-- Whichever rule reads a condition, the condition is canonical and stands in the text. -/
theorem reads_of_leaf? (h : leaf? cs = some (l, rest)) : Reads cs l rest := by
  simp only [leaf?, Option.orElse_eq_orElse, Option.orElse_eq_or, Option.or_eq_some_iff] at h
  rcases h with h | ⟨-, h | ⟨-, h | ⟨-, h | ⟨-, h | ⟨-, h⟩⟩⟩⟩⟩
  · exact reads_of_title? h
  · exact reads_of_signed? (fun _ => rfl) (fun _ => rfl) h
  · exact reads_of_field? h
  · exact reads_of_signed? (fun _ => rfl) (fun _ => rfl) h
  · exact reads_of_signed? (fun _ => rfl) (fun _ => rfl) h
  · exact reads_of_quoted? h

/-- A token that is a condition has been read from the trimmed text. -/
theorem reads_of_next (h : next cs = .ok (some (leaf l, rest))) : Reads (trim cs) l rest := by
  unfold next at h
  split at h
  · rename_i hleaf
    cases h
    exact reads_of_leaf? hleaf
  · unfold sign? at h
    split at h
    · split at h <;> cases h
    · split at h <;> cases h
    · cases h
    · cases h

end Token

/-! ## Terms -/

namespace Term

variable {cs rest : List Char}

/-- A term other than a comma is read as an operand that nothing negates. -/
theorem operand_of_next {term : Term} (h : next cs = .ok (some (term, rest))) (hor : term ≠ .or) :
    operand 0 cs = .ok (term, rest) := by
  unfold next at h
  split at h
  · contradiction
  · cases h
  · rename_i hnext
    cases h
    exact operand_of_leaf 0 hnext
  · rename_i hnext
    cases h
    exact operand_of_block 0 hnext
  · rename_i mid hnext
    rw [operand_of_not 0 hnext]
    cases hmid : operand 1 mid with
    | error e =>
      rw [hmid] at h
      contradiction
    | ok result =>
      rw [hmid] at h
      cases h
      rfl
  · cases h
    contradiction

theorem leafIsCanonical_of_operand {n m : Nat} {l : Leaf}
    (h : operand n cs = .ok (leaf m l, rest)) : leafIsCanonical l = true := by
  fun_induction operand n cs with
  | case1 => contradiction
  | case2 _ _ _ _ hnext =>
    cases h
    exact (Token.reads_of_next hnext).canonical
  | case3 => cases h
  | case4 _ _ _ _ _ ih => exact ih h
  | case5 => contradiction
  | case6 => contradiction

end Term

/-! ## Filters -/

theorem allCanonical_append (fs gs : List Filter) :
    allCanonical (fs ++ gs) = (allCanonical fs && allCanonical gs) := by
  induction fs with
  | nil => rfl
  | cons f fs ih => simp only [List.cons_append, allCanonical, ih, Bool.and_assoc]

theorem allCanonical_concat {fs : List Filter} {f : Filter} (hfs : allCanonical fs = true)
    (hf : f.isCanonical = true) : allCanonical (fs ++ [f]) = true := by
  simp only [allCanonical_append, allCanonical, hfs, hf, Bool.and_self]

theorem isCanonical_negated {f : Filter} (n : Nat) (h : f.isCanonical = true) :
    (negated n f).isCanonical = true := by
  induction n with
  | zero => exact h
  | succ n ih => exact ih

/-- Canonical parts are joined to a canonical filter, since one part alone gets no node. -/
theorem isCanonical_of_join? {wrap : List Filter → Filter}
    (hwrap : ∀ parts, (wrap parts).isCanonical = (2 ≤ parts.length && allCanonical parts))
    {parts : List Filter} {f : Filter} (hparts : allCanonical parts = true)
    (h : join? wrap parts = some f) : f.isCanonical = true := by
  match parts with
  | [] => contradiction
  | [part] =>
    cases h
    simpa [allCanonical] using hparts
  | part :: next :: parts =>
    cases h
    simp [hwrap, hparts]

theorem allCanonical_joinAll {parts : List Filter} (h : allCanonical parts = true) :
    allCanonical (join? all parts).toList = true := by
  cases hjoin : join? all parts with
  | none => rfl
  | some f => simp [allCanonical, isCanonical_of_join? (fun _ => by rw [isCanonical]) h hjoin]

/-- Reading that goes on from canonical groups and parts gives a canonical filter: by induction
along the text and into its blocks. -/
theorem isCanonical_of_parseAfter {groups parts : List Filter} {cs : List Char} {f : Filter}
    (hgroups : allCanonical groups = true) (hparts : allCanonical parts = true)
    (h : parseAfter groups parts cs = .ok f) : f.isCanonical = true := by
  have hjoined : ∀ {groups parts : List Filter}, allCanonical groups = true →
      allCanonical parts = true → allCanonical (groups ++ (join? all parts).toList) = true :=
    fun hgroups hparts => by rw [allCanonical_append, hgroups, allCanonical_joinAll hparts]; rfl
  fun_induction parseAfter groups parts cs generalizing f with
  | case1 => contradiction
  | case2 _ _ _ _ _ hjoin =>
    cases h
    exact isCanonical_of_join? (fun _ => by rw [isCanonical]) (hjoined hgroups hparts) hjoin
  | case3 => contradiction
  | case4 _ _ _ _ _ _ ih => exact ih (hjoined hgroups hparts) rfl h
  | case5 _ _ _ n l _ hnext _ ih =>
    have hleaf : (leaf l).isCanonical = true :=
      Term.leafIsCanonical_of_operand (Term.operand_of_next hnext nofun)
    exact ih hgroups (allCanonical_concat hparts (isCanonical_negated n hleaf)) h
  | case6 => contradiction
  | case7 _ _ _ n _ _ _ _ _ _ hinner ihinner ih =>
    have hblock := ihinner rfl rfl hinner
    exact ih hgroups (allCanonical_concat hparts (isCanonical_negated n hblock)) h

/-- Whatever text is read as a filter, the filter is canonical: at any depth every conjunction and
every disjunction has at least two parts, there is no predicate, and the operands of every condition
are such as its token admits. So it is never the filter that accepts everything for want of
conditions. -/
theorem isCanonical_of_parse {text : String} {f : Filter} (h : parse text = .ok f) :
    f.isCanonical = true ∧ f.isEverything = false := by
  have hcanonical : f.isCanonical = true := isCanonical_of_parseAfter rfl rfl h
  refine ⟨hcanonical, ?_⟩
  cases f with
  | all parts =>
    cases parts with
    | nil => contradiction
    | cons part parts => rfl
  | _ => rfl

theorem parseAfter_or {groups parts : List Filter} {cs rest : List Char}
    (h : Term.next cs = .ok (some (.or, rest))) :
    parseAfter groups parts cs = parseAfter (groups ++ (join? all parts).toList) [] rest := by
  rw [parseAfter_eq, h]

theorem parseAfter_none {groups parts : List Filter} {cs : List Char}
    (h : Term.next cs = .ok none) :
    parseAfter groups parts cs = finish (groups ++ (join? all parts).toList) := by
  rw [parseAfter_eq, h]

/-- An empty group, a block around a block and a rest that is no token leave no node behind. -/
theorem isCanonical_of_gaps :
    let f : Filter := .any [.leaf (.tag "a"), .all [.leaf (.text "b"), .leaf (.field "c" "d" true)]]
    parse ",#a,((\"b\" [c!=d])) e" = .ok f ∧ f.isCanonical = true ∧ f.isEverything = false := by
  intro f
  have hinner : parseAfter [] [] "\"b\" [c!=d]".toList =
      .ok (.all [.leaf (.text "b"), .leaf (.field "c" "d" true)]) := by
    have htext : Term.next "\"b\" [c!=d]".toList =
        .ok (some (.leaf 0 (.text "b"), " [c!=d]".toList)) := rfl
    have hfield : Term.next " [c!=d]".toList =
        .ok (some (.leaf 0 (.field "c" "d" true), [])) := rfl
    rw [parseAfter_leaf htext, parseAfter_leaf hfield, parseAfter_nil]
    rfl
  have hblock : Term.next "(\"b\" [c!=d])".toList =
      .ok (some (.block 0 "\"b\" [c!=d]".toList, [])) := rfl
  have houter : parseAfter [] [] "(\"b\" [c!=d])".toList =
      .ok (.all [.leaf (.text "b"), .leaf (.field "c" "d" true)]) := by
    rw [parseAfter_block hinner hblock, parseAfter_nil]
    rfl
  have hread : parse ",#a,((\"b\" [c!=d])) e" = .ok f := by
    have hfirst : Term.next ",#a,((\"b\" [c!=d])) e".toList =
        .ok (some (.or, "#a,((\"b\" [c!=d])) e".toList)) := rfl
    have htag : Term.next "#a,((\"b\" [c!=d])) e".toList =
        .ok (some (.leaf 0 (.tag "a"), ",((\"b\" [c!=d])) e".toList)) := rfl
    have hsecond : Term.next ",((\"b\" [c!=d])) e".toList =
        .ok (some (.or, "((\"b\" [c!=d])) e".toList)) := rfl
    have hblocks : Term.next "((\"b\" [c!=d])) e".toList =
        .ok (some (.block 0 "(\"b\" [c!=d])".toList, " e".toList)) := rfl
    have hrest : Term.next " e".toList = .ok none := rfl
    rw [parse, parseAfter_or hfirst, parseAfter_leaf htag, parseAfter_or hsecond,
      parseAfter_block houter hblocks, parseAfter_none hrest]
    rfl
  exact ⟨hread, isCanonical_of_parse hread⟩

end Filter

end TiddlerShelf
