import TiddlerShelf.Proofs.Arrival
import TiddlerShelf.Proofs.Conditions

/-! # Drafts of a client in a recipe

Where a server says that the client is in a recipe, drafts go to the bag that the name of the recipe
gives up to its last underscore, if that can be had. What space a container is of goes by a list of
endings instead. For a recipe whose name has one of these endings the two agree, so that drafts are
of the space that is read (`drafts_stay_in_space`). -/

namespace TiddlerShelf

namespace Text

theorem dropEnding?_append (stem ending : List Char) :
    dropEnding? ending (stem ++ ending) = some stem := by
  unfold dropEnding?
  rw [if_pos (List.isSuffixOf_iff_suffix.2 (List.suffix_append stem ending)), List.length_append,
    Nat.add_sub_cancel, List.take_left]

end Text

namespace Space

/-- An ending is an underscore and a word. -/
theorem exists_word_of_mem_endings {ending : String} (h : ending ∈ endings) :
    ∃ word, ending.toList = '_' :: word ∧ word ≠ [] ∧ '_' ∉ word := by
  rcases List.mem_cons.1 h with rfl | h
  · exact ⟨_, rfl, by decide, by decide⟩
  rcases List.mem_cons.1 h with rfl | h
  · exact ⟨_, rfl, by decide, by decide⟩
  rcases List.mem_cons.1 h with rfl | h
  · exact ⟨_, rfl, by decide, by decide⟩
  · contradiction

/-- A text has one ending only, since no ending ends in another. -/
theorem dropEnding?_of_mem_endings {ending other : String} (h : ending ∈ endings)
    (hother : other ∈ endings) (stem : List Char) :
    Text.dropEnding? other.toList (stem ++ ending.toList) =
      if other = ending then some stem else none := by
  have hends : ∀ x ∈ endings, ∀ y ∈ endings, x.toList <:+ y.toList → x = y := by decide +kernel
  split
  · rename_i heq
    rw [heq, Text.dropEnding?_append]
  · rename_i hne
    refine if_neg fun hsuffix => hne ?_
    rcases List.suffix_or_suffix_of_suffix (List.isSuffixOf_iff_suffix.1 hsuffix)
      (List.suffix_append stem ending.toList) with hshort | hlong
    · exact hends other hother ending h hshort
    · exact (hends ending h other hother hlong).symm

/-- The space of a name with an ending is the name without it. -/
theorem ofName_append {ending : String} (h : ending ∈ endings) (stem : String) :
    ofName (stem ++ ending) = stem := by
  have hfound : (endings.findSome? fun other =>
      Text.dropEnding? other.toList (stem ++ ending).toList) = some stem.toList := by
    rw [String.toList_append, List.findSome?_eq_some_iff]
    obtain ⟨before, after, hsplit, hnot⟩ := List.eq_append_cons_of_mem h
    refine ⟨before, ending, after, hsplit, Text.dropEnding?_append _ _, fun other hmem => ?_⟩
    have hother : other ∈ endings := hsplit ▸ List.mem_append_left _ hmem
    rw [dropEnding?_of_mem_endings h hother, if_neg fun heq : other = ending => hnot (heq ▸ hmem)]
  rw [ofName, hfound]
  exact String.ofList_toList

end Space

namespace Defaults

theorem splitLast_eq_none {sep : Char} {cs : List Char} (h : sep ∉ cs) :
    splitLast sep cs = none := by
  induction cs with
  | nil => rfl
  | cons c cs ih =>
    obtain ⟨hc, hcs⟩ := not_or.1 (mt List.mem_cons.2 h)
    rw [splitLast, ih hcs]
    exact if_neg (Ne.symm hc)

theorem splitLast_append {sep : Char} {right : List Char} (left : List Char) (h : sep ∉ right) :
    splitLast sep (left ++ sep :: right) = some (left, right) := by
  induction left with
  | nil =>
    rw [List.nil_append, splitLast, splitLast_eq_none h]
    exact if_pos rfl
  | cons c left ih => rw [List.cons_append, splitLast, ih]

/-- The last underscore of a name with an ending is that of the ending. -/
theorem spaceOfRecipe?_append {ending : String} (h : ending ∈ Space.endings) (stem : String) :
    spaceOfRecipe? (stem ++ ending) =
      if stem ≠ "" ∧ '\n' ∉ stem.toList then some stem else none := by
  obtain ⟨word, hending, hword, hnot⟩ := Space.exists_word_of_mem_endings h
  rw [spaceOfRecipe?, String.toList_append, hending, splitLast_append _ hnot]
  have hstem : stem.toList ≠ [] ↔ stem ≠ "" := not_congr String.toList_eq_nil_iff
  simp only [hstem, hword, ne_eq, not_false_eq_true, true_and, String.ofList_toList]

/-- A recipe with an ending is read, and written to is the public bag of the same space, or the
recipe itself if there is no such bag. -/
theorem ofDiscovery?_append {found : Discovery} {stem ending : String}
    (h : ending ∈ Space.endings) (hfound : found.recipe = some (stem ++ ending)) (host : String) :
    let recipe : Container := { kind := .recipe, name := stem ++ ending, host }
    ofDiscovery? found host = some ⟨recipe,
      if stem ≠ "" ∧ '\n' ∉ stem.toList then { kind := .bag, name := stem ++ "_public", host }
      else recipe⟩ := by
  obtain ⟨word, hending, -⟩ := Space.exists_word_of_mem_endings h
  have hname : stem ++ ending ≠ "" := by
    intro hempty
    have hlist := congrArg String.toList hempty
    rw [String.toList_append, hending] at hlist
    exact List.append_ne_nil_of_right_ne_nil _ (List.cons_ne_nil _ _) hlist
  have hfilter : found.recipe.filter (· != "") = some (stem ++ ending) := by
    rw [hfound]
    exact Option.filter_some_pos (bne_iff_ne.2 hname)
  unfold ofDiscovery? publicBag?
  simp only [hfilter, spaceOfRecipe?_append h]
  split_ifs <;> rfl

end Defaults

/-- A collection narrowed to the current space keeps the tiddlers of that space, and its filter
accepts them as before. -/
theorem Collection.mem_apply_space_iff {c : Collection} {place : Container} {t : Tiddler}
    (ht : t.space = some place.spaceName) :
    (t ∈ (c.apply (.space (some place) .current)).tiddlers ↔ t ∈ c.tiddlers) ∧
      (c.apply (.space (some place) .current)).filter.accepts t = c.filter.accepts t := by
  have haccepts : (Filter.leaf (.space place.spaceName)).accepts t = true := by
    rw [Filter.accepts_leaf]
    exact beq_iff_eq.2 ht
  constructor
  · show t ∈ c.tiddlers.filter _ ↔ _
    rw [List.mem_filter, and_iff_left haccepts]
  · show (c.filter.andThen (.leaf (.space place.spaceName))).accepts t = _
    rw [Filter.accepts_andThen, haccepts, Bool.and_true]

/-- The place that a store reads from, if it has come to know it, is that of its defaults. -/
theorem Activity.Reachable.location_eq {a : Activity} (ha : a.Reachable) {d : Defaults}
    (hd : a.store.defaults? = some d) (hplace : a.store.location.isSome) :
    a.store.location = some d.pullFrom := by
  rcases ha.placed.1.store with hnowhere | ⟨d', hd', hat⟩
  · rw [hnowhere.location] at hplace
    contradiction
  · rw [Store.defaults?, hd'] at hd
    cases hd
    exact hat.location

namespace Defaults

/-- A server that says that the client is in a recipe whose name has an ending gives defaults, on
whatever host: the recipe is read, and what is written to is of its space. Where that is a bag, what
is placed in it is in the current space of every store that has these defaults and has come to read
from somewhere. -/
theorem drafts_stay_in_space {found : Discovery} {stem ending : String}
    (hending : ending ∈ Space.endings) (hfound : found.recipe = some (stem ++ ending))
    (host : String) :
    ∃ d, Session.defaultsOf host (.ok found) = .ok d ∧
      d.pullFrom = { kind := .recipe, name := stem ++ ending, host } ∧
      d.pushTo.spaceName = d.pullFrom.spaceName ∧
      (d.pushTo.isBag ↔ stem ≠ "" ∧ '\n' ∉ stem.toList) ∧
      (d.pushTo.isBag → ∀ a : Activity, a.Reachable → a.store.defaults? = some d →
        a.store.location.isSome → ∀ (t : Tiddler) (c : Collection),
          (t.placeIn d.pushTo ∈ (c.apply (.space a.store.location .current)).tiddlers ↔
            t.placeIn d.pushTo ∈ c.tiddlers) ∧
          (c.apply (.space a.store.location .current)).filter.accepts (t.placeIn d.pushTo) =
            c.filter.accepts (t.placeIn d.pushTo)) := by
  obtain ⟨d, hd, hpull, hpush⟩ : ∃ d, ofDiscovery? found host = some d ∧
      d.pullFrom = { kind := .recipe, name := stem ++ ending, host } ∧
      d.pushTo = if stem ≠ "" ∧ '\n' ∉ stem.toList then
        { kind := .bag, name := stem ++ "_public", host } else d.pullFrom :=
    ⟨_, ofDiscovery?_append hending hfound host, rfl, rfl⟩
  have hread : d.pullFrom.spaceName = stem := by
    rw [hpull]
    exact Space.ofName_append hending stem
  have hwritten : d.pushTo.spaceName = stem := by
    rw [hpush]
    split
    · exact Space.ofName_append (by decide) stem
    · exact hread
  refine ⟨d, ?_, hpull, hwritten.trans hread.symm, ?_, fun hbag a ha hdefaults hplace t c => ?_⟩
  · rw [Session.defaultsOf, hd]
  · rw [hpush, hpull]
    split <;> simp [Container.isBag, *]
  · rw [ha.location_eq hdefaults hplace]
    apply Collection.mem_apply_space_iff
    have hplaced : (t.placeIn d.pushTo).bag = some d.pushTo := by
      rw [Tiddler.placeIn, beq_iff_eq.1 hbag]
    rw [Tiddler.space, hplaced, hread, ← hwritten]
    rfl

/-- In a private recipe, of a space with underscores in its own name, drafts go to the public bag,
and a store that has found this out finds a draft in the current space. -/
theorem draft_of_big_space :
    let found : Discovery := { recipe := some "my_big_space_private" }
    ∃ (a : Activity) (d : Defaults), "_private" ∈ Space.endings ∧
      found.recipe = some ("my_big_space" ++ "_private") ∧ a.Reachable ∧
      a.store.defaults? = some d ∧ a.store.location.isSome ∧
      d = ⟨.recipe "my_big_space_private", .bag "my_big_space_public"⟩ ∧ d.pushTo.isBag ∧
      d.pullFrom.spaceName = "my_big_space" ∧ d.pushTo.spaceName = "my_big_space" ∧
      let draft : Tiddler := Tiddler.placeIn { title := "T" } d.pushTo
      draft ∈ (Collection.apply ⟨[draft], .everything⟩
        (.space a.store.location .current)).tiddlers := by
  intro found
  let d : Defaults := ⟨.recipe "my_big_space_private", .bag "my_big_space_public"⟩
  let a₁ := (Activity.start {} ⟨0, 0⟩ none .none).call .getDefaults
  have hfirst : a₁.tasks 0 = some ⟨.getDefaults, .discovering _⟩ := rfl
  have hanswer : Session.defaultsOf "/" (.ok found) = .ok d := by decide +kernel
  have hreach : (a₁.discover 0 (.ok d)).Reachable :=
    ((Activity.Reachable.start _ _ _ _).step (Activity.step_call _ _)).step
      (Activity.step_discover hfirst hanswer)
  have hending : "_private" ∈ Space.endings := by decide
  have hfound : found.recipe = some ("my_big_space" ++ "_private") := by decide +kernel
  have hspace : d.pullFrom.spaceName = "my_big_space" := by decide +kernel
  obtain ⟨d', hd', -, hsame, -, hdrafts⟩ := drafts_stay_in_space hending hfound "/"
  obtain rfl : d' = d := Except.ok.inj (hd'.symm.trans hanswer)
  refine ⟨_, d, hending, hfound, hreach, rfl, rfl, rfl, rfl, hspace, hsame.trans hspace, ?_⟩
  exact (hdrafts rfl _ hreach rfl rfl { title := "T" } _).1.2 List.mem_cons_self

end Defaults

end TiddlerShelf
