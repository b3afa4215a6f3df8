import Mathlib.Data.List.DropRight
import TiddlerShelf.Proofs.Narrowing

/-! # What a chain of operations asks of a tiddler

Each operation asks something of a tiddler in its own words (`Operation.Admits`), or nothing. The
filter of a collection accepts those tiddlers that every operation admits since the chain began, or
since it last mapped (`accepts_after`). -/

namespace TiddlerShelf

theorem Text.occursIn_iff_isInfix {needle cs : List Char} :
    Text.occursIn needle cs = true ↔ needle <:+: cs := by
  induction cs with
  | nil => simp [occursIn]
  | cons c cs ih => simp [occursIn, ih, List.infix_cons_iff]

namespace Tiddler

/-- Whether a tiddler has an attribute that is filled, or has this value. -/
def Carries (t : Tiddler) (name : String) : Option String → Prop
  | none => ∃ a, t.attribute? name = some a ∧ a.isFilled
  | some value => ∃ a, t.attribute? name = some a ∧ a.equalsText value

/-- Whether a tiddler is of the chosen spaces, seen from a place that may be unknown. -/
def IsOfSpace (t : Tiddler) (here : Option Container) : Collection.SpaceChoice → Prop
  | .named space => t.space = some space
  | .current => ∃ place, here = some place ∧ t.space = some place.spaceName
  | .elsewhere => ∀ place, here = some place → t.space ≠ some place.spaceName

/-- Whether a tiddler was read through a recipe: the one of a name, or the place at hand. -/
def IsReadThrough (t : Tiddler) (here : Option Container) : Option String → Prop
  | some name => t.recipeName = some name
  | none => ∃ place, here = some place ∧ place.isRecipe ∧ t.recipeName = some place.name

/-- Whether a tiddler has never been synced, or was last synced before a time. -/
def IsDirty (t : Tiddler) (since : Option Instant) : Prop :=
  ∀ synced, t.lastSync = some synced → ∃ time, since = some time ∧ synced.before time

end Tiddler

namespace Collection

open Step (splitAttribute)

/-- What a step asks of a tiddler by name. -/
def NameAdmits (here : Option Container) (name : String) (argument : Option String) (t : Tiddler) :
    Prop :=
  let text := argument.getD ""
  match name with
  | "tag" => text ∈ t.tags
  | "title" => t.title = text
  | "text" => text.toList <:+: t.text.toList
  | "bag" => t.bagName = some text
  | "space" => t.IsOfSpace here (argument.elim .current .named)
  | "recipe" => t.IsReadThrough here argument
  | "dirty" => t.IsDirty (argument.bind Instant.parse?)
  | "sort" | "limit" => True
  | "attr" => t.Carries (splitAttribute text).1 (splitAttribute text).2
  | "not" => ¬ t.Carries (splitAttribute text).1 (splitAttribute text).2
  | name => t.Carries name argument

/-- What an operation asks of a tiddler. A text that cannot be read asks nothing. -/
def Operation.Admits : Operation → Tiddler → Prop
  | find s, t => ∀ f, Filter.parse s = .ok f → f.accepts t
  | findBy here name argument, t => NameAdmits here name argument t
  | tag s, t => s ∈ t.tags
  | title s, t => t.title = s
  | text part, t => part.toList <:+: t.text.toList
  | attr name value, t => t.Carries name value
  | not name value, t => ¬ t.Carries name value
  | bag name, t => t.bagName = some name
  | space here choice, t => t.IsOfSpace here choice
  | recipe here name, t => t.IsReadThrough here name
  | dirty since, t => t.IsDirty since
  | filter test, t => test t
  | sort _, _ | sortBy _, _ | limit _, _ | unique, _ | map _, _ => True

/-- Whether an operation makes new tiddlers. -/
def Operation.isMap : Operation → Bool
  | map _ => true
  | _ => false

/-- Whether a step makes new tiddlers. -/
def Step.isMap : Step → Bool
  | map _ => true
  | _ => false

/-- What a step asks of a tiddler, in the words of filters. -/
def Step.admits : Step → Tiddler → Bool
  | narrow condition, t => condition.accepts t
  | _, _ => true

namespace Step

variable {t : Tiddler}

theorem admits_passing (test : Tiddler → Bool) : (passing test).admits t = test t :=
  Filter.accepts_predicate test t

theorem admits_condition (l : Leaf) : (condition l).admits t = l.accepts t :=
  Filter.accepts_leaf l t

theorem admits_tag (tag : String) : (condition (.tag tag)).admits t ↔ tag ∈ t.tags := by
  rw [admits_condition, Leaf.accepts, List.contains_iff_mem]

theorem admits_title (title : String) : (condition (.title title)).admits t ↔ t.title = title := by
  rw [admits_condition, Leaf.accepts, beq_iff_eq]

theorem admits_text (part : String) :
    (condition (.text part)).admits t ↔ part.toList <:+: t.text.toList := by
  rw [admits_condition, Leaf.accepts, Text.occursIn_iff_isInfix]

theorem admits_having (name : String) (value : Option String) :
    (having name value).admits t ↔ t.Carries name value := by
  cases value with
  | none =>
    rw [having, admits_passing, Tiddler.hasAttribute, Option.any_eq_true]
    rfl
  | some value =>
    rw [having, admits_condition, Leaf.accepts, bne_iff_ne, ne_eq, Bool.not_eq_false,
      Option.any_eq_true]
    rfl

theorem admits_lacking (name : String) (value : Option String) :
    (lacking name value).admits t ↔ ¬ t.Carries name value := by
  rw [← admits_having]
  cases value with
  | none => simp [lacking, having, admits_passing]
  | some value => simp [lacking, having, admits_condition, Leaf.accepts]

theorem admits_bag (name : String) : (bag name).admits t ↔ t.bagName = some name := by
  rw [bag, admits_passing, beq_iff_eq]

theorem admits_space (here : Option Container) (choice : SpaceChoice) :
    (space here choice).admits t ↔ t.IsOfSpace here choice := by
  cases choice with
  | named space => simp [Step.space, admits_condition, Leaf.accepts, Tiddler.IsOfSpace]
  | current =>
    cases here with
    | none => simp [Step.space, admits_passing, Tiddler.IsOfSpace]
    | some place => simp [Step.space, admits_condition, Leaf.accepts, Tiddler.IsOfSpace]
  | elsewhere =>
    cases here with
    | none => simp [Step.space, admits, Filter.everything, Tiddler.IsOfSpace]
    | some place => simp [Step.space, admits, Leaf.accepts, Tiddler.IsOfSpace]

theorem admits_recipe (here : Option Container) (name : Option String) :
    (recipe here name).admits t ↔ t.IsReadThrough here name := by
  rw [recipe, admits_passing, Option.any_eq_true]
  cases name with
  | some name => simp [Tiddler.IsReadThrough]
  | none =>
    cases here with
    | none => simp [Tiddler.IsReadThrough]
    | some place => simp [Tiddler.IsReadThrough, Option.filter_some]

theorem admits_dirty (since : Option Instant) :
    (dirty since).admits t ↔ t.IsDirty since := by
  rw [dirty, admits_passing, Tiddler.IsDirty]
  cases t.lastSync with
  | none => simp
  | some synced => simp [Option.any_eq_true]

theorem admits_named (here : Option Container) (name : String) (argument : Option String) :
    (named here name argument).admits t ↔ NameAdmits here name argument t := by
  unfold named NameAdmits
  dsimp only
  split
  · exact admits_tag _
  · exact admits_title _
  · exact admits_text _
  · exact admits_bag _
  · refine (admits_space _ _).trans ?_
    cases argument <;> rfl
  · exact admits_recipe _ _
  · exact admits_dirty _
  · exact iff_of_true rfl trivial
  · exact iff_of_true rfl trivial
  · exact admits_having _ _
  · exact admits_lacking _ _
  · -- the name is none of those above
    refine (admits_having _ _).trans ?_
    simp_all

end Step

/-- What an operation asks of a tiddler is what its step asks. -/
theorem Operation.admits_step {op : Operation} {s : Step} (hs : op.step? = .ok s) (t : Tiddler) :
    s.admits t ↔ op.Admits t := by
  cases op with
  | find text =>
    cases hparse : Filter.parse text with
    | error e => simp [step?, Step.find?, hparse, Except.map] at hs
    | ok f =>
      simp only [step?, Step.find?, hparse, Except.map, Except.ok.injEq] at hs
      subst hs
      simp [Step.admits, Admits, hparse]
  | findBy here name argument => exact Except.ok.inj hs ▸ Step.admits_named here name argument
  | tag tag => exact Except.ok.inj hs ▸ Step.admits_tag tag
  | title title => exact Except.ok.inj hs ▸ Step.admits_title title
  | text part => exact Except.ok.inj hs ▸ Step.admits_text part
  | attr name value => exact Except.ok.inj hs ▸ Step.admits_having name value
  | not name value => exact Except.ok.inj hs ▸ Step.admits_lacking name value
  | bag name => exact Except.ok.inj hs ▸ Step.admits_bag name
  | space here choice => exact Except.ok.inj hs ▸ Step.admits_space here choice
  | recipe here name => exact Except.ok.inj hs ▸ Step.admits_recipe here name
  | dirty since => exact Except.ok.inj hs ▸ Step.admits_dirty since
  | filter test => exact Except.ok.inj hs ▸ (Step.admits_passing test ▸ Iff.rfl)
  | sort _ | sortBy _ | limit _ | unique | map _ =>
    exact Except.ok.inj hs ▸ iff_of_true rfl trivial

theorem Operation.isMap_step {op : Operation} {s : Step} (hs : op.step? = .ok s) :
    s.isMap = op.isMap := by
  by_cases h : op.IsNarrowing
  · obtain ⟨condition, rfl⟩ := h.narrows hs
    cases op <;> first | rfl | exact h.elim
  · cases op with
    | findBy here name argument =>
      by_cases hsort : name = "sort"
      · subst hsort
        exact Except.ok.inj hs ▸ rfl
      · by_cases hlimit : name = "limit"
        · subst hlimit
          exact Except.ok.inj hs ▸ rfl
        · exact absurd ⟨hsort, hlimit⟩ h
    | sort _ | sortBy _ | limit _ | unique | map _ => exact Except.ok.inj hs ▸ rfl
    | _ => exact absurd trivial h

/-- A text that cannot be read is the only thing that takes no step, and asks nothing. -/
theorem Operation.admits_of_error {op : Operation} {e : Filter.ParseError}
    (hs : op.step? = .error e) (t : Tiddler) : op.Admits t := by
  cases op with
  | find text =>
    intro f hf
    simp [step?, Step.find?, hf, Except.map] at hs
  | _ => cases hs

/-! ## A whole chain -/

/-- Whether a tiddler is one that all operations of a chain admit since the last that mapped. -/
def MeetsAll (ops : List Operation) (t : Tiddler) : Prop :=
  ∀ op ∈ ops.rtakeWhile (!·.isMap), op.Admits t

theorem meetsAll_concat (ops : List Operation) (op : Operation) (t : Tiddler) :
    MeetsAll (ops ++ [op]) t ↔ op.isMap ∨ (MeetsAll ops t ∧ op.Admits t) := by
  unfold MeetsAll
  cases hmap : op.isMap with
  | true =>
    rw [List.rtakeWhile_concat_neg _ _ _ (by simp [hmap])]
    simp
  | false =>
    rw [List.rtakeWhile_concat_pos _ _ _ (by simp [hmap]), List.forall_mem_append,
      List.forall_mem_singleton]
    simp

/-- A chain with one operation more goes on from where the chain has led. -/
theorem after_concat (c : Collection) (ops : List Operation) (op : Operation) :
    c.after (ops ++ [op]) = match op.step? with
      | .error _ => c.after ops
      | .ok s => (c.after ops).apply s := by
  induction ops generalizing c with
  | nil => exact after_cons c op []
  | cons op' ops ih =>
    rw [List.cons_append, after_cons, after_cons]
    cases op'.step? <;> exact ih _

/-- A step that maps starts a new filter, and any other adds what it asks. -/
theorem accepts_onFilter (s : Step) (f : Filter) (t : Tiddler) :
    (s.onFilter f).accepts t ↔ s.isMap ∨ (f.accepts t ∧ s.admits t) := by
  cases s <;> simp [Step.onFilter, Step.isMap, Step.admits, Filter.accepts_andThen,
    Filter.everything]

/-- The filter of a collection accepts what all operations admit since the last that mapped. -/
theorem accepts_after (ts : List Tiddler) (ops : List Operation) (t : Tiddler) :
    (after ⟨ts, .everything⟩ ops).filter.accepts t ↔ MeetsAll ops t := by
  induction ops using List.reverseRecOn with
  | nil => exact iff_of_true (Filter.accepts_all [] t) (List.forall_mem_nil _)
  | append_singleton ops op ih =>
    rw [after_concat, meetsAll_concat, ← ih]
    cases hs : op.step? with
    | error e =>
      have hadmits := op.admits_of_error hs t
      have hmap : op.isMap = false := by cases op <;> first | rfl | cases hs
      simp [hadmits, hmap]
    | ok s =>
      rw [← op.admits_step hs t, ← op.isMap_step hs]
      exact accepts_onFilter s _ t

end Collection

end TiddlerShelf
