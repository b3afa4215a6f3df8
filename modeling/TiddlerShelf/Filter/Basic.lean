import TiddlerShelf.Text.Cut
import TiddlerShelf.Tiddler.Attribute

/-!
# Filters

A filter is a tree of conditions on one tiddler. `accepts` gives its meaning. `andThen` narrows a
filter by one more condition: `accepts_andThen` says that the result accepts what both accept.
-/

namespace TiddlerShelf

/-- A condition on one aspect of a tiddler. -/
inductive Leaf
  | title (title : String)
  | tag (tag : String)
  | field (name value : String) (negated : Bool)
  | space (space : String)
  | modifier (modifier : String)
  | text (part : String)
deriving DecidableEq

namespace Leaf

/-- Whether a tiddler meets the condition. A negated field also accepts tiddlers without the
attribute. -/
def accepts : Leaf → Tiddler → Bool
  | title s, t => t.title == s
  | tag s, t => t.tags.contains s
  | field name value negated, t => (t.attribute? name).any (·.equalsText value) != negated
  | space s, t => t.space == some s
  | modifier s, t => t.modifier == some s
  | text part, t => Text.occursIn part.toList t.text.toList

end Leaf

/-- A tree of conditions. -/
inductive Filter
  | all (parts : List Filter)
  | any (parts : List Filter)
  | not (part : Filter)
  | predicate (test : Tiddler → Bool)
  | leaf (condition : Leaf)

namespace Filter

mutual

/-- Whether the filter accepts a tiddler. -/
def accepts : Filter → Tiddler → Bool
  | all parts, t => allAccept parts t
  | any parts, t => anyAccepts parts t
  | not part, t => !part.accepts t
  | predicate test, t => test t
  | leaf condition, t => condition.accepts t

/-- Whether every filter of a list accepts a tiddler. -/
def allAccept : List Filter → Tiddler → Bool
  | [], _ => true
  | part :: parts, t => part.accepts t && allAccept parts t

/-- Whether some filter of a list accepts a tiddler. -/
def anyAccepts : List Filter → Tiddler → Bool
  | [], _ => false
  | part :: parts, t => part.accepts t || anyAccepts parts t

end

theorem allAccept_eq (parts : List Filter) (t : Tiddler) :
    allAccept parts t = parts.all (·.accepts t) := by
  induction parts with
  | nil => rfl
  | cons part parts ih => simp [allAccept, ih]

theorem anyAccepts_eq (parts : List Filter) (t : Tiddler) :
    anyAccepts parts t = parts.any (·.accepts t) := by
  induction parts with
  | nil => rfl
  | cons part parts ih => simp [anyAccepts, ih]

@[simp] theorem accepts_all (parts : List Filter) (t : Tiddler) :
    (all parts).accepts t = parts.all (·.accepts t) := by
  simp [accepts, allAccept_eq]

@[simp] theorem accepts_any (parts : List Filter) (t : Tiddler) :
    (any parts).accepts t = parts.any (·.accepts t) := by
  simp [accepts, anyAccepts_eq]

@[simp] theorem accepts_not (part : Filter) (t : Tiddler) :
    (not part).accepts t = !part.accepts t := by
  simp [accepts]

@[simp] theorem accepts_predicate (test : Tiddler → Bool) (t : Tiddler) :
    (predicate test).accepts t = test t := by
  simp [accepts]

@[simp] theorem accepts_leaf (condition : Leaf) (t : Tiddler) :
    (leaf condition).accepts t = condition.accepts t := by
  simp [accepts]

/-- The filter that accepts every tiddler: no condition at all. -/
def everything : Filter := all []

/-- Whether the filter is the empty conjunction. -/
def isEverything : Filter → Bool
  | all [] => true
  | _ => false

/-- Narrows a filter by one more condition, which a conjunction takes as its last part. -/
def andThen (f part : Filter) : Filter :=
  match f with
  | all parts => all (parts ++ [part])
  | f => all [f, part]

/-- Narrowing by a filter accepts what both filters accept. -/
theorem accepts_andThen (f part : Filter) (t : Tiddler) :
    (f.andThen part).accepts t = (f.accepts t && part.accepts t) := by
  cases f <;> simp [andThen]

/-- Negates a filter a number of times. -/
def negated (times : Nat) (f : Filter) : Filter :=
  match times with
  | 0 => f
  | n + 1 => not (negated n f)

mutual

/-- Whether two filters are built alike. Predicates have no parts to compare and are never alike. -/
def alike : Filter → Filter → Bool
  | all fs, all gs => allAlike fs gs
  | any fs, any gs => allAlike fs gs
  | not f, not g => f.alike g
  | leaf c, leaf d => c == d
  | _, _ => false

/-- Whether two lists of filters are alike member by member. -/
def allAlike : List Filter → List Filter → Bool
  | [], [] => true
  | f :: fs, g :: gs => f.alike g && allAlike fs gs
  | _, _ => false

end

end Filter

end TiddlerShelf
