import TiddlerShelf.Collection.Named
import TiddlerShelf.Fixtures

/-! # Chains of collections

A collection carries the rows that are left and the filter that is to say why they are. The two are
worked out apart from each other: each operation tests the rows by its own condition alone, and adds
the condition to the filter on the side. They agree after every chain of operations, and where all
operations narrow, the filter alone tells the rows (`rows_accepted_by_filter`). -/

namespace TiddlerShelf.Collection

/-- What a client can ask of a collection. Those that depend on the place that the store reads from
come with the place, if it is known by then. -/
inductive Operation
  | find (text : String)
  | findBy (here : Option Container) (name : String) (argument : Option String)
  | tag (tag : String)
  | title (title : String)
  | text (part : String)
  | attr (name : String) (value : Option String)
  | not (name : String) (value : Option String)
  | bag (name : String)
  | space (here : Option Container) (choice : SpaceChoice)
  | recipe (here : Option Container) (name : Option String)
  | dirty (since : Option Instant)
  | filter (test : Tiddler → Bool)
  | sort (order : String)
  | sortBy (order : Tiddler → Tiddler → Ordering)
  | limit (count : Nat)
  | unique
  | map (f : Tiddler → Tiddler)

namespace Operation

/-- The step that an operation takes, if its text can be read. -/
def step? : Operation → Except Filter.ParseError Step
  | find s => Step.find? s
  | findBy here name argument => .ok (.named here name argument)
  | tag s => .ok (.condition (.tag s))
  | title s => .ok (.condition (.title s))
  | text part => .ok (.condition (.text part))
  | attr name value => .ok (.having name value)
  | not name value => .ok (.lacking name value)
  | bag name => .ok (.bag name)
  | space here choice => .ok (.space here choice)
  | recipe here name => .ok (.recipe here name)
  | dirty since => .ok (.dirty since)
  | filter test => .ok (.passing test)
  | sort order => .ok (.sort order)
  | sortBy order => .ok (.sortBy order)
  | limit count => .ok (.limit (some count))
  | unique => .ok .unique
  | map f => .ok (.map f)

/-- Whether an operation narrows a collection by a condition and does nothing else to it. -/
def IsNarrowing : Operation → Prop
  | findBy _ name _ => name ≠ "sort" ∧ name ≠ "limit"
  | sort _ | sortBy _ | limit _ | unique | map _ => False
  | _ => True

end Operation

namespace Step

/-- Whether a step keeps the rows that meet some condition. -/
def Narrows (s : Step) : Prop := ∃ condition, s = narrow condition

variable (here : Option Container) (name : String)

theorem narrows_condition (l : Leaf) : (condition l).Narrows := ⟨.leaf l, rfl⟩

theorem narrows_passing (test : Tiddler → Bool) : (passing test).Narrows := ⟨.predicate test, rfl⟩

theorem narrows_having (value : Option String) : (having name value).Narrows := by
  cases value with
  | none => exact narrows_passing _
  | some value => exact narrows_condition _

theorem narrows_lacking (value : Option String) : (lacking name value).Narrows := by
  cases value with
  | none => exact narrows_passing _
  | some value => exact narrows_condition _

theorem narrows_space (choice : SpaceChoice) : (space here choice).Narrows := by
  cases choice with
  | named space => exact narrows_condition _
  | current =>
    cases here with
    | none => exact narrows_passing _
    | some place => exact narrows_condition _
  | elsewhere =>
    cases here with
    | none => exact ⟨.everything, rfl⟩
    | some place => exact ⟨.not (.leaf (.space place.spaceName)), rfl⟩

/-- All names narrow but the two that put in order and cut short. -/
theorem narrows_named (argument : Option String) (hsort : name ≠ "sort") (hlimit : name ≠ "limit") :
    (named here name argument).Narrows := by
  unfold named
  split
  case h_8 => contradiction
  case h_9 => contradiction
  case h_4 | h_6 | h_7 => exact narrows_passing _
  case h_5 => exact narrows_space _ _
  case h_10 | h_12 => exact narrows_having _ _
  case h_11 => exact narrows_lacking _ _
  all_goals exact narrows_condition _

end Step

/-- A narrowing operation whose text can be read narrows. -/
theorem Operation.IsNarrowing.narrows {op : Operation} {s : Step} (h : op.IsNarrowing)
    (hs : op.step? = .ok s) : s.Narrows := by
  cases op with
  | find text =>
    cases hparse : Filter.parse text with
    | error e => simp [step?, Step.find?, hparse, Except.map] at hs
    | ok f =>
      simp only [step?, Step.find?, hparse, Except.map, Except.ok.injEq] at hs
      exact ⟨f, hs.symm⟩
  | findBy here name argument =>
    exact Except.ok.inj hs ▸ Step.narrows_named here name argument h.1 h.2
  | attr name value => exact Except.ok.inj hs ▸ Step.narrows_having name value
  | not name value => exact Except.ok.inj hs ▸ Step.narrows_lacking name value
  | space here choice => exact Except.ok.inj hs ▸ Step.narrows_space here choice
  | tag _ | title _ | text _ => exact Except.ok.inj hs ▸ Step.narrows_condition _
  | bag _ | recipe _ _ | dirty _ | filter _ => exact Except.ok.inj hs ▸ Step.narrows_passing _
  | sort _ | sortBy _ | limit _ | unique | map _ => exact h.elim

/-! ## One step -/

/-- The best copies are among the tiddlers that they are chosen from. -/
theorem mem_of_mem_bestCopies {ts : List Tiddler} {t : Tiddler} (h : t ∈ (bestCopies ts).values) :
    t ∈ ts := by
  obtain ⟨title, hget⟩ := Keyed.mem_values_iff.1 h
  refine List.foldlRecOn (motive := fun seen : Keyed String Tiddler =>
    ∀ title u, seen.get? title = some u → u ∈ ts) ts _ (by simp) ?_ title t hget
  intro seen hseen u hu title v hv
  have hinsert : (seen.insert u.title u).get? title = some v → v ∈ ts := by
    rw [Keyed.get?_insert]
    split
    · exact fun h => Option.some.inj h ▸ hu
    · exact hseen title v
  split at hv
  · exact hinsert hv
  · split at hv
    · exact hinsert hv
    · exact hseen title v hv

/-- Whether the filter accepts every row. -/
def Agrees (c : Collection) : Prop := ∀ t ∈ c.tiddlers, c.filter.accepts t

/-- A step that starts no new filter leaves rows that the filter accepts. -/
theorem Agrees.apply {c : Collection} (h : c.Agrees) (s : Step) : (c.apply s).Agrees := by
  intro t ht
  rw [tiddlers_apply] at ht
  rw [filter_apply]
  cases s with
  | narrow condition =>
    obtain ⟨hmem, hcondition⟩ := List.mem_filter.1 ht
    rw [Step.onFilter, Filter.accepts_andThen, h t hmem, hcondition]
    rfl
  | sortBy order => exact h t (List.mem_mergeSort.1 ht)
  | limit count =>
    cases count with
    | none => exact h t ht
    | some count => exact h t (List.mem_of_mem_take ht)
  | unique => exact h t (mem_of_mem_bestCopies ht)
  | map f => exact Filter.accepts_all [] t

/-- Narrowing keeps what the longer filter accepts, in order. -/
theorem tiddlers_apply_narrow {ts : List Tiddler} {c : Collection} (condition : Filter)
    (h : c.tiddlers = ts.filter c.filter.accepts) :
    (c.apply (.narrow condition)).tiddlers =
      ts.filter (c.apply (.narrow condition)).filter.accepts := by
  rw [tiddlers_apply, filter_apply, Step.onList, Step.onFilter, h, List.filter_filter]
  refine List.filter_congr fun t _ => ?_
  rw [Filter.accepts_andThen, Bool.and_comm]

/-! ## A whole chain -/

/-- The collection that operations lead to. One whose text cannot be read leads nowhere, and the
client goes on with the collection at hand. -/
def after (c : Collection) (ops : List Operation) : Collection :=
  (c.trace (ops.map Operation.step?)).2

/-- A chain goes on from where its first operation leads. -/
theorem after_cons (c : Collection) (op : Operation) (ops : List Operation) :
    c.after (op :: ops) = match op.step? with
      | .error _ => c.after ops
      | .ok s => (c.apply s).after ops := by
  rw [after, List.map_cons]
  cases op.step? <;> rfl

/-- What each step keeps, the whole chain keeps. -/
theorem after_induction {P : Collection → Prop} {ops : List Operation}
    (hstep : ∀ op ∈ ops, ∀ s, op.step? = .ok s → ∀ c, P c → P (c.apply s)) (c : Collection)
    (h : P c) : P (c.after ops) := by
  induction ops generalizing c with
  | nil => exact h
  | cons op ops ih =>
    have hrest := ih fun op' hop => hstep op' (List.mem_cons_of_mem _ hop)
    rw [after_cons]
    cases hs : op.step? with
    | error e => exact hrest c h
    | ok s => exact hrest _ (hstep op List.mem_cons_self s hs c h)

/-- The filter of a collection accepts each of its rows, whatever operations have led to it from a
list of tiddlers. If they all narrow, the rows are what it accepts of the list, in order. -/
theorem rows_accepted_by_filter (ts : List Tiddler) (ops : List Operation) :
    (∀ t ∈ (after ⟨ts, .everything⟩ ops).tiddlers,
      (after ⟨ts, .everything⟩ ops).filter.accepts t) ∧
    ((∀ op ∈ ops, op.IsNarrowing) →
      (after ⟨ts, .everything⟩ ops).tiddlers =
        ts.filter (after ⟨ts, .everything⟩ ops).filter.accepts) := by
  have heverything (t : Tiddler) : Filter.everything.accepts t = true := Filter.accepts_all [] t
  constructor
  · exact after_induction (P := Agrees) (fun _ _ s _ _ h => h.apply s) _ fun t _ => heverything t
  · intro hops
    refine after_induction (P := fun c => c.tiddlers = ts.filter c.filter.accepts) ?_ _ ?_
    · intro op hop s hs c hc
      obtain ⟨condition, rfl⟩ := (hops op hop).narrows hs
      exact tiddlers_apply_narrow condition hc
    · exact (List.filter_eq_self.2 fun t _ => heverything t).symm

/-- A chain that looks for cats without a cake elsewhere. -/
def catsWithoutCake : List Operation := [.tag "cat", .not "cake" none, .space none .elsewhere]

/-- Of the fixtures only `Bar` is left, as the filter says. -/
theorem rows_of_cats_without_cake :
    (∀ op ∈ catsWithoutCake, op.IsNarrowing) ∧
      (after ⟨Fixtures.tiddlers, .everything⟩ catsWithoutCake).titles = ["Bar"] ∧
      (after ⟨Fixtures.tiddlers, .everything⟩ catsWithoutCake).tiddlers =
        Fixtures.tiddlers.filter
          (after ⟨Fixtures.tiddlers, .everything⟩ catsWithoutCake).filter.accepts := by
  have hnarrowing : ∀ op ∈ catsWithoutCake, op.IsNarrowing := by
    simp [catsWithoutCake, Operation.IsNarrowing]
  exact ⟨hnarrowing, by decide, (rows_accepted_by_filter Fixtures.tiddlers _).2 hnarrowing⟩

end TiddlerShelf.Collection
