import TiddlerShelf.Proofs.SortKeys

/-! # Sorting by attributes

Whatever the sort keys are, and whatever values the tiddlers have under them, comparing by the keys
is a total preorder. So sorting is a matter of the keys alone: each row stands before those that the
first key in which they differ puts after it, rows that no key tells apart stay in their order, and
sorting again changes nothing (`rows_sorted_by_keys`). -/

namespace TiddlerShelf

namespace Attribute

open Text

/-- Whether a value goes before another. Numbers go before texts and texts before lists, and case
makes no difference. -/
inductive Precedes : Attribute → Attribute → Prop
  | number {m n : Nat} (h : m < n) : Precedes (number m) (number n)
  | numberText (n : Nat) (s : String) : Precedes (number n) (text s)
  | numberList (n : Nat) (items : List String) : Precedes (number n) (list items)
  | text {s t : String} (h : lowerCase s < lowerCase t) : Precedes (text s) (text t)
  | textList (s : String) (items : List String) : Precedes (text s) (list items)
  | list {xs ys : List String} (h : xs.map lowerCase < ys.map lowerCase) :
    Precedes (list xs) (list ys)

/-- Whether a value that may be missing goes before another: a missing one goes before any that is
not. -/
inductive PrecedesOptional : Option Attribute → Option Attribute → Prop
  | missing (b : Attribute) : PrecedesOptional none (some b)
  | filled {a b : Attribute} (h : a.Precedes b) : PrecedesOptional (some a) (some b)

/-- Whether two values differ in case at most. -/
inductive SameButCase : Attribute → Attribute → Prop
  | number (n : Nat) : SameButCase (number n) (number n)
  | text {s t : String} (h : lowerCase s = lowerCase t) : SameButCase (text s) (text t)
  | list {xs ys : List String} (h : xs.map lowerCase = ys.map lowerCase) :
    SameButCase (list xs) (list ys)

/-- Whether two values that may be missing both are, or differ in case at most. -/
inductive TiesOptional : Option Attribute → Option Attribute → Prop
  | missing : TiesOptional none none
  | filled {a b : Attribute} (h : a.SameButCase b) : TiesOptional (some a) (some b)

/-! ## Comparing values -/

instance : Std.OrientedCmp order where
  eq_swap {a b} := by
    cases a <;> cases b
    case number.number => exact Std.OrientedOrd.eq_swap
    case text.text => exact Std.OrientedOrd.eq_swap
    case list.list xs ys => exact @Std.OrientedCmp.eq_swap _ (List.compareLex compare) _ xs ys
    all_goals rfl

instance : Std.TransCmp order where
  isLE_trans {a b c} hab hbc := by
    cases a <;> cases b <;> cases c
    case number.number.number => exact Std.TransOrd.isLE_trans hab hbc
    case text.text.text => exact Std.TransOrd.isLE_trans hab hbc
    case list.list.list xs ys zs =>
      exact @Std.TransCmp.isLE_trans _ (List.compareLex compare) _ xs ys zs hab hbc
    -- Not all three are of one kind, and the kinds decide.
    all_goals first | rfl | contradiction

theorem order_eq_eq_iff {a b : Attribute} : order a b = .eq ↔ a = b := by
  constructor
  · intro h
    cases a <;> cases b
    case number.number => exact congrArg number (Std.LawfulEqOrd.eq_of_compare h)
    case text.text => exact congrArg text (Std.LawfulEqOrd.eq_of_compare h)
    case list.list xs ys =>
      exact congrArg list (@Std.LawfulEqCmp.eq_of_compare _ (List.compareLex compare) _ xs ys h)
    all_goals contradiction
  · rintro rfl
    exact Std.ReflCmp.compare_self

theorem compare_text_eq_lt_iff {s t : String} : compare s t = .lt ↔ s < t := by
  show compareOfLessAndEq s t = .lt ↔ s < t
  unfold compareOfLessAndEq
  by_cases hlt : s < t
  · simp [hlt]
  · by_cases heq : s = t <;> simp [hlt, heq]

/-- Comparing item by item is the order of lists. -/
theorem compareLex_eq_lt_iff {xs ys : List String} :
    List.compareLex compare xs ys = .lt ↔ xs < ys := by
  induction xs generalizing ys with
  | nil => cases ys <;> simp [List.compareLex]
  | cons x xs ih =>
    cases ys with
    | nil => simp [List.compareLex]
    | cons y ys =>
      simp [List.compareLex_cons_cons, List.cons_lt_cons_iff, Ordering.then_eq_lt, ih,
        compare_text_eq_lt_iff]

theorem order_folded_eq_lt_iff {a b : Attribute} :
    order a.folded b.folded = .lt ↔ a.Precedes b := by
  constructor
  · intro h
    cases a <;> cases b
    case number.number => exact .number (Nat.compare_eq_lt.1 h)
    case number.text => exact .numberText _ _
    case number.list => exact .numberList _ _
    case text.text => exact .text (compare_text_eq_lt_iff.1 h)
    case text.list => exact .textList _ _
    case list.list => exact .list (compareLex_eq_lt_iff.1 h)
    all_goals contradiction
  · rintro (h | _ | _ | h | _ | h)
    · exact Nat.compare_eq_lt.2 h
    · rfl
    · rfl
    · exact compare_text_eq_lt_iff.2 h
    · rfl
    · exact compareLex_eq_lt_iff.2 h

theorem folded_eq_iff {a b : Attribute} : a.folded = b.folded ↔ a.SameButCase b := by
  constructor
  · intro h
    cases a <;> cases b
    case number.number => exact number.inj h ▸ .number _
    case text.text => exact .text (text.inj h)
    case list.list => exact .list (list.inj h)
    all_goals contradiction
  · rintro (_ | h | h)
    · rfl
    · exact congrArg text h
    · exact congrArg list h

/-! ## Comparing values that may be missing -/

instance : Std.OrientedCmp orderOptional where
  eq_swap {a b} := by
    cases a <;> cases b
    case some.some a b => exact @Std.OrientedCmp.eq_swap _ order _ a.folded b.folded
    all_goals rfl

instance : Std.TransCmp orderOptional where
  isLE_trans {a b c} hab hbc := by
    cases a <;> cases b <;> cases c
    case some.some.some a b c =>
      exact @Std.TransCmp.isLE_trans _ order _ a.folded b.folded c.folded hab hbc
    all_goals first | rfl | contradiction

theorem orderOptional_eq_eq_iff {a b : Option Attribute} :
    orderOptional a b = .eq ↔ TiesOptional a b := by
  constructor
  · intro h
    cases a <;> cases b
    case none.none => exact .missing
    case some.some => exact .filled (folded_eq_iff.1 (order_eq_eq_iff.1 h))
    all_goals contradiction
  · rintro (_ | h)
    · rfl
    · exact order_eq_eq_iff.2 (folded_eq_iff.2 h)

theorem orderOptional_eq_lt_iff {a b : Option Attribute} :
    orderOptional a b = .lt ↔ PrecedesOptional a b := by
  constructor
  · intro h
    cases a <;> cases b
    case none.some => exact .missing _
    case some.some => exact .filled (order_folded_eq_lt_iff.1 h)
    all_goals contradiction
  · rintro (_ | h)
    · rfl
    · exact order_folded_eq_lt_iff.2 h

end Attribute

namespace Collection

namespace SortKey

variable {key : SortKey} {keys : List SortKey} {s t : Tiddler}

/-- Whether a key does not tell two tiddlers apart: the values differ in case at most, or both are
missing. -/
def Ties (key : SortKey) (s t : Tiddler) : Prop :=
  ∃ a b, s.SortsBy key.name a ∧ t.SortsBy key.name b ∧ Attribute.TiesOptional a b

/-- Whether a key puts a tiddler before another. A value that is missing or empty goes first if the
key ascends and last if it descends. -/
inductive Precedes (key : SortKey) (s t : Tiddler) : Prop
  | ascending {a b : Option Attribute} (hkey : key.descending = false)
    (hs : s.SortsBy key.name a) (ht : t.SortsBy key.name b) (h : Attribute.PrecedesOptional a b)
  | descending {a b : Option Attribute} (hkey : key.descending = true)
    (hs : s.SortsBy key.name a) (ht : t.SortsBy key.name b) (h : Attribute.PrecedesOptional b a)

/-- Whether two tiddlers may stand one before the other: the first key that tells them apart puts
them so, or none does. -/
inductive InOrder : List SortKey → Tiddler → Tiddler → Prop
  | tied (s t : Tiddler) : InOrder [] s t
  | decided {key : SortKey} (keys : List SortKey) {s t : Tiddler} (h : key.Precedes s t) :
    InOrder (key :: keys) s t
  | next {key : SortKey} {keys : List SortKey} {s t : Tiddler} (htie : key.Ties s t)
    (hrest : InOrder keys s t) : InOrder (key :: keys) s t

/-- Turning a comparison around is comparing the other way round. -/
theorem compare_eq (key : SortKey) (s t : Tiddler) :
    key.compare s t =
      if key.descending then Attribute.orderOptional (key.value? t) (key.value? s)
      else Attribute.orderOptional (key.value? s) (key.value? t) := by
  unfold SortKey.compare
  dsimp only
  rw [← @Std.OrientedCmp.eq_swap _ Attribute.orderOptional]

instance (key : SortKey) : Std.OrientedCmp key.compare where
  eq_swap {s t} := by
    rw [compare_eq, compare_eq]
    split <;> exact @Std.OrientedCmp.eq_swap _ Attribute.orderOptional _ _ _

instance (key : SortKey) : Std.TransCmp key.compare where
  isLE_trans {s t u} hst htu := by
    rw [compare_eq] at hst htu ⊢
    cases hdescending : key.descending with
    | false =>
      simp only [hdescending, Bool.false_eq_true, if_false] at hst htu ⊢
      exact Std.TransCmp.isLE_trans hst htu
    | true =>
      simp only [hdescending, if_true] at hst htu ⊢
      exact Std.TransCmp.isLE_trans htu hst

theorem ties_iff : key.Ties s t ↔ Attribute.TiesOptional (key.value? s) (key.value? t) := by
  constructor
  · rintro ⟨a, b, hs, ht, h⟩
    rw [Tiddler.sortsBy_iff.1 hs, Tiddler.sortsBy_iff.1 ht]
    exact h
  · intro h
    exact ⟨_, _, s.sortsBy_value? key, t.sortsBy_value? key, h⟩

theorem compare_eq_eq_iff : key.compare s t = .eq ↔ key.Ties s t := by
  rw [compare_eq, ties_iff]
  split
  · rw [← Attribute.orderOptional_eq_eq_iff]
    exact ⟨Std.OrientedCmp.eq_symm, Std.OrientedCmp.eq_symm⟩
  · exact Attribute.orderOptional_eq_eq_iff

instance : Decidable (key.Ties s t) := decidable_of_iff _ compare_eq_eq_iff

theorem compare_eq_lt_iff : key.compare s t = .lt ↔ key.Precedes s t := by
  rw [compare_eq]
  constructor
  · intro h
    cases hkey : key.descending with
    | false =>
      rw [hkey, if_neg Bool.false_ne_true] at h
      exact .ascending hkey (s.sortsBy_value? key) (t.sortsBy_value? key)
        (Attribute.orderOptional_eq_lt_iff.1 h)
    | true =>
      rw [hkey, if_pos rfl] at h
      exact .descending hkey (s.sortsBy_value? key) (t.sortsBy_value? key)
        (Attribute.orderOptional_eq_lt_iff.1 h)
  · rintro (⟨hkey, hs, ht, h⟩ | ⟨hkey, hs, ht, h⟩)
    · rw [hkey, if_neg Bool.false_ne_true, Tiddler.sortsBy_iff.1 hs, Tiddler.sortsBy_iff.1 ht]
      exact Attribute.orderOptional_eq_lt_iff.2 h
    · rw [hkey, if_pos rfl, Tiddler.sortsBy_iff.1 hs, Tiddler.sortsBy_iff.1 ht]
      exact Attribute.orderOptional_eq_lt_iff.2 h

/-! ## Comparing by several keys -/

theorem compareAll_cons (key : SortKey) (keys : List SortKey) :
    compareAll (key :: keys) = compareLex key.compare (compareAll keys) := rfl

instance (keys : List SortKey) : Std.TransCmp (compareAll keys) := by
  induction keys with
  | nil => exact { eq_swap := rfl, isLE_trans := fun _ _ => rfl }
  | cons key keys ih =>
    rw [compareAll_cons]
    infer_instance

theorem compareAll_eq_eq_iff : compareAll keys s t = .eq ↔ ∀ key ∈ keys, key.Ties s t := by
  induction keys with
  | nil => simp [compareAll]
  | cons key keys ih =>
    rw [compareAll_cons, compareLex_eq_eq, compare_eq_eq_iff, ih, List.forall_mem_cons]

theorem isLE_compareAll_iff : (compareAll keys s t).isLE ↔ InOrder keys s t := by
  induction keys with
  | nil => exact iff_of_true rfl (.tied s t)
  | cons key keys ih =>
    show ((key.compare s t).then (compareAll keys s t)).isLE ↔ _
    constructor
    · intro h
      cases hkey : key.compare s t with
      | lt => exact .decided keys (compare_eq_lt_iff.1 hkey)
      | eq =>
        rw [hkey] at h
        exact .next (compare_eq_eq_iff.1 hkey) (ih.1 h)
      | gt =>
        rw [hkey] at h
        contradiction
    · intro h
      cases h with
      | decided _ h =>
        rw [compare_eq_lt_iff.2 h]
        rfl
      | next htie hrest =>
        rw [compare_eq_eq_iff.2 htie]
        exact ih.2 hrest

instance (keys : List SortKey) (s t : Tiddler) : Decidable (InOrder keys s t) :=
  decidable_of_iff _ isLE_compareAll_iff

end SortKey

/-! ## Sorting rows -/

/-- Whether a comparison is a total preorder: it puts all tiddlers in order, where several may come
out equal. -/
structure IsTotalPreorder (compare : Tiddler → Tiddler → Ordering) : Prop where
  self : ∀ t, compare t t = .eq
  swap : ∀ s t, compare t s = (compare s t).swap
  trans : ∀ s t u, (compare s t).isLE → (compare t u).isLE → (compare s u).isLE

/-- Whether rows are others in the order of sort keys, those in their order that no key tells
apart. -/
structure Sorted (keys : List SortKey) (before after : List Tiddler) : Prop where
  perm : after.Perm before
  inOrder : after.Pairwise (SortKey.InOrder keys)
  /-- The rows that no key tells from a tiddler come as they came before. -/
  stable : ∀ t, after.filter (fun u => ∀ key ∈ keys, key.Ties t u) =
    before.filter fun u => ∀ key ∈ keys, key.Ties t u

section

variable {compare : Tiddler → Tiddler → Ordering}

theorem isTotalPreorder_of_transCmp [Std.TransCmp compare] : IsTotalPreorder compare :=
  ⟨fun _ => Std.ReflCmp.compare_self, fun _ _ => Std.OrientedCmp.eq_swap,
    fun _ _ _ => Std.TransCmp.isLE_trans⟩

theorem IsTotalPreorder.total (h : IsTotalPreorder compare) (s t : Tiddler) :
    ((compare s t).isLE || (compare t s).isLE) = true := by
  rw [h.swap s t]
  cases compare s t <;> rfl

theorem IsTotalPreorder.pairwise_mergeSort (h : IsTotalPreorder compare) (ts : List Tiddler) :
    (ts.mergeSort fun s t => (compare s t).isLE).Pairwise fun s t => (compare s t).isLE :=
  List.pairwise_mergeSort h.trans h.total ts

/-- Sorting leaves rows that all compare equal in their order. -/
theorem IsTotalPreorder.filter_mergeSort (h : IsTotalPreorder compare) (ts : List Tiddler)
    {p : Tiddler → Bool} (hp : ∀ s t, p s → p t → compare s t = .eq) :
    (ts.mergeSort fun s t => (compare s t).isLE).filter p = ts.filter p := by
  have hordered : (ts.filter p).Pairwise fun s t => (compare s t).isLE :=
    List.pairwise_of_forall_mem_list fun s hs t ht => by
      rw [hp s t (List.mem_filter.1 hs).2 (List.mem_filter.1 ht).2]
      rfl
  have hsub := (List.sublist_mergeSort h.trans h.total hordered List.filter_sublist).filter p
  rw [List.filter_filter] at hsub
  simp only [Bool.and_self] at hsub
  exact (hsub.eq_of_length ((List.mergeSort_perm ts _).filter p).length_eq.symm).symm

end

/-- Every order names one list of keys. These put rows in order, and rows that are in order stay as
they are. -/
theorem rows_sorted_by_keys (order : String) :
    ∃ keys compare, (∀ keys', SortKey.Names order.toList keys' ↔ keys' = keys) ∧
      Step.sort order = .sortBy compare ∧ IsTotalPreorder compare ∧
      ∀ c : Collection,
        Sorted keys c.tiddlers (c.apply (.sort order)).tiddlers ∧
          (c.apply (.sort order)).apply (.sort order) = c.apply (.sort order) := by
  let keys := SortKey.listOfText order
  have h : IsTotalPreorder (SortKey.compareAll keys) := isTotalPreorder_of_transCmp
  refine ⟨keys, SortKey.compareAll keys, SortKey.names_iff order, rfl, h, fun c =>
    ⟨⟨List.mergeSort_perm _ _, ?_, fun t => ?_⟩, ?_⟩⟩
  · exact (h.pairwise_mergeSort c.tiddlers).imp SortKey.isLE_compareAll_iff.1
  · refine h.filter_mergeSort c.tiddlers fun u v hu hv => ?_
    have htu := SortKey.compareAll_eq_eq_iff.2 (of_decide_eq_true hu)
    have htv := SortKey.compareAll_eq_eq_iff.2 (of_decide_eq_true hv)
    exact (Std.TransCmp.congr_left htu).symm.trans htv
  · have hagain := List.mergeSort_of_pairwise (h.pairwise_mergeSort c.tiddlers)
    exact congrArg (Collection.mk · c.filter) hagain

/-- Under a descending key the rows that have nothing there come last, in the order of the next
key. -/
theorem modifiers_before_missing_ones :
    let rows : List Tiddler := [{ title := "foo", modifier := some "alice" },
      { title := "Fluffy", modifier := some "" }, { title := "Foo", modifier := some "Zoe" },
      { title := "Bar" }]
    let keys : List SortKey := [{ name := "modifier", descending := true },
      { name := "title", descending := false }]
    let after := ((Collection.mk rows .everything).apply (.sort " -modifier,, title")).tiddlers
    SortKey.Names " -modifier,, title".toList keys ∧ Sorted keys rows after ∧
      after.map (·.title) = ["Foo", "foo", "Bar", "Fluffy"] := by
  intro rows keys after
  have hkeys : SortKey.Names " -modifier,, title".toList keys :=
    (SortKey.names_iff _ _).2 (by decide +kernel)
  obtain ⟨keys', -, hnames, -, -, hrows⟩ := rows_sorted_by_keys " -modifier,, title"
  obtain ⟨hsorted, -⟩ := hrows ⟨rows, .everything⟩
  rw [← (hnames keys).1 hkeys] at hsorted
  let wanted : List Tiddler := [{ title := "Foo", modifier := some "Zoe" },
    { title := "foo", modifier := some "alice" }, { title := "Bar" },
    { title := "Fluffy", modifier := some "" }]
  have hperm : after.Perm wanted := hsorted.perm.trans (by decide +kernel)
  -- The keys tell all of these rows apart, so that they can stand in one order only.
  have hapart : ∀ s ∈ wanted, ∀ t ∈ wanted, SortKey.InOrder keys s t →
      SortKey.InOrder keys t s → s = t := by
    decide +kernel
  have hafter : after = wanted := by
    refine hperm.eq_of_pairwise (fun s t hs ht => hapart s (hperm.mem_iff.1 hs) t ht)
      hsorted.inOrder ?_
    decide +kernel
  refine ⟨hkeys, hsorted, ?_⟩
  rw [hafter]
  rfl

end Collection

end TiddlerShelf
