import TiddlerShelf.Collection.Named
import TiddlerShelf.Proofs.Trimming

/-! # What an order says

An order is a text with commas in it. Each part between them names one attribute to sort by and a
direction, or is blank and names none (`names_iff`); what a tiddler is sorted by under a name is the
value it has there, unless that is empty (`sortsBy_iff`). -/

namespace TiddlerShelf

open Text

namespace Text

/-! ## Parts between separators -/

theorem splitAll_of_not_mem {sep : Char} {part : List Char} (h : sep ∉ part) :
    splitAll sep part = [part] := by
  induction part with
  | nil => rfl
  | cons c part ih =>
    rw [List.mem_cons, not_or] at h
    rw [splitAll, if_neg (Ne.symm h.1), ih h.2]

theorem splitAll_append {sep : Char} {part : List Char} (h : sep ∉ part) (rest : List Char) :
    splitAll sep (part ++ sep :: rest) = part :: splitAll sep rest := by
  induction part with
  | nil => exact if_pos rfl
  | cons c part ih =>
    rw [List.mem_cons, not_or] at h
    rw [List.cons_append, splitAll, if_neg (Ne.symm h.1), ih h.2]

end Text

namespace Collection.SortKey

/-! ## Keys -/

/-- The key that a part of an order names, if it names one. Blanks around a part do not count. A
part of blanks names no key, a name behind a minus sign a descending one, and any other name an
ascending one. -/
inductive NamesOne : List Char → Option SortKey → Prop
  | blank {part : List Char} (h : part.all isBlank = true) : NamesOne part none
  | descending {before name after : List Char} (hbefore : before.all isBlank = true)
    (hname : Filled ('-' :: name)) (hafter : after.all isBlank = true) :
    NamesOne (before ++ ('-' :: name ++ after))
      (some { name := String.ofList name, descending := true })
  | ascending {before name after : List Char} {c : Char} (hbefore : before.all isBlank = true)
    (hc : isBlank c = false) (hminus : c ≠ '-') (hname : Filled (c :: name))
    (hafter : after.all isBlank = true) :
    NamesOne (before ++ (c :: name ++ after))
      (some { name := String.ofList (c :: name), descending := false })

/-- The keys that an order names: those of its parts, which hold no comma and have one between each
two, in their order. -/
inductive Names : List Char → List SortKey → Prop
  | last {part : List Char} {key : Option SortKey} (hpart : ',' ∉ part) (h : NamesOne part key) :
    Names part key.toList
  | more {part rest : List Char} {key : Option SortKey} {keys : List SortKey} (hpart : ',' ∉ part)
    (h : NamesOne part key) (hrest : Names rest keys) :
    Names (part ++ ',' :: rest) (key.toList ++ keys)

theorem NamesOne.ofChars?_trim {part : List Char} {key : Option SortKey} (h : NamesOne part key) :
    ofChars? (trim part) = key := by
  cases h with
  | blank h => rw [trim_of_blank h, ofChars?]
  | descending hbefore hname hafter =>
    rw [trim_blank_append hbefore, trim_append_blank (by decide) hname hafter, ofChars?]
  | ascending hbefore hc hminus hname hafter =>
    rw [trim_blank_append hbefore, trim_append_blank hc hname hafter]
    exact ofChars?.eq_3 _ (List.cons_ne_nil _ _) fun name heq => hminus (List.cons.inj heq).1

/-- Every part names a key or none. -/
theorem namesOne_ofChars?_trim (part : List Char) : NamesOne part (ofChars? (trim part)) := by
  cases htrim : trim part with
  | nil => exact .blank (blank_of_trim htrim)
  | cons c name =>
    obtain ⟨before, after, hbefore, hafter, heq⟩ := exists_trim part
    have hname : Filled (c :: name) := htrim ▸ filled_trim (htrim ▸ List.cons_ne_nil c name)
    rw [htrim, List.append_assoc] at heq
    rw [heq]
    by_cases hminus : c = '-'
    · rw [hminus] at hname ⊢
      exact .descending hbefore hname hafter
    · have hkey : ofChars? (c :: name) =
          some { name := String.ofList (c :: name), descending := false } :=
        ofChars?.eq_3 _ (List.cons_ne_nil _ _) fun _ heq => hminus (List.cons.inj heq).1
      rw [hkey]
      exact .ascending hbefore (isBlank_of_trim_cons htrim) hminus hname hafter

theorem filterMap_parts_cons (part : List Char) (parts : List (List Char)) :
    ((part :: parts).filterMap fun part => ofChars? (trim part)) =
      (ofChars? (trim part)).toList ++ parts.filterMap fun part => ofChars? (trim part) := by
  rw [List.filterMap_cons]
  cases ofChars? (trim part) <;> rfl

theorem Names.eq_keys {cs : List Char} {keys : List SortKey} (h : Names cs keys) :
    keys = (splitAll ',' cs).filterMap fun part => ofChars? (trim part) := by
  induction h with
  | last hpart h =>
    rw [splitAll_of_not_mem hpart, filterMap_parts_cons, h.ofChars?_trim]
    exact (List.append_nil _).symm
  | more hpart h _ ih => rw [splitAll_append hpart, filterMap_parts_cons, h.ofChars?_trim, ih]

theorem names_keys (cs : List Char) :
    Names cs ((splitAll ',' cs).filterMap fun part => ofChars? (trim part)) := by
  by_cases hcomma : ',' ∈ cs
  · obtain ⟨part, rest, hcs, hpart⟩ := List.eq_append_cons_of_mem hcomma
    have hshorter : rest.length < cs.length := by
      rw [hcs, List.length_append, List.length_cons]
      omega
    rw [hcs, splitAll_append hpart, filterMap_parts_cons]
    exact .more hpart (namesOne_ofChars?_trim part) (names_keys rest)
  · rw [splitAll_of_not_mem hcomma, filterMap_parts_cons, List.filterMap_nil, List.append_nil]
    exact .last hcomma (namesOne_ofChars?_trim cs)
termination_by cs.length

/-- Every order names one list of keys, and these are read of it. -/
theorem names_iff (order : String) (keys : List SortKey) :
    Names order.toList keys ↔ keys = listOfText order :=
  ⟨Names.eq_keys, fun h => h ▸ names_keys order.toList⟩

end Collection.SortKey

/-! ## Values -/

/-- Whether a value counts: any number does, and a text or a list that is not empty. -/
inductive Attribute.Counts : Attribute → Prop
  | number (n : Nat) : Counts (number n)
  | text {s : String} (h : s ≠ "") : Counts (text s)
  | list {items : List String} (h : items ≠ []) : Counts (list items)

theorem Attribute.isFilled_iff {a : Attribute} : a.isFilled = true ↔ a.Counts := by
  constructor
  · intro h
    cases a with
    | number n => exact .number n
    | text s => exact .text (bne_iff_ne.1 h)
    | list items =>
      refine .list fun hnil => ?_
      rw [hnil] at h
      contradiction
  · intro h
    cases h with
    | number n => rfl
    | text hs => exact bne_iff_ne.2 hs
    | list hitems => exact congrArg not (List.isEmpty_eq_false_iff.2 hitems)

namespace Tiddler

/-- The value that a tiddler is sorted by under a name: its built-in attribute if that counts, else
the field of that name if that is not empty, else none. -/
inductive SortsBy (t : Tiddler) (name : String) : Option Attribute → Prop
  | builtIn {a : Attribute} (h : t.builtIn? name = some a) (ha : a.Counts) :
    SortsBy t name (some a)
  | field {s : String} (hbuiltIn : ∀ a, t.builtIn? name = some a → ¬a.Counts)
    (h : t.fields.get? name = some s) (hs : s ≠ "") : SortsBy t name (some (.text s))
  | missing (hbuiltIn : ∀ a, t.builtIn? name = some a → ¬a.Counts)
    (hfield : ∀ s, t.fields.get? name = some s → s = "") : SortsBy t name none

variable {t : Tiddler} {name : String} {value : Option Attribute}

theorem SortsBy.unique {value' : Option Attribute} (h : t.SortsBy name value)
    (h' : t.SortsBy name value') : value = value' := by
  cases h with
  | builtIn h ha =>
    cases h' with
    | builtIn h' _ => exact h.symm.trans h'
    | field hbuiltIn _ _ => exact absurd ha (hbuiltIn _ h)
    | missing hbuiltIn _ => exact absurd ha (hbuiltIn _ h)
  | field hbuiltIn h hs =>
    cases h' with
    | builtIn h' ha => exact absurd ha (hbuiltIn _ h')
    | field _ h' _ =>
      rw [Option.some.inj (h.symm.trans h')]
    | missing _ hfield => exact absurd (hfield _ h) hs
  | missing hbuiltIn hfield =>
    cases h' with
    | builtIn h' ha => exact absurd ha (hbuiltIn _ h')
    | field _ h' hs => exact absurd (hfield _ h') hs
    | missing _ _ => rfl

theorem sortsBy_value? (t : Tiddler) (key : Collection.SortKey) :
    t.SortsBy key.name (key.value? t) := by
  unfold Collection.SortKey.value? attribute?
  cases hbuiltIn : (t.builtIn? key.name).filter Attribute.isFilled with
  | some a =>
    obtain ⟨h, ha⟩ := Option.filter_eq_some_iff.1 hbuiltIn
    dsimp only
    rw [Option.filter_some, if_pos ha]
    exact .builtIn h (Attribute.isFilled_iff.1 ha)
  | none =>
    have hnone : ∀ a, t.builtIn? key.name = some a → ¬a.Counts := fun a h ha =>
      Option.filter_eq_none_iff.1 hbuiltIn a h (Attribute.isFilled_iff.2 ha)
    cases hfield : t.fields.get? key.name with
    | none =>
      dsimp only
      rw [Option.map_none, Option.none_or, hbuiltIn]
      refine .missing hnone fun s hs => ?_
      rw [hfield] at hs
      contradiction
    | some s =>
      dsimp only
      rw [Option.map_some, Option.some_or, Option.filter_some]
      by_cases hs : s = ""
      · rw [hs] at hfield ⊢
        refine .missing hnone fun s' hs' => ?_
        exact (Option.some.inj (hfield.symm.trans hs')).symm
      · rw [if_pos (Attribute.isFilled_iff.2 (.text hs))]
        exact .field hnone hfield hs

/-- Every tiddler has one value or none to be sorted by, and that is what is read of it. -/
theorem sortsBy_iff {key : Collection.SortKey} :
    t.SortsBy key.name value ↔ key.value? t = value :=
  ⟨(t.sortsBy_value? key).unique, fun h => h ▸ t.sortsBy_value? key⟩

end Tiddler

end TiddlerShelf
