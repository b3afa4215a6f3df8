import TiddlerShelf.Proofs.Lookup
import TiddlerShelf.Proofs.Mirror

/-! # Keys that are escaped in two passes

A name can be escaped in one pass over its characters, or first in its percent signs and then in its
slashes, where the second pass goes over what the first has written. Both come to the same, since
the code of a percent sign has no slash (`Key.escape_eq_escapedInPasses`). So keys never clash,
whatever names look like, and a tier and a cache tell the same tiddlers apart
(`Tiddler.keys_never_clash`). -/

namespace TiddlerShelf

namespace Key

/-- A text in which one character has been replaced by a code wherever it stands. -/
def replaced (c : Char) (code cs : List Char) : List Char :=
  cs.flatMap fun d => if d = c then code else [d]

theorem replaced_cons (c d : Char) (code cs : List Char) :
    replaced c code (d :: cs) = (if d = c then code else [d]) ++ replaced c code cs :=
  List.flatMap_cons

theorem replaced_append (c : Char) (code xs ys : List Char) :
    replaced c code (xs ++ ys) = replaced c code xs ++ replaced c code ys :=
  List.flatMap_append

/-- A name in which first the percent signs have been escaped and then the slashes. -/
def escapedInPasses (name : String) : List Char :=
  replaced '/' ['%', '2', 'F'] (replaced '%' ['%', '2', '5'] name.toList)

/-- The second pass leaves the codes alone that the first has written. -/
theorem replaced_slash_percent (c : Char) :
    replaced '/' ['%', '2', 'F'] (if c = '%' then ['%', '2', '5'] else [c]) = escapeChar c := by
  rcases escapeChar_cases c with ⟨rfl, hc⟩ | ⟨rfl, hc⟩ | ⟨hpercent, hslash, hc⟩
  · rw [hc]
    decide
  · rw [hc]
    decide
  · rw [hc, if_neg hpercent, replaced_cons, if_neg hslash]
    rfl

theorem escape_eq_escapedInPasses (name : String) : escape name = escapedInPasses name := by
  unfold escape escapedInPasses
  induction name.toList with
  | nil => rfl
  | cons c cs ih =>
    rw [List.flatMap_cons, ih, replaced_cons, replaced_append, replaced_slash_percent]

end Key

/-- What is filed is found by a tiddler with a bag that nothing was found by before exactly if the
two share the place. -/
theorem Tier.isSome_get?_file_iff {tier : Tier} {s t : Tiddler} (ht : t.bag.isSome)
    (hnone : tier.get? t = none) : ((tier.file s).get? t).isSome ↔ s.SharesPlace t := by
  have hget : ∀ tier : Tier, tier.get? t = tier.entries.get? t.key := by
    intro tier
    unfold Tier.get?
    rw [if_pos ht]
    cases tier.entries.get? t.key <;> rfl
  rw [hget] at hnone
  rw [Tiddler.sharesPlace_iff, hget, get?_file, hnone, ite_self, @eq_comm _ s.key]
  split <;> simp [*]

theorem Cache.isSome_get?_set_memory_iff {table : Keyed String Tiddler} {s t : Tiddler}
    (hs : s.bag.isSome) (ht : t.bag.isSome) (hnone : (Cache.memory table).get? t = Option.none) :
    (((Cache.memory table).set s).get? t).isSome ↔ s.SharesPlace t := by
  have hget : ∀ table : Keyed String Tiddler, (Cache.memory table).get? t = table.get? t.key := by
    intro table
    unfold Cache.get?
    rw [Tiddler.durableKey?_of_isSome ht]
    rfl
  have hset : (Cache.memory table).set s = .memory (table.insert s.key s) := by
    unfold Cache.set
    rw [Tiddler.durableKey?_of_isSome hs]
  rw [hget] at hnone
  rw [Tiddler.sharesPlace_iff, hset, hget, Keyed.get?_insert, hnone, @eq_comm _ s.key]
  split <;> simp [*]

namespace Tiddler

/-- Two tiddlers have one key, which is made in two passes, exactly if they have one title and bags
of one name, where no bag counts as the empty name. With a bag this is also the key outside the
store. So what is filed under the one is found under the other in a tier just if it is in a
cache. -/
theorem keys_never_clash (s t : Tiddler) :
    s.key = String.ofList (Key.escapedInPasses (s.bagName.getD "") ++
      '/' :: Key.escapedInPasses s.title) ∧
    (s.key = t.key ↔ s.title = t.title ∧ s.bagName.getD "" = t.bagName.getD "") ∧
    (s.bag.isSome → s.durableKey? = some s.key) ∧
    (s.bag.isSome → t.bag.isSome → (s.durableKey? = t.durableKey? ↔ s.key = t.key) ∧
      (∀ tier : Tier, tier.get? t = none → (((tier.file s).get? t).isSome ↔ s.key = t.key)) ∧
      ∀ table : Keyed String Tiddler, (Cache.memory table).get? t = none →
        ((((Cache.memory table).set s).get? t).isSome ↔ s.key = t.key)) := by
  refine ⟨?_, sharesPlace_iff.symm, durableKey?_of_isSome, fun hs ht => ⟨?_, ?_, ?_⟩⟩
  · rw [← Key.escape_eq_escapedInPasses, ← Key.escape_eq_escapedInPasses]
    rfl
  · rw [durableKey?_of_isSome hs, durableKey?_of_isSome ht, Option.some.injEq]
  · intro tier hnone
    rw [Tier.isSome_get?_file_iff ht hnone, sharesPlace_iff]
  · intro table hnone
    rw [Cache.isSome_get?_set_memory_iff hs ht hnone, sharesPlace_iff]

/-- Names that already look escaped keep apart what would be one text without escaping, in a store
and outside. -/
theorem keys_of_escaped_looks :
    let s : Tiddler := { title := "b", bag := some (.bag "a%2F") }
    let t : Tiddler := { title := "b", bag := some (.bag "a/") }
    let u : Tiddler := { title := "%25/b", bag := some (.bag "a") }
    s.bag.isSome ∧ t.bag.isSome ∧ u.bag.isSome ∧ s.key ≠ t.key ∧ s.durableKey? ≠ t.durableKey? ∧
      t.key ≠ u.key ∧ u.key = "a/%2525%2Fb" ∧
      ((({ kind := .modified } : Tier).file s).get? t).isSome = false := by
  intro s t u
  have hs : s.bag.isSome := rfl
  have ht : t.bag.isSome := rfl
  obtain ⟨-, hkeys, -, hshared⟩ := keys_never_clash s t
  obtain ⟨hdurable, hfiled, -⟩ := hshared hs ht
  have hne : s.key ≠ t.key := fun h => absurd (hkeys.1 h).2 (by decide)
  have hne' : t.key ≠ u.key := fun h => absurd ((keys_never_clash t u).2.1.1 h).1 (by decide)
  refine ⟨hs, ht, rfl, hne, fun h => hne (hdurable.1 h), hne', by decide +kernel, ?_⟩
  exact Bool.eq_false_iff.2 fun h => hne ((hfiled { kind := .modified } rfl).1 h)

end Tiddler

end TiddlerShelf
