import Mathlib.Data.List.Basic
import TiddlerShelf.Proofs.Tier

/-! # The tiddlers of a tier that have a bag

A tier clears the place of a title without a bag whenever it files the title with one. To the
tiddlers that have a bag this makes no difference, as long as no bag has the empty name, which the
keys of tiddlers without a bag begin with: filing and removing do the same to them as putting in and
taking out. -/

namespace TiddlerShelf

namespace Keyed

variable {κ α : Type}

theorem values_filterValues (p : α → Bool) (t : Keyed κ α) :
    (t.filterValues p).values = t.values.filter p := by
  show (t.entries.filter fun e => p e.2).map Prod.snd = (t.entries.map Prod.snd).filter p
  rw [List.filter_map]
  rfl

theorem ext_entries {s t : Keyed κ α} (h : s.entries = t.entries) : s = t := by
  cases s
  cases t
  cases h
  rfl

/-- Where all values stand under what `f` makes of them, that gives the keys in order. -/
theorem map_values_eq_keys {t : Keyed κ α} {f : α → κ} (h : ∀ e ∈ t.entries, f e.2 = e.1) :
    t.values.map f = t.keys := by
  unfold values keys
  rw [List.map_map]
  exact List.map_congr_left h

variable [DecidableEq κ] {p : α → Bool} {t : Keyed κ α} {k : κ} {a : α}

/-- Then the values that `f` makes a key of are the one under that key, if there is one. -/
theorem filter_values {f : α → κ} (h : ∀ e ∈ t.entries, f e.2 = e.1) (k : κ) :
    t.values.filter (fun a => f a = k) = (t.get? k).toList := by
  obtain ⟨es, hnodup⟩ := t
  show (es.map Prod.snd).filter _ = (lookup k es).toList
  induction es with
  | nil => rfl
  | cons e es ih =>
    obtain ⟨k', b⟩ := e
    obtain ⟨hkey, hes⟩ := List.forall_mem_cons.1 h
    obtain ⟨hnew, hnodup⟩ := List.nodup_cons.1 hnodup
    have hrest := ih hnodup hes
    rw [List.map_cons, List.filter_cons, lookup, hrest]
    replace hkey : f b = k' := hkey
    by_cases hk : k' = k
    · have hnone : lookup k es = none := by
        rw [← hk]
        exact (get?_eq_none_iff (t := ⟨es, hnodup⟩)).2 hnew
      simp [hkey, hk, hnone]
    · simp [hkey, hk]

theorem filterValues_erase (p : α → Bool) (t : Keyed κ α) (k : κ) :
    (t.erase k).filterValues p = (t.filterValues p).erase k :=
  ext_entries (List.filter_comm _ _ _)

theorem erase_of_get?_eq_none (h : t.get? k = none) : t.erase k = t := by
  refine ext_entries (List.filter_eq_self.2 fun e he => decide_eq_true fun heq => ?_)
  exact get?_eq_none_iff.1 h (heq ▸ List.mem_map_of_mem he)

theorem get?_filterValues (p : α → Bool) (t : Keyed κ α) (k : κ) :
    (t.filterValues p).get? k = (t.get? k).filter p := by
  ext a
  rw [Option.filter_eq_some_iff, get?_eq_some_iff, get?_eq_some_iff]
  exact List.mem_filter

theorem get?_of_get?_filterValues (h : (t.filterValues p).get? k = some a) :
    t.get? k = some a ∧ p a := by
  rw [get?_filterValues] at h
  exact Option.filter_eq_some_iff.1 h

theorem filter_put {es : List (κ × α)} (h : ∀ b, lookup k es = some b → p b = p a) :
    (put k a es).filter (fun e => p e.2) =
      if p a then put k a (es.filter fun e => p e.2) else es.filter fun e => p e.2 := by
  induction es with
  | nil => cases hp : p a <;> simp [put, hp]
  | cons e es ih =>
    obtain ⟨k', b⟩ := e
    by_cases hk : k' = k
    · have hb : p b = p a := h b (if_pos hk)
      cases hp : p a <;> simp [put, hk, hp, hb]
    · have hes := ih fun b hb => h b ((if_neg hk).trans hb)
      cases hp : p a <;> cases hb : p b <;> simp_all [put]

/-- Putting in a value of the kind that is kept, where nothing else is or only one of the kind. -/
theorem filterValues_insert_of_pos (hp : p a) (hold : ∀ b, t.get? k = some b → p b) :
    (t.insert k a).filterValues p = (t.filterValues p).insert k a := by
  refine ext_entries ((filter_put fun b hb => (hold b hb).trans hp.symm).trans ?_)
  rw [if_pos hp]
  rfl

/-- Putting in a value of the kind that is not kept, where none of the other kind is. -/
theorem filterValues_insert_of_neg (hp : p a = false)
    (hold : ∀ b, t.get? k = some b → p b = false) :
    (t.insert k a).filterValues p = t.filterValues p := by
  refine ext_entries ((filter_put fun b hb => (hold b hb).trans hp.symm).trans ?_)
  rw [hp]
  rfl

end Keyed

namespace Tiddler

/-- Whether the tiddler's bag, if it has one, has a name. -/
def IsPlaced (t : Tiddler) : Prop := ∀ bag ∈ t.bag, bag.name ≠ ""

instance (t : Tiddler) : Decidable t.IsPlaced :=
  inferInstanceAs (Decidable (∀ bag ∈ t.bag, bag.name ≠ ""))

theorem IsPlaced.of_bag_eq {t u : Tiddler} (h : t.IsPlaced) (hbag : u.bag = t.bag) : u.IsPlaced :=
  fun bag hmem => h bag (hbag ▸ hmem)

theorem IsPlaced.isBagged {t : Tiddler} (h : t.IsPlaced) (hbag : t.bag.isSome) : t.IsBagged := by
  obtain ⟨bag, heq⟩ := Option.isSome_iff_exists.1 hbag
  have hname := h bag heq
  unfold IsBagged bagName
  rw [heq]
  exact hname

theorem key_of_none {t : Tiddler} (h : t.bag = none) : t.key = Key.ofNames "" t.title := by
  unfold key bagName
  rw [h]
  rfl

end Tiddler

namespace Tier

/-- The entries of a tier that have a bag. -/
def bagged (tier : Tier) : Keyed String Tiddler := tier.entries.filterValues (·.bag.isSome)

/-- A sound tier in which every bag has a name. -/
structure Named (tier : Tier) : Prop extends Sound tier where
  placed : ∀ {k t}, tier.entries.get? k = some t → t.IsPlaced

variable {tier : Tier}

theorem Named.isBagged (h : tier.Named) {k : String} {t : Tiddler}
    (ht : tier.bagged.get? k = some t) : t.IsBagged ∧ t.key = k := by
  obtain ⟨hget, hbag⟩ := Keyed.get?_of_get?_filterValues ht
  exact ⟨(h.placed hget).isBagged hbag, h.keyed hget⟩

/-- Nothing that has a bag stands where a title without one does. -/
theorem Named.get?_bagged_ofNames (h : tier.Named) (title : String) :
    tier.bagged.get? (Key.ofNames "" title) = none := by
  cases hget : tier.bagged.get? (Key.ofNames "" title) with
  | none => rfl
  | some t =>
    obtain ⟨hbagged, hkey⟩ := h.isBagged hget
    exact absurd hkey (hbagged.key_ne title)

/-- A tiddler without a bag takes the place of one without a bag only. -/
theorem Named.bagged_file_of_none (h : tier.Named) {t : Tiddler} (hbag : t.bag = none) :
    (tier.file t).bagged = tier.bagged := by
  have hold : ∀ u, tier.entries.get? t.key = some u → u.bag.isSome = false := by
    intro u hu
    rw [Bool.eq_false_iff]
    intro hsome
    have hkey := h.keyed hu
    rw [Tiddler.key_of_none hbag] at hkey
    exact ((h.placed hu).isBagged hsome).key_ne t.title hkey
  unfold Tier.file bagged
  rw [hbag]
  exact Keyed.filterValues_insert_of_neg (by rw [hbag]; rfl) hold

/-- A tiddler with a bag takes the place of one with a bag, and that of its title without a bag,
where nothing stands that has one. -/
theorem Named.bagged_file_of_isBagged (h : tier.Named) {t : Tiddler} (ht : t.IsBagged) :
    (tier.file t).bagged = tier.bagged.insert t.key t := by
  obtain ⟨bag, hbag⟩ := Option.ne_none_iff_exists'.1 ht.bag_ne_none
  have hold : ∀ u, (tier.entries.erase (Key.ofNames "" t.title)).get? t.key = some u →
      u.bag.isSome := by
    intro u hu
    rw [Keyed.get?_erase, if_neg (ht.key_ne t.title)] at hu
    rw [Option.isSome_iff_ne_none]
    intro hnone
    exact ht.key_ne u.title ((h.keyed hu).symm.trans (Tiddler.key_of_none hnone))
  have herase := Keyed.erase_of_get?_eq_none (h.get?_bagged_ofNames t.title)
  unfold bagged at herase ⊢
  rw [← Keyed.filterValues_erase] at herase
  unfold Tier.file
  rw [hbag, ← herase]
  exact Keyed.filterValues_insert_of_pos (a := t) (hbag ▸ rfl) hold

theorem bagged_remove (tier : Tier) (t : Tiddler) :
    (tier.remove t).bagged = tier.bagged.erase t.key :=
  Keyed.filterValues_erase _ _ _

end Tier

end TiddlerShelf
