import TiddlerShelf.Proofs.Settled

/-! # Filing a tiddler again

Whatever a tier holds, a tiddler that has just been filed is no news when it is filed again: it
stands under its own key by then, with what is filed, and its bag is in view. The second filing
takes the place of the first one, which leaves nothing but a stamp to differ (`reconcile_again`). -/

namespace TiddlerShelf

namespace Keyed

variable {κ α β : Type} [DecidableEq κ]

theorem put_put (k : κ) (a b : α) (es : List (κ × α)) : put k b (put k a es) = put k b es := by
  induction es with
  | nil => simp [put]
  | cons e es ih =>
    obtain ⟨k', c⟩ := e
    by_cases hk : k' = k
    · simp [put, hk]
    · simp [put, hk, ih]

theorem insert_insert (t : Keyed κ α) (k : κ) (a b : α) :
    (t.insert k a).insert k b = t.insert k b :=
  ext_entries (put_put k a b t.entries)

theorem filter_ne_put (k : κ) (a : α) (es : List (κ × α)) :
    (put k a es).filter (fun e => e.1 ≠ k) = es.filter fun e => e.1 ≠ k := by
  induction es with
  | nil => simp [put]
  | cons e es ih =>
    obtain ⟨k', b⟩ := e
    by_cases hk : k' = k
    · simp [put, hk]
    · simpa [put, hk] using ih

/-- What has just been put in leaves no trace when it is taken out. -/
theorem erase_insert (t : Keyed κ α) (k : κ) (a : α) : (t.insert k a).erase k = t.erase k :=
  ext_entries (filter_ne_put k a t.entries)

/-- Clearing a place and putting a value in undoes that the same has been done with another value,
also where the place is the one of the value. -/
theorem insert_erase_again (t : Keyed κ α) (place k : κ) (a b : α) :
    (((t.erase place).insert k a).erase place).insert k b = (t.erase place).insert k b := by
  have hcleared : (t.erase place).erase place = t.erase place :=
    erase_of_get?_eq_none (get?_erase_self t place)
  by_cases hk : place = k
  · rw [← hk, erase_insert, hcleared]
  · have hclear : ((t.erase place).insert k a).get? place = none := by
      rw [get?_insert, if_neg hk, get?_erase_self]
    rw [erase_of_get?_eq_none hclear, insert_insert]

theorem map_put (f : α → β) (k : κ) (a : α) (es : List (κ × α)) :
    (put k a es).map (fun e => (e.1, f e.2)) = put k (f a) (es.map fun e => (e.1, f e.2)) := by
  induction es with
  | nil => simp [put]
  | cons e es ih =>
    obtain ⟨k', b⟩ := e
    by_cases hk : k' = k
    · simp [put, hk]
    · simp [put, hk, ih]

theorem mapValues_insert (f : α → β) (t : Keyed κ α) (k : κ) (a : α) :
    (t.insert k a).mapValues f = (t.mapValues f).insert k (f a) :=
  ext_entries (map_put f k a t.entries)

end Keyed

namespace Tier

theorem asEdit_stamped (tier : Tier) (now : Instant) (t : Tiddler) :
    (tier.stamped now t).asEdit = t.asEdit := by
  unfold stamped
  cases tier.kind <;> rfl

/-- The title's place without a bag that filing clears, and the entries that filing leaves. -/
theorem entries_file (tier : Tier) (t : Tiddler) : (tier.file t).entries =
    (if t.bag.isSome then tier.entries.erase (Key.ofNames "" t.title)
      else tier.entries).insert t.key t := by
  unfold file
  cases t.bag <;> rfl

section

variable {tier : Tier} {t u : Tiddler}

/-- Of two tiddlers that are filed in one place, one after the other, the first leaves no trace. -/
theorem entries_file_file (hbag : u.bag = t.bag) (htitle : u.title = t.title) :
    ((tier.file t).file u).entries = (tier.file u).entries := by
  have hkey : u.key = t.key := by
    unfold Tiddler.key Tiddler.bagName
    rw [hbag, htitle]
  rw [entries_file, entries_file, entries_file, hbag, htitle, hkey]
  by_cases hsome : t.bag.isSome
  · simp only [if_pos hsome]
    exact Keyed.insert_erase_again _ _ _ _ _
  · simp only [if_neg hsome]
    exact Keyed.insert_insert _ _ _ _

theorem hasSeen_filed (hbag : u.bag = t.bag) {bag : Container} (h : u.bag = some bag) :
    (tier.file t).hasSeen bag = true :=
  hasSeen_file_self tier (hbag.symm.trans h)

/-- A bag that has just come into view does not do so again. -/
theorem bags_file_file (hbag : u.bag = t.bag) :
    ((tier.file t).file u).bags = (tier.file t).bags := by
  cases h : u.bag with
  | none =>
    generalize tier.file t = m
    unfold file
    rw [h]
  | some bag =>
    have hseen : (tier.file t).hasSeen bag = true := hasSeen_filed hbag h
    generalize tier.file t = m at hseen ⊢
    unfold file
    rw [h]
    exact if_pos hseen

theorem newBag?_file (tier : Tier) (hbag : u.bag = t.bag) : (tier.file t).newBag? u = none := by
  apply Option.filter_eq_none_iff.2
  intro bag h
  simp [hasSeen_filed hbag h]

end

/-- What differs in the stamp alone is no news. -/
theorem isNews_stamped_stamped (tier : Tier) (now now' : Instant) (t : Tiddler) :
    isNews (some (tier.stamped now t)) (tier.stamped now' t) = false := by
  unfold isNews
  cases hkind : tier.kind with
  | synced => simp [stamped_synced hkind, Tiddler.isSynced]
  | modified => simp [stamped_modified hkind, Tiddler.isSynced, Tiddler.asEdit, Tiddler.sameAs_refl]

/-- Whatever a tier holds, when a tiddler is filed again right after it has been filed, nothing is
announced and no change is reported, and the entries, their order and the bags in view stay as they
are, but for the stamp. -/
theorem reconcile_again (tier : Tier) (now now' : Instant) (t : Tiddler) :
    let first := tier.reconcile now t
    let again := first.tier.reconcile now' t
    again.events = [] ∧ again.notified = false ∧
      again.tier.entries.mapValues Tiddler.asEdit = first.tier.entries.mapValues Tiddler.asEdit ∧
      again.tier.bags = first.tier.bags := by
  intro first again
  have hstamped : first.tier.stamped now' t = tier.stamped now' t :=
    stamped_of_kind_eq (kind_file _ _) now' t
  have hbag : (tier.stamped now' t).bag = (tier.stamped now t).bag := by
    rw [bag_stamped, bag_stamped]
  have hagain : again.tier = first.tier.file (tier.stamped now' t) := by
    rw [← hstamped]
    rfl
  have hold : first.tier.get? t = some (tier.stamped now t) := by
    apply get?_of_key
    rw [← key_stamped tier now t]
    exact get?_file_self tier _
  have hsilent : isNews (first.tier.get? t) (first.tier.stamped now' t) = false := by
    rw [hold, hstamped]
    exact isNews_stamped_stamped tier now now' t
  have hnotified : again.notified = false := by
    show ((first.tier.stamped now' t).bag.isSome && isNews _ _) = false
    rw [hsilent, Bool.and_false]
  refine ⟨?_, hnotified, ?_, ?_⟩
  · have hnew : first.tier.newBag? t = none := newBag?_file tier (bag_stamped tier now t).symm
    show ((first.tier.newBag? t).map Event.bagSeen).toList ++
      (if again.notified then [Event.changed again.stored] else []) = []
    rw [hnew, hnotified]
    rfl
  · have htitle : (tier.stamped now' t).title = (tier.stamped now t).title :=
      congrArg (·.title) ((asEdit_stamped tier now' t).trans (asEdit_stamped tier now t).symm)
    have hkey : (tier.stamped now' t).key = (tier.stamped now t).key := by
      rw [key_stamped, key_stamped]
    rw [hagain]
    show ((tier.file _).file _).entries.mapValues _ = (tier.file _).entries.mapValues _
    rw [entries_file_file hbag htitle, entries_file, entries_file, Keyed.mapValues_insert,
      Keyed.mapValues_insert, hbag, htitle, hkey, asEdit_stamped, asEdit_stamped]
  · rw [hagain]
    exact bags_file_file hbag

end Tier

end TiddlerShelf
