import TiddlerShelf.Proofs.Key
import TiddlerShelf.Tier

/-! # What tiers keep to

In a sound tier every tiddler stands under its own key, its bag has been seen, and it carries a
stamp exactly in the synced tier. Filing, removing and withdrawing keep a tier sound. What each of
them does to a key is said once, and a lookup is tied to the entry it finds: it has the title
looked for, and a lookup without a bag finds an entry of the title whenever there is one. -/

namespace TiddlerShelf

/-- A tiddler as the modified tier holds it. -/
def Tiddler.asEdit (t : Tiddler) : Tiddler := { t with lastSync := none }

namespace Tiddler

@[simp] theorem key_asEdit (t : Tiddler) : t.asEdit.key = t.key := rfl

theorem asEdit_of_not_synced {t : Tiddler} (h : t.isSynced = false) : t.asEdit = t := by
  have hnone : t.lastSync = none := Option.isNone_iff_eq_none.1 (by simpa [isSynced] using h)
  rw [asEdit, ← hnone]

theorem sameAs_trans {s t u : Tiddler} (h : s.sameAs t) (h' : t.sameAs u) : s.sameAs u :=
  sameAs_iff.2 ((sameAs_iff.1 h).trans (sameAs_iff.1 h'))

theorem sameAs_symm {s t : Tiddler} (h : s.sameAs t) : t.sameAs s :=
  sameAs_iff.2 (sameAs_iff.1 h).symm

/-- Whether the tiddler lives in a bag that has a name. -/
def IsBagged (t : Tiddler) : Prop := t.bagName.getD "" ≠ ""

instance (t : Tiddler) : Decidable t.IsBagged := inferInstanceAs (Decidable (_ ≠ _))

theorem IsBagged.bag_ne_none {t : Tiddler} (h : t.IsBagged) : t.bag ≠ none :=
  fun hnone => h (by rw [bagName, hnone]; rfl)

theorem IsBagged.asEdit {t : Tiddler} (h : t.IsBagged) : t.asEdit.IsBagged := h

theorem IsBagged.hasContainer {t : Tiddler} (h : t.IsBagged) : t.hasContainer := by
  rw [Tiddler.hasContainer, Option.isSome_iff_ne_none.2 h.bag_ne_none, Bool.true_or]

/-- The key of a bagged tiddler is not that of a title without a bag. -/
theorem IsBagged.key_ne {t : Tiddler} (h : t.IsBagged) (title : String) :
    t.key ≠ Key.ofNames "" title :=
  fun hk => h (Key.ofNames_inj.1 hk).1

theorem IsBagged.key_ne_of_bag_eq_none {t u : Tiddler} (h : t.IsBagged) (hu : u.bag = none) :
    t.key ≠ u.key := by
  have hkey : u.key = Key.ofNames "" u.title := by rw [key, bagName, hu]; rfl
  exact hkey ▸ h.key_ne u.title

theorem title_eq_of_sameAs {s t : Tiddler} (h : s.sameAs t) : s.title = t.title :=
  congrArg (fun i => i.1.title) (sameAs_iff.1 h)

theorem lastSync_eq_of_sameAs {s t : Tiddler} (h : s.sameAs t) : s.lastSync = t.lastSync :=
  congrArg (fun i => i.1.lastSync) (sameAs_iff.1 h)

/-- Equal content stands under one key. -/
theorem key_eq_of_sameAs {s t : Tiddler} (h : s.sameAs t) : s.key = t.key := by
  have hbag : s.bagName = t.bagName := congrArg (fun i => i.2.1) (sameAs_iff.1 h)
  rw [key, key, hbag, title_eq_of_sameAs h]

end Tiddler

namespace Tier

/-- The rules that a tier keeps to. -/
structure Sound (tier : Tier) : Prop where
  keyed : ∀ {k t}, tier.entries.get? k = some t → t.key = k
  seen : ∀ {k t bag}, tier.entries.get? k = some t → t.bag = some bag → tier.hasSeen bag
  stamped : ∀ {k t}, tier.entries.get? k = some t → t.isSynced = (tier.kind == .synced)

theorem sound_of_entries_empty {tier : Tier} (h : tier.entries = .empty) : tier.Sound := by
  refine ⟨?_, ?_, ?_⟩ <;> (rw [h]; intros; contradiction)

/-! ## Filing -/

theorem isSynced_stamped (tier : Tier) (now : Instant) (t : Tiddler) :
    (tier.stamped now t).isSynced = (tier.kind == .synced) := by
  unfold stamped
  cases tier.kind <;> rfl

theorem stamped_modified {tier : Tier} (h : tier.kind = .modified) (now : Instant) (t : Tiddler) :
    tier.stamped now t = t.asEdit := by
  unfold stamped
  rw [h]
  rfl

theorem stamped_synced {tier : Tier} (h : tier.kind = .synced) (now : Instant) (t : Tiddler) :
    tier.stamped now t = { t with lastSync := some now } := by
  unfold stamped
  rw [h]

@[simp] theorem kind_file (tier : Tier) (t : Tiddler) : (tier.file t).kind = tier.kind := by
  unfold file
  cases t.bag <;> rfl

/-- Filing a tiddler puts it under its key and, if it has a bag, clears the title's place without
one. -/
theorem get?_file (tier : Tier) (t : Tiddler) (k : String) :
    (tier.file t).entries.get? k =
      if k = t.key then some t
      else if t.bag.isSome ∧ k = Key.ofNames "" t.title then none else tier.entries.get? k := by
  unfold file
  cases t.bag <;> simp [Keyed.get?_insert, noteBag, Keyed.get?_erase]

theorem get?_file_self (tier : Tier) (t : Tiddler) : (tier.file t).entries.get? t.key = some t := by
  rw [get?_file, if_pos rfl]

theorem hasSeen_file_self (tier : Tier) {t : Tiddler} {bag : Container} (h : t.bag = some bag) :
    (tier.file t).hasSeen bag := by
  unfold file
  rw [h]
  show ((if tier.hasSeen bag then tier.bags else tier.bags ++ [bag]).any bag.sameAs) = true
  split
  · assumption
  · simp [Container.sameAs]

theorem hasSeen_file {tier : Tier} {bag : Container} (h : tier.hasSeen bag) (t : Tiddler) :
    (tier.file t).hasSeen bag := by
  unfold file
  cases t.bag with
  | none => exact h
  | some new =>
    show ((if tier.hasSeen new then tier.bags else tier.bags ++ [new]).any bag.sameAs) = true
    split
    · exact h
    · rw [List.any_append]
      exact Bool.or_eq_true_iff.2 (.inl h)

/-- What a tier holds that has been filed into is what was filed, or it held it before. -/
theorem of_get?_file {tier : Tier} {t u : Tiddler} {k : String}
    (hu : (tier.file t).entries.get? k = some u) :
    k = t.key ∧ u = t ∨ tier.entries.get? k = some u := by
  rw [get?_file] at hu
  split at hu
  · rename_i hk
    exact .inl ⟨hk, (Option.some.inj hu).symm⟩
  · split at hu
    · contradiction
    · exact .inr hu

theorem Sound.file {tier : Tier} (h : tier.Sound) {t : Tiddler}
    (ht : t.isSynced = (tier.kind == .synced)) : (tier.file t).Sound := by
  refine ⟨?_, ?_, ?_⟩
  · intro k u hu
    rcases of_get?_file hu with ⟨rfl, rfl⟩ | hu
    · rfl
    · exact h.keyed hu
  · intro k u bag hu hbag
    rcases of_get?_file hu with ⟨rfl, rfl⟩ | hu
    · exact hasSeen_file_self tier hbag
    · exact hasSeen_file (h.seen hu hbag) t
  · intro k u hu
    rw [kind_file]
    rcases of_get?_file hu with ⟨rfl, rfl⟩ | hu
    · exact ht
    · exact h.stamped hu

/-! ## Removing -/

theorem get?_remove (tier : Tier) (t : Tiddler) (k : String) :
    (tier.remove t).entries.get? k = if k = t.key then none else tier.entries.get? k :=
  Keyed.get?_erase _ _ _

theorem get?_of_get?_remove {tier : Tier} {t u : Tiddler} {k : String}
    (h : (tier.remove t).entries.get? k = some u) : tier.entries.get? k = some u := by
  rw [get?_remove] at h
  split at h
  · contradiction
  · exact h

theorem Sound.remove {tier : Tier} (h : tier.Sound) (t : Tiddler) : (tier.remove t).Sound :=
  ⟨fun hu => h.keyed (get?_of_get?_remove hu), fun hu => h.seen (get?_of_get?_remove hu),
    fun hu => h.stamped (get?_of_get?_remove hu)⟩

/-! ## Looking up -/

theorem get?_of_key {tier : Tier} {w t : Tiddler} (h : tier.entries.get? w.key = some t) :
    tier.get? w = some t := by
  unfold get?
  rw [h]

/-- What a lookup finds stands under its own key and has the title looked for, and the key looked
for if a bag was given. -/
theorem Sound.of_get? {tier : Tier} (h : tier.Sound) {w t : Tiddler} (hw : tier.get? w = some t) :
    tier.entries.get? t.key = some t ∧ t.title = w.title ∧ (w.bag.isSome → t.key = w.key) := by
  unfold get? at hw
  split at hw
  · rename_i u hu
    obtain rfl : u = t := Option.some.inj hw
    have hkey := h.keyed hu
    exact ⟨hkey ▸ hu, Tiddler.title_eq_of_key_eq hkey, fun _ => hkey⟩
  · by_cases hbag : w.bag.isSome
    · rw [if_pos hbag] at hw
      contradiction
    · rw [if_neg hbag] at hw
      obtain ⟨bag, -, hu⟩ := List.exists_of_findSome?_eq_some hw
      have hkey := h.keyed hu
      exact ⟨hkey ▸ hu, (Key.ofNames_inj.1 hkey).2, fun hb => absurd hb hbag⟩

/-- A lookup without a bag finds an entry of the title if there is one. -/
theorem Sound.isSome_get? {tier : Tier} (h : tier.Sound) {w t : Tiddler}
    (ht : tier.entries.get? t.key = some t) (hbag : w.bag = none) (htitle : t.title = w.title) :
    (tier.get? w).isSome := by
  unfold get?
  split
  · rfl
  · rename_i hw
    rw [hbag]
    show (tier.findInBags? w.title).isSome
    unfold findInBags?
    rw [List.findSome?_isSome_iff]
    cases hb : t.bag with
    | none =>
      have hkey : t.key = w.key := by
        rw [Tiddler.key_eq_iff, Tiddler.bagName, Tiddler.bagName, hb, hbag]
        exact ⟨rfl, htitle⟩
      rw [hkey, hw] at ht
      contradiction
    | some bag =>
      obtain ⟨seen, hmem, hsame⟩ := List.any_eq_true.1 (h.seen ht hb)
      have hname : bag.name = seen.name := by simpa [Container.sameAs] using hsame
      have hkey : Key.ofNames seen.name w.title = t.key := by
        rw [Tiddler.key, Tiddler.bagName, hb, ← hname, htitle]
        rfl
      exact ⟨seen, hmem, by rw [hkey, ht]; rfl⟩

/-- Whether a tier holds a tiddler of that content. -/
def Holds (tier : Tier) (e : Tiddler) : Prop :=
  ∃ t, tier.entries.get? e.key = some t ∧ t.sameAs e

theorem holds_of_get? {tier : Tier} {e : Tiddler} (h : tier.entries.get? e.key = some e) :
    tier.Holds e :=
  ⟨e, h, e.sameAs_refl⟩

theorem holds_iff_of_get?_eq {m n : Tier} {e : Tiddler}
    (h : n.entries.get? e.key = m.entries.get? e.key) : n.Holds e ↔ m.Holds e := by
  unfold Holds
  rw [h]

/-- What a tier holds after filing is what was filed, and what it held before under other keys, but
for the title's place without a bag if the tiddler has one. -/
theorem holds_file_iff {tier : Tier} {u e : Tiddler} :
    (tier.file u).Holds e ↔ u.sameAs e ∨
      e.key ≠ u.key ∧ ¬(u.bag.isSome ∧ e.key = Key.ofNames "" u.title) ∧ tier.Holds e := by
  by_cases hk : e.key = u.key
  · unfold Holds
    rw [hk, get?_file_self]
    constructor
    · rintro ⟨t, ht, hsame⟩
      obtain rfl : u = t := Option.some.inj ht
      exact .inl hsame
    · rintro (hsame | ⟨hne, -⟩)
      · exact ⟨u, rfl, hsame⟩
      · exact absurd rfl hne
  · have hnot : ¬u.sameAs e := fun hsame => hk (Tiddler.key_eq_of_sameAs hsame).symm
    unfold Holds
    rw [get?_file, if_neg hk]
    by_cases hcleared : u.bag.isSome ∧ e.key = Key.ofNames "" u.title
    · rw [if_pos hcleared]
      refine iff_of_false ?_ ?_
      · rintro ⟨t, ht, -⟩
        contradiction
      · rintro (hsame | ⟨-, hclear, -⟩)
        · exact hnot hsame
        · exact hclear hcleared
    · rw [if_neg hcleared]
      constructor
      · intro h
        exact .inr ⟨hk, hcleared, h⟩
      · rintro (hsame | ⟨-, -, h⟩)
        · exact absurd hsame hnot
        · exact h

theorem holds_remove_iff {tier : Tier} {t e : Tiddler} :
    (tier.remove t).Holds e ↔ e.key ≠ t.key ∧ tier.Holds e := by
  unfold Holds
  rw [get?_remove]
  split
  · rename_i hk
    constructor
    · rintro ⟨u, hu, -⟩
      contradiction
    · intro h
      exact absurd hk h.1
  · rename_i hk
    exact ⟨fun h => ⟨hk, h⟩, fun h => h.2⟩

/-- Whether two tiers hold the same under a title. -/
structure AgreeOn (title : String) (m n : Tier) : Prop where
  bags : n.bags = m.bags
  entries : ∀ bag, n.entries.get? (Key.ofNames bag title) = m.entries.get? (Key.ofNames bag title)

theorem AgreeOn.refl (title : String) (m : Tier) : AgreeOn title m m := ⟨rfl, fun _ => rfl⟩

theorem AgreeOn.trans {title : String} {l m n : Tier} (h : AgreeOn title l m)
    (h' : AgreeOn title m n) : AgreeOn title l n :=
  ⟨h'.bags.trans h.bags, fun bag => (h'.entries bag).trans (h.entries bag)⟩

theorem AgreeOn.get?_key {m n : Tier} {t : Tiddler} (h : AgreeOn t.title m n) :
    n.entries.get? t.key = m.entries.get? t.key :=
  h.entries _

theorem AgreeOn.get?_eq {m n : Tier} {w : Tiddler} (h : AgreeOn w.title m n) :
    n.get? w = m.get? w := by
  have hfind : n.findInBags? w.title = m.findInBags? w.title := by
    unfold findInBags?
    rw [h.bags]
    congr 1
    funext bag
    exact h.entries bag.name
  unfold get?
  rw [h.get?_key, hfind]

theorem agreeOn_remove {tier : Tier} {t : Tiddler} {title : String} (h : title ≠ t.title) :
    AgreeOn title tier (tier.remove t) := by
  refine ⟨rfl, ?_⟩
  intro bag
  rw [get?_remove, if_neg]
  intro hk
  exact h (Key.ofNames_inj.1 hk).2

/-! ## What filing tells -/

theorem of_newBag? {tier : Tier} {t : Tiddler} {bag : Container} (h : tier.newBag? t = some bag) :
    t.bag = some bag ∧ tier.kind = .synced ∧ tier.hasSeen bag = false := by
  obtain ⟨hbag, hnew⟩ := Option.filter_eq_some_iff.1 h
  rw [Bool.and_eq_true, Bool.not_eq_true', beq_iff_eq] at hnew
  exact ⟨hbag, hnew⟩

/-- Filing tells that a bag has come into view, or that what is filed has changed. -/
theorem mem_events_reconcile (tier : Tier) {now : Instant} {t : Tiddler} {e : Event}
    (he : e ∈ (tier.reconcile now t).events) :
    (∃ bag, tier.newBag? t = some bag ∧ e = .bagSeen bag) ∨ e = .changed (tier.stamped now t) := by
  rcases List.mem_append.1 he with he | he
  · obtain ⟨bag, hbag, rfl⟩ := Option.map_eq_some_iff.1 (Option.mem_toList.1 he)
    exact .inl ⟨bag, hbag, rfl⟩
  · split at he
    · exact .inr (List.mem_singleton.1 he)
    · exact absurd he List.not_mem_nil

/-! ## Withdrawing -/

/-- Drops what a lookup by title alone finds, for one title after the other. -/
def withdrawAll (tier : Tier) (titles : List String) : Tier :=
  titles.foldl (fun tier title => (tier.withdraw { title }).1) tier

theorem withdrawAll_append (tier : Tier) (xs ys : List String) :
    tier.withdrawAll (xs ++ ys) = (tier.withdrawAll xs).withdrawAll ys :=
  List.foldl_append

@[simp] theorem kind_withdraw (tier : Tier) (w : Tiddler) :
    (tier.withdraw w).1.kind = tier.kind := by
  unfold withdraw
  split <;> rfl

theorem Sound.withdraw {tier : Tier} (h : tier.Sound) (w : Tiddler) :
    (tier.withdraw w).1.Sound := by
  unfold Tier.withdraw
  split
  · exact h.remove _
  · exact h

theorem agreeOn_withdraw {tier : Tier} (h : tier.Sound) {w : Tiddler} {title : String}
    (hne : title ≠ w.title) : AgreeOn title tier (tier.withdraw w).1 := by
  unfold withdraw
  split
  · rename_i t ht
    exact agreeOn_remove ((h.of_get? ht).2.1.symm ▸ hne)
  · exact .refl _ _

theorem get?_of_get?_withdraw {tier : Tier} {w u : Tiddler} {k : String}
    (h : (tier.withdraw w).1.entries.get? k = some u) : tier.entries.get? k = some u := by
  unfold withdraw at h
  split at h
  · exact get?_of_get?_remove h
  · exact h

@[simp] theorem kind_withdrawAll (tier : Tier) (titles : List String) :
    (tier.withdrawAll titles).kind = tier.kind := by
  induction titles generalizing tier with
  | nil => rfl
  | cons title titles ih => exact (ih _).trans (kind_withdraw tier _)

theorem Sound.withdrawAll {tier : Tier} (h : tier.Sound) (titles : List String) :
    (tier.withdrawAll titles).Sound := by
  induction titles generalizing tier with
  | nil => exact h
  | cons title titles ih => exact ih (h.withdraw _)

/-- Titles that are not withdrawn keep what they have. -/
theorem agreeOn_withdrawAll {tier : Tier} (h : tier.Sound) {titles : List String} {title : String}
    (hnot : title ∉ titles) : AgreeOn title tier (tier.withdrawAll titles) := by
  induction titles generalizing tier with
  | nil => exact .refl _ _
  | cons first titles ih =>
    have hfirst : title ≠ first := fun heq => hnot (heq ▸ List.mem_cons_self)
    have hrest : title ∉ titles := fun hm => hnot (List.mem_cons_of_mem _ hm)
    exact (agreeOn_withdraw h hfirst).trans (ih (h.withdraw _) hrest)

/-- Withdrawing brings nothing in. -/
theorem get?_of_get?_withdrawAll {tier : Tier} {titles : List String} {u : Tiddler} {k : String}
    (h : (tier.withdrawAll titles).entries.get? k = some u) : tier.entries.get? k = some u := by
  induction titles generalizing tier with
  | nil => exact h
  | cons title titles ih => exact get?_of_get?_withdraw (ih h)

end Tier

end TiddlerShelf
