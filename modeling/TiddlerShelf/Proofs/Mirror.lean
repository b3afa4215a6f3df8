import TiddlerShelf.Proofs.Bagged
import TiddlerShelf.Proofs.Copies
import TiddlerShelf.Proofs.Edits
import TiddlerShelf.Proofs.Wire

/-! # Caches that mirror a tier

A tier and its cache work out their keys apart from each other, and only the tier has tiddlers
without a bag. Still the cache keeps the tiddlers of the tier that have a bag, in their order: what
the tier does to its entries comes to the same as what the cache does to its own, as long as no bag
has the empty name, which the keys of tiddlers without a bag begin with. -/

namespace TiddlerShelf

namespace Keyed

variable {κ α : Type} [DecidableEq κ] {t : Keyed κ α}

/-- The entries of a table are its values with their keys. -/
theorem map_values {f : α → κ} (h : ∀ {k a}, t.get? k = some a → f a = k) :
    (t.values.map fun a => (f a, a)) = t.entries := by
  show ((t.entries.map Prod.snd).map _) = _
  rw [List.map_map]
  refine (List.map_congr_left fun e he => ?_).trans (List.map_id t.entries)
  exact Prod.ext (h (get?_eq_some_iff.2 he)) rfl

end Keyed

namespace Tiddler

/-- Whether a tiddler may be handed to a store that has a cache: its bag, if it has one, has a name,
and its revision fits into a word. -/
structure Keepable (t : Tiddler) : Prop where
  bag : ∀ bag ∈ t.bag, bag.name ≠ ""
  revision : ∀ r ∈ t.revision, r < Json.wordLimit

theorem Keepable.isPlaced {t : Tiddler} (h : t.Keepable) : t.IsPlaced := h.bag

theorem Keepable.asEdit {t : Tiddler} (h : t.Keepable) : t.asEdit.Keepable := ⟨h.bag, h.revision⟩

theorem durableKey?_of_isSome {t : Tiddler} (h : t.bag.isSome) : t.durableKey? = some t.key := by
  obtain ⟨bag, heq⟩ := Option.isSome_iff_exists.1 h
  unfold durableKey? key bagName
  rw [heq]
  rfl

theorem durableKey?_of_none {t : Tiddler} (h : t.bag = none) : t.durableKey? = none := by
  unfold durableKey? bagName
  rw [h]
  rfl

end Tiddler

namespace CacheFile

@[simp] theorem quota_write (f : CacheFile) (entries : Keyed String Tiddler) :
    (f.write entries).quota = f.quota := by
  unfold write
  split <;> rfl

@[simp] theorem blocked_write (f : CacheFile) (entries : Keyed String Tiddler) :
    (f.write entries).blocked = f.blocked := by
  unfold write
  split <;> rfl

/-- What is written into a file reads back, if nothing blocks the file. -/
theorem load?_write {f : CacheFile} {entries : Keyed String Tiddler} (hblocked : f.blocked = false)
    (h : ∀ e ∈ entries.entries, e.2.Writable) : (f.write entries).load? = some entries := by
  have hwrite : f.write entries = { f with text := some (textOfEntries entries) } := by
    unfold write
    rw [hblocked]
    exact if_neg Bool.false_ne_true
  rw [hwrite]
  unfold load?
  dsimp only
  rw [hblocked]
  exact entriesOfText?_textOfEntries h

end CacheFile

namespace Cache

/-- Whether a cache keeps exactly the tiddlers of a table. A file does so if it can be read and
written and has no quota. -/
def Holds (table : Keyed String Tiddler) : Cache → Prop
  | none => False
  | memory entries => entries = table
  | file f => f.quota = Option.none ∧ f.blocked = false ∧ f.load? = some table

variable {c : Cache} {table : Keyed String Tiddler}

theorem Holds.list (h : c.Holds table) : c.list = table.values := by
  cases c with
  | none => cases h
  | memory entries => exact congrArg Keyed.values h
  | file f =>
    obtain ⟨-, -, hload⟩ := h
    show (f.load?.map Keyed.values).getD [] = _
    rw [hload]
    rfl

/-- A file that can be written and has no quota keeps what is written. -/
theorem holds_write {f : CacheFile} (hquota : f.quota = Option.none) (hblocked : f.blocked = false)
    (h : ∀ e ∈ table.entries, e.2.Writable) : (Cache.file (f.write table)).Holds table :=
  ⟨(f.quota_write table).trans hquota, (f.blocked_write table).trans hblocked,
    CacheFile.load?_write hblocked h⟩

theorem Holds.set (h : c.Holds table) {t : Tiddler} {key : String} (hkey : t.durableKey? = some key)
    (hwritable : ∀ e ∈ (table.insert key t).entries, e.2.Writable) :
    (c.set t).Holds (table.insert key t) := by
  cases c with
  | none => cases h
  | memory entries =>
    obtain rfl : entries = table := h
    unfold Cache.set
    rw [hkey]
    rfl
  | file f =>
    obtain ⟨hquota, hblocked, hload⟩ := h
    have hadmits : f.admits table key = true := by
      unfold CacheFile.admits
      rw [hquota]
      exact Bool.or_true _
    have hset : f.set t = f.write (table.insert key t) := by
      unfold CacheFile.set
      rw [hkey, hload]
      exact if_pos hadmits
    show (Cache.file (f.set t)).Holds _
    rw [hset]
    exact holds_write hquota hblocked hwritable

theorem Holds.remove (h : c.Holds table) {t : Tiddler} {key : String}
    (hkey : t.durableKey? = some key) (hwritable : ∀ e ∈ table.entries, e.2.Writable) :
    (c.remove t).Holds (table.erase key) := by
  cases c with
  | none => cases h
  | memory entries =>
    obtain rfl : entries = table := h
    unfold Cache.remove
    rw [hkey]
    rfl
  | file f =>
    obtain ⟨hquota, hblocked, hload⟩ := h
    have hremove : f.remove t = f.write (table.erase key) := by
      unfold CacheFile.remove
      rw [hkey, hload]
    show (Cache.file (f.remove t)).Holds _
    rw [hremove]
    exact holds_write hquota hblocked fun e he => hwritable e (List.mem_filter.1 he).1

/-- A tiddler without a key makes no difference to a cache. -/
theorem set_of_none {t : Tiddler} (h : t.durableKey? = Option.none) (c : Cache) : c.set t = c := by
  cases c with
  | none => rfl
  | memory entries =>
    unfold Cache.set
    rw [h]
  | file f =>
    unfold Cache.set CacheFile.set
    rw [h]

theorem remove_of_none {t : Tiddler} (h : t.durableKey? = Option.none) (c : Cache) :
    c.remove t = c := by
  cases c with
  | none => rfl
  | memory entries =>
    unfold Cache.remove
    rw [h]
  | file f =>
    unfold Cache.remove CacheFile.remove
    rw [h]

end Cache

namespace Tier

/-- Whether all that a tier of edits holds may be kept, and its cache keeps just what has a bag. -/
structure Mirrored (tier : Tier) : Prop where
  sound : tier.Sound
  kind : tier.kind = .modified
  keepable : ∀ {k t}, tier.entries.get? k = some t → t.Keepable
  cache : tier.cache.Holds tier.bagged

variable {tier : Tier}

theorem Mirrored.named (h : tier.Mirrored) : tier.Named :=
  ⟨h.sound, fun ht => (h.keepable ht).isPlaced⟩

theorem Mirrored.unstamped (h : tier.Mirrored) {k : String} {t : Tiddler}
    (ht : tier.entries.get? k = some t) : t.lastSync = none := by
  have hstamp : t.lastSync.isSome = (tier.kind == .synced) := h.sound.stamped ht
  rw [h.kind] at hstamp
  exact Option.isNone_iff_eq_none.1 (Option.isSome_eq_false_iff.1 hstamp)

theorem Mirrored.writable (h : tier.Mirrored) :
    ∀ e ∈ tier.bagged.entries, e.2.Writable := by
  intro e he
  have hget : tier.entries.get? e.1 = some e.2 :=
    (Keyed.get?_of_get?_filterValues (Keyed.get?_eq_some_iff.2 he)).1
  exact ⟨h.unstamped hget, (h.keepable hget).revision⟩

theorem cache_file (tier : Tier) (t : Tiddler) : (tier.file t).cache = tier.cache.set t := by
  unfold file
  cases t.bag <;> rfl

theorem Mirrored.file (h : tier.Mirrored) {t : Tiddler} (ht : t.Keepable)
    (hstamp : t.lastSync = none) : (tier.file t).Mirrored := by
  have hsynced : t.isSynced = (tier.kind == .synced) := by
    rw [h.kind, Tiddler.isSynced, hstamp]
    rfl
  have hkeepable : ∀ {k u}, (tier.file t).entries.get? k = some u → u.Keepable := by
    intro k u hu
    rcases of_get?_file hu with ⟨-, rfl⟩ | hu
    · exact ht
    · exact h.keepable hu
  refine ⟨h.sound.file hsynced, (kind_file _ _).trans h.kind, hkeepable, ?_⟩
  rw [cache_file]
  cases hbag : t.bag with
  | none =>
    rw [h.named.bagged_file_of_none hbag, Cache.set_of_none (Tiddler.durableKey?_of_none hbag)]
    exact h.cache
  | some bag =>
    have hsome : t.bag.isSome := hbag ▸ rfl
    rw [h.named.bagged_file_of_isBagged (ht.isPlaced.isBagged hsome)]
    refine h.cache.set (Tiddler.durableKey?_of_isSome hsome) fun e he => ?_
    have hget := Keyed.get?_eq_some_iff.2 he
    rw [Keyed.get?_insert] at hget
    split at hget
    · exact Option.some.inj hget ▸ ⟨hstamp, ht.revision⟩
    · exact h.writable e (Keyed.get?_eq_some_iff.1 hget)

/-! ## Dropping edits -/

theorem Mirrored.remove (h : tier.Mirrored) {t : Tiddler} : (tier.remove t).Mirrored := by
  refine ⟨h.sound.remove t, h.kind, fun hu => h.keepable (get?_of_get?_remove hu), ?_⟩
  show (tier.cache.remove t).Holds _
  rw [bagged_remove]
  cases hbag : t.bag with
  | none =>
    rw [Cache.remove_of_none (Tiddler.durableKey?_of_none hbag), Tiddler.key_of_none hbag,
      Keyed.erase_of_get?_eq_none (h.named.get?_bagged_ofNames t.title)]
    exact h.cache
  | some bag => exact h.cache.remove (Tiddler.durableKey?_of_isSome (hbag ▸ rfl)) h.writable

theorem Mirrored.withdraw (h : tier.Mirrored) (w : Tiddler) : (tier.withdraw w).1.Mirrored := by
  unfold Tier.withdraw
  split
  · exact h.remove
  · exact h

theorem Mirrored.withdrawAll (h : tier.Mirrored) (titles : List String) :
    (tier.withdrawAll titles).Mirrored := by
  induction titles generalizing tier with
  | nil => exact h
  | cons title titles ih => exact ih (h.withdraw _)

/-! ## What the cache lists -/

/-- The cache lists just the tiddlers of the tier that have a bag, in the same order. -/
theorem Mirrored.list (h : tier.Mirrored) :
    tier.cache.list = tier.tiddlers.filter (·.bag.isSome) :=
  h.cache.list.trans (Keyed.values_filterValues _ _)

theorem Mirrored.of_mem (h : tier.Mirrored) {t : Tiddler} (ht : t ∈ tier.tiddlers) :
    t.Keepable ∧ t.lastSync = none ∧ tier.entries.get? t.key = some t := by
  obtain ⟨k, hk⟩ := Keyed.mem_values_iff.1 ht
  exact ⟨h.keepable hk, h.unstamped hk, (h.sound.keyed hk).symm ▸ hk⟩

theorem entries_file_of_isBagged {t : Tiddler} (ht : t.IsBagged)
    (h : tier.entries.get? (Key.ofNames "" t.title) = none) :
    (tier.file t).entries = tier.entries.insert t.key t := by
  obtain ⟨bag, hbag⟩ := Option.ne_none_iff_exists'.1 ht.bag_ne_none
  unfold file
  rw [hbag]
  show (tier.entries.erase _).insert _ _ = _
  rw [Keyed.erase_of_get?_eq_none h]

/-- Filing tiddlers of named bags one after the other puts them in as they come, where nothing
stands that has no bag. -/
theorem entries_foldl_file {ts : List Tiddler} (hts : ∀ t ∈ ts, t.IsBagged)
    (h : ∀ title, tier.entries.get? (Key.ofNames "" title) = none) :
    (ts.foldl file tier).entries =
      (ts.map fun t => (t.key, t)).foldl (fun u e => u.insert e.1 e.2) tier.entries := by
  induction ts generalizing tier with
  | nil => rfl
  | cons t ts ih =>
    have ht : t.IsBagged := hts t List.mem_cons_self
    have hfile := entries_file_of_isBagged ht (h t.title)
    have hnone : ∀ title, (tier.file t).entries.get? (Key.ofNames "" title) = none := by
      intro title
      rw [hfile, Keyed.get?_insert, if_neg (ht.key_ne title).symm]
      exact h title
    rw [List.foldl_cons, ih (fun u hu => hts u (List.mem_cons_of_mem t hu)) hnone, hfile]
    rfl

/-- Filing what the cache lists in a tier that holds nothing brings just that back, in the same
order. -/
theorem Mirrored.tiddlers_restored (h : tier.Mirrored) {empty : Tier}
    (hempty : empty.entries = .empty) :
    (tier.cache.list.foldl Tier.file empty).tiddlers = tier.cache.list := by
  have hlist : tier.cache.list = tier.bagged.values := h.cache.list
  have hbagged : ∀ t ∈ tier.bagged.values, t.IsBagged := by
    intro t ht
    obtain ⟨k, hk⟩ := Keyed.mem_values_iff.1 ht
    exact (h.named.isBagged hk).1
  have hentries : (tier.bagged.values.map fun t => (t.key, t)) = tier.bagged.entries :=
    Keyed.map_values fun hk => (h.named.isBagged hk).2
  unfold tiddlers
  rw [hlist, entries_foldl_file hbagged (by simp [hempty]), hentries, hempty]
  exact congrArg Keyed.values (Keyed.ofList_entries tier.bagged)

theorem mirrored_of_empty {cache : Cache} (h : cache.Holds .empty) :
    Mirrored { kind := .modified, cache } :=
  ⟨sound_of_entries_empty rfl, rfl, fun hget => absurd hget.symm (Option.some_ne_none _), h⟩

end Tier

end TiddlerShelf
