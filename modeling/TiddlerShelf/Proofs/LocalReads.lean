import Mathlib.Data.List.Nodup
import TiddlerShelf.Proofs.BestCopies
import TiddlerShelf.Proofs.Unheard

/-! # Reading without the server

What a store has at hand can be read as a collection with one row per title, or title by title.
One way goes through the tiddlers of both tiers in order, the other looks the title up in each tier.
As long as no tier holds a title twice, they lead to the same copies (`local_reads_agree`). -/

namespace TiddlerShelf

open Tiddler (best?)

namespace Tiddler

/-- Among tiddlers that are not synced and then others that are, the best of a title is the
first. -/
theorem best?_append_of_isSynced {edits copies : List Tiddler}
    (hedits : ∀ t ∈ edits, t.isSynced = false) (hcopies : ∀ t ∈ copies, t.isSynced)
    (title : String) :
    best? (edits ++ copies) title = (edits.find? fun t => t.title = title).or
      (copies.find? fun t => t.title = title) := by
  have hnone : copies.find? (fun t => t.title = title ∧ t.isSynced = false) = none :=
    List.find?_eq_none.2 fun t ht => by simp [hcopies t ht]
  have hall : edits.find? (fun t => t.title = title ∧ t.isSynced = false) =
      edits.find? fun t => t.title = title := by
    rw [← List.head?_filter, ← List.head?_filter]
    exact congrArg _ (List.filter_congr fun t ht => by simp [hedits t ht])
  unfold best?
  rw [List.find?_append, List.find?_append, hnone, hall, Option.or_none, ← Option.or_assoc,
    Option.or_self]

end Tiddler

namespace Tier

variable {tier : Tier}

/-- Where no title comes twice, a lookup by title alone finds the tiddler of the title, whatever bag
it is in. -/
theorem Sound.get?_title_of_mem (h : tier.Sound)
    (hdistinct : (tier.tiddlers.map (·.title)).Nodup) {t : Tiddler} (ht : t ∈ tier.tiddlers) :
    tier.get? { title := t.title } = some t := by
  have hsome := (h.isSome_get?_bagless_iff (w := { title := t.title }) rfl).2 ⟨t, ht, rfl⟩
  obtain ⟨u, hu⟩ := Option.isSome_iff_exists.1 hsome
  obtain ⟨hentry, htitle, -⟩ := h.of_get? hu
  rw [hu, List.inj_on_of_nodup_map hdistinct (h.mem_tiddlers_iff.2 hentry) ht htitle]

theorem Sound.get?_title (h : tier.Sound) (hdistinct : (tier.tiddlers.map (·.title)).Nodup)
    (title : String) : tier.get? { title } = tier.tiddlers.find? fun t => t.title = title := by
  cases hfound : tier.tiddlers.find? fun t => t.title = title with
  | none =>
    rw [List.find?_eq_none] at hfound
    rw [← Option.not_isSome_iff_eq_none, h.isSome_get?_bagless_iff rfl]
    rintro ⟨t, ht, htitle⟩
    exact hfound t ht (decide_eq_true htitle)
  | some t =>
    have htitle := List.find?_some hfound
    obtain rfl : t.title = title := of_decide_eq_true htitle
    exact h.get?_title_of_mem hdistinct (List.mem_of_find?_eq_some hfound)

end Tier

namespace Store

variable {s : Store} {t : Tiddler}

theorem Sound.isSynced_of_pending (h : s.Sound) (ht : t ∈ s.pending) : t.isSynced = false := by
  rw [h.modified.stamped (h.modified.mem_tiddlers_iff.1 ht), h.kind_modified]
  rfl

theorem Sound.isSynced_of_synced (h : s.Sound) (ht : t ∈ s.synced.tiddlers) : t.isSynced := by
  rw [h.synced.stamped (h.synced.mem_tiddlers_iff.1 ht), h.kind_synced]
  rfl

/-- Where no tier holds a title twice, the best of all tiddlers with a title is what a lookup by
title finds. -/
theorem Sound.best?_tiddlers (h : s.Sound) (hpending : (s.pending.map (·.title)).Nodup)
    (hsynced : (s.synced.tiddlers.map (·.title)).Nodup) (title : String) :
    best? s.tiddlers title = s.getLocal? (.title title) := by
  have hbest := Tiddler.best?_append_of_isSynced (fun t => h.isSynced_of_pending)
    (fun t => h.isSynced_of_synced) title
  show best? (s.pending ++ s.synced.tiddlers) title =
    ((s.modified.get? { title }).or (s.synced.get? { title })).or none
  rw [hbest, Option.or_none, h.modified.get?_title hpending, h.synced.get?_title hsynced]
  rfl

/-- Whether rows are what a store has at hand, title by title. -/
structure HasAtHand (s : Store) (rows : List Tiddler) : Prop where
  once : (rows.map (·.title)).Nodup
  /-- There is a row of a title exactly if one of the tiers knows the title. -/
  known : ∀ title, title ∈ rows.map (·.title) ↔
    ∃ t, (t ∈ s.pending ∨ t ∈ s.synced.tiddlers) ∧ t.title = title
  /-- It is what a lookup by title finds. -/
  found : ∀ title t, t ∈ rows ∧ t.title = title ↔ s.getLocal? (.title title) = some t
  /-- It is the edit of the title if there is one. -/
  edits : ∀ t ∈ s.pending, t ∈ rows

end Store

namespace Activity

/-- Whatever a store has come to hold, if no tier holds a title twice, the collection of all
tiddlers with one row per title has for each title what a lookup by title finds. -/
theorem local_reads_agree {a : Activity} (ha : a.Reachable)
    (hpending : (a.store.pending.map (·.title)).Nodup)
    (hsynced : (a.store.synced.tiddlers.map (·.title)).Nodup) :
    a.store.HasAtHand (a.store.collection.apply .unique).tiddlers := by
  have h : a.store.Sound := ha.sound.store
  have hone := Collection.onePerTitle_bestCopies a.store.tiddlers
  have hfound : ∀ title t, t ∈ (Collection.bestCopies a.store.tiddlers).values ∧ t.title = title ↔
      a.store.getLocal? (.title title) = some t := by
    intro title t
    rw [← h.best?_tiddlers hpending hsynced, ← Option.mem_toList, ← Collection.filter_bestCopies,
      List.mem_filter, decide_eq_true_iff]
  refine ⟨hone.once, fun title => ?_, hfound, fun t ht => ?_⟩
  · show title ∈ (Collection.bestCopies a.store.tiddlers).values.map _ ↔ _
    rw [hone.titles, List.mem_eraseDups, List.mem_map]
    simp only [Store.tiddlers, List.mem_append]
    rfl
  · refine ((hfound t.title t).2 ?_).1
    show ((a.store.modified.get? { title := t.title }).or _).or _ = some t
    rw [h.modified.get?_title_of_mem hpending ht]
    rfl

/-- Two copies have been got, and one of them is hidden by an edit that is to go into another
bag. -/
theorem edit_hides_copy_of_other_bag :
    ∃ a : Activity, a.Reachable ∧ (a.store.pending.map (·.title)).Nodup ∧
      (a.store.synced.tiddlers.map (·.title)).Nodup ∧
      a.store.synced.tiddlers.map (fun t => (t.title, t.bagName)) =
        [("T", some "notes"), ("U", some "notes")] ∧
      a.store.pending = [.draft "other" "two"] ∧
      a.store.HasAtHand (a.store.collection.apply .unique).tiddlers := by
  let t : Tiddler := .draft "notes" "one"
  let u : Tiddler := { t with title := "U" }
  let edit : Tiddler := .draft "other" "two"
  have hstart : (start {} ⟨0, 0⟩ (some (.single (.bag "notes"))) .none).Reachable :=
    .start _ _ _ _
  obtain ⟨a, ha, hstore⟩ := hstart.exists_got Audience.silent_empty (.document t) t t rfl rfl
  obtain ⟨b, hb, hstore'⟩ := ha.exists_got (hstore ▸ Audience.silent_empty) (.document u) u u
    (by rw [hstore]; decide +kernel) (by rw [hstore]; decide +kernel)
  rw [hstore] at hstore'
  have hsilent : b.store.audience.Silent := hstore' ▸ Audience.silent_empty
  have hpending : (b.added edit).store.pending = [edit] := by
    show (b.store.withEdit edit).pending = _
    rw [hstore']
    decide +kernel
  have hsynced : (b.added edit).store.synced.tiddlers.map (fun t => (t.title, t.bagName)) =
      [("T", some "notes"), ("U", some "notes")] := by
    show b.store.synced.tiddlers.map _ = _
    rw [hstore']
    decide +kernel
  have hreach := hb.added hsilent (t := edit) rfl
  have hedits : ((b.added edit).store.pending.map (·.title)).Nodup := hpending ▸ by decide
  have hcopies : ((b.added edit).store.synced.tiddlers.map (·.title)).Nodup := by
    have htitles := congrArg (List.map Prod.fst) hsynced
    rw [List.map_map] at htitles
    exact htitles ▸ by decide
  exact ⟨_, hreach, hedits, hcopies, hsynced, hpending, local_reads_agree hreach hedits hcopies⟩

end Activity

end TiddlerShelf
