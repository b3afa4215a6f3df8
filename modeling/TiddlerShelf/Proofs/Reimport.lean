import TiddlerShelf.Proofs.Refiling
import TiddlerShelf.Proofs.Restarts

/-! # Cached edits filed again

A store can be told to file again what its cache keeps. If that is just the edits that have a bag,
each of them stands under its key already, so that filing it moves nothing and is no news. It clears
the place of its title without a bag, though: an edit without a bag goes if there is one of the same
title in a bag (`pending_after_reimport`). -/

namespace TiddlerShelf

open Program

/-- Whether filing a tiddler, which has a bag, drops another of the same title that has none. -/
def Tiddler.evicts (t u : Tiddler) : Bool := t.bag.isSome && u.bag.isNone && u.title == t.title

theorem Tiddler.isSome_and_evicts (t u : Tiddler) : (t.bag.isSome && t.evicts u) = t.evicts u := by
  unfold evicts
  rw [← Bool.and_assoc, ← Bool.and_assoc, Bool.and_self]

namespace Tier

variable {tier : Tier} {t u : Tiddler}

theorem Named.evicts_iff (h : tier.Named) (ht : t.bag.isSome) {k : String}
    (hu : tier.entries.get? k = some u) : t.evicts u = true ↔ k = Key.ofNames "" t.title := by
  have hkey : u.key = k := h.keyed hu
  cases hbag : u.bag with
  | none =>
    rw [← hkey, Tiddler.key_of_none hbag, Key.ofNames_inj, Tiddler.evicts, ht, hbag]
    simp
  | some bag =>
    have hbagged : u.IsBagged := (h.placed hu).isBagged (hbag ▸ rfl)
    refine iff_of_false ?_ (hkey ▸ hbagged.key_ne t.title)
    rw [Tiddler.evicts, hbag]
    simp

/-- Filing a tiddler where it stands drops nothing but one of its title that has no bag. -/
theorem Named.tiddlers_file_filed (h : tier.Named) (ht : t.bag.isSome)
    (hfiled : tier.entries.get? t.key = some t) :
    (tier.file t).tiddlers = tier.tiddlers.filter (!t.evicts ·) := by
  have hbagged : t.IsBagged := (h.placed hfiled).isBagged ht
  have hkept : (tier.entries.erase (Key.ofNames "" t.title)).get? t.key = some t := by
    rw [Keyed.get?_erase, if_neg (hbagged.key_ne t.title), hfiled]
  have hentries : (tier.file t).entries = tier.entries.erase (Key.ofNames "" t.title) := by
    rw [entries_file, if_pos ht]
    exact Keyed.ext_entries (Keyed.put_eq_self hkept)
  unfold tiddlers
  rw [hentries]
  show (tier.entries.entries.filter _).map Prod.snd = (tier.entries.entries.map Prod.snd).filter _
  rw [List.filter_map]
  refine congrArg _ (List.filter_congr fun e he => ?_)
  have hevicts := h.evicts_iff ht (Keyed.get?_eq_some_iff.2 he)
  rw [Bool.eq_iff_iff, decide_eq_true_iff, Function.comp_apply, Bool.not_eq_true', ne_eq, ← hevicts,
    Bool.not_eq_true]

/-- Whether tiddlers of named bags stand under their keys in a tier. -/
structure HasFiled (tier : Tier) (ts : List Tiddler) : Prop extends Named tier where
  bagged : ∀ t ∈ ts, t.bag.isSome
  filed : ∀ t ∈ ts, tier.entries.get? t.key = some t

/-- Those that are still to be filed again stay where they are. -/
theorem HasFiled.file {ts : List Tiddler} (h : tier.HasFiled (t :: ts)) :
    (tier.file t).HasFiled ts := by
  have ht := h.filed t List.mem_cons_self
  refine ⟨h.toNamed.file (h.placed ht) (h.stamped ht), fun u hu => ?_, fun u hu => ?_⟩
  · exact h.bagged u (List.mem_cons_of_mem t hu)
  · have hfiled := h.filed u (List.mem_cons_of_mem t hu)
    have hbagged : u.IsBagged :=
      (h.placed hfiled).isBagged (h.bagged u (List.mem_cons_of_mem t hu))
    rw [get?_file]
    split
    · rename_i hkey
      rw [← ht, ← hkey, hfiled]
    · rw [if_neg fun hcleared => hbagged.key_ne t.title hcleared.2, hfiled]

/-- Filing tiddlers again, one after the other, drops those that any of them evicts. -/
theorem HasFiled.tiddlers_foldl_file {ts : List Tiddler} (h : tier.HasFiled ts) :
    (ts.foldl Tier.file tier).tiddlers = tier.tiddlers.filter fun u => !ts.any (·.evicts u) := by
  induction ts generalizing tier with
  | nil => exact (List.filter_eq_self.2 fun _ _ => rfl).symm
  | cons t ts ih =>
    have hbag : t.bag.isSome := h.bagged t List.mem_cons_self
    have hfiled : tier.entries.get? t.key = some t := h.filed t List.mem_cons_self
    rw [List.foldl_cons, ih h.file, h.tiddlers_file_filed hbag hfiled, List.filter_filter]
    refine List.filter_congr fun u _ => ?_
    rw [List.any_cons, Bool.not_or, Bool.and_comm]

/-- An edit that is filed where it stands is no news. -/
theorem Sound.reconcile_filed (h : tier.Sound) (hkind : tier.kind = .modified)
    (hfiled : tier.entries.get? t.key = some t) (now : Instant) :
    (tier.reconcile now t).tier = tier.file t ∧ (tier.reconcile now t).events = [] := by
  have hstamp : t.isSynced = (tier.kind == .synced) := h.stamped hfiled
  rw [hkind] at hstamp
  have hstored : tier.stamped now t = t := by
    rw [stamped_modified hkind, Tiddler.asEdit,
      ← Option.isNone_iff_eq_none.1 (Option.isSome_eq_false_iff.1 hstamp)]
  have hnews : isNews (tier.get? t) t = false := by
    rw [get?_of_key hfiled]
    simp [isNews, Tiddler.sameAs_refl, hstamp]
  have hbag : tier.newBag? t = none :=
    Option.filter_eq_none_iff.2 fun bag _ => by simp [hkind]
  unfold reconcile
  rw [hstored]
  refine ⟨rfl, ?_⟩
  dsimp only
  rw [hnews, hbag, Bool.and_false]
  rfl

end Tier

namespace Store

/-- A store with others who listen. -/
def withAudience (s : Store) (audience : Audience) : Store := { s with audience }

variable {s : Store}

theorem fileModified_filed (h : s.Sound) {t : Tiddler}
    (hfiled : s.modified.entries.get? t.key = some t) :
    (s.fileModified t).2 = { s with modified := s.modified.file t } := by
  obtain ⟨htier, hevents⟩ := h.modified.reconcile_filed h.kind_modified hfiled s.clock
  unfold fileModified
  dsimp only
  rw [htier, hevents, announce_nil]

/-- Filing edits again, one after the other, is noticed by nobody. -/
theorem foldl_fileModified_filed (h : s.Sound) {ts : List Tiddler}
    (hts : s.modified.HasFiled ts) : ts.foldl (fun s t => (s.fileModified t).2) s =
      { s with modified := ts.foldl Tier.file s.modified } := by
  induction ts generalizing s with
  | nil => rfl
  | cons t ts ih =>
    have hrest := hts.file
    rw [List.foldl_cons, fileModified_filed h (hts.filed t List.mem_cons_self), ih _ hrest]
    · rfl
    · exact h.with_modified hrest.toSound ((Tier.kind_file _ _).trans h.kind_modified)

end Store

namespace Activity

/-- In every activity whose cache lists just the pending edits that have a bag, where every bag has
a name, filing again what the cache lists leaves the pending edits as they are and in their order,
but for those without a bag whose title is pending in a bag. The rest of the store stays as it is,
and whoever listens hears nothing. -/
theorem pending_after_reimport {a : Activity} (ha : a.Reachable)
    (hnamed : ∀ t ∈ a.store.pending, t.IsPlaced)
    (hmirror : a.store.modified.cache.list = a.store.pending.filter (·.bag.isSome))
    (audience : Audience) :
    let s := a.store.withAudience audience
    s.retrieveCached.2.pending = s.pending.filter (fun u => !s.pending.any (·.evicts u)) ∧
      s.retrieveCached.2 = { s with modified := s.retrieveCached.2.modified } := by
  intro s
  have hsound : s.Sound := ha.sound.store.of_tiers rfl rfl
  have hbagged : ∀ t ∈ s.modified.cache.list, t ∈ s.pending ∧ t.bag.isSome := by
    intro t ht
    rwa [show s.modified.cache.list = _ from hmirror, List.mem_filter] at ht
  have hts : s.modified.HasFiled s.modified.cache.list := by
    refine ⟨⟨hsound.modified, fun ht => hnamed _ (Keyed.mem_values_iff.2 ⟨_, ht⟩)⟩,
      fun t ht => (hbagged t ht).2, fun t ht => ?_⟩
    obtain ⟨k, hk⟩ := Keyed.mem_values_iff.1 (hbagged t ht).1
    rw [hsound.modified.keyed hk, hk]
  have hafter : s.retrieveCached.2 =
      { s with modified := s.modified.cache.list.foldl Tier.file s.modified } :=
    Store.foldl_fileModified_filed hsound hts
  have hany (u : Tiddler) :
      s.modified.cache.list.any (·.evicts u) = s.pending.any (·.evicts u) := by
    rw [show s.modified.cache.list = _ from hmirror, List.any_filter]
    simp only [Tiddler.isSome_and_evicts]
    rfl
  have hpending : s.retrieveCached.2.pending =
      s.pending.filter fun u => !s.modified.cache.list.any (·.evicts u) := by
    rw [hafter]
    exact hts.tiddlers_foldl_file
  simp only [hany] at hpending
  exact ⟨hpending, by rw [hafter]⟩

/-- A tier of edits with two that have no bag, one of them of a title that is pending in a bag. -/
def shadowedEdits : Tier :=
  ((({ kind := .modified, cache := .memory .empty } : Tier).file (.draft "notes" "one")).file
    { title := "T", text := "two" }).file { title := "U" }

/-- These edits come about when they are added while the defaults are not known. -/
theorem exists_shadowedEdits : ∃ a : Activity,
    a.Reachable ∧ a.store.audience.Silent ∧ a.store.modified = shadowedEdits := by
  let a₀ := start {} ⟨0, 0⟩ none (.memory .empty)
  let a₁ := a₀.added (.draft "notes" "one")
  let a₂ := a₁.call (.add { title := "T", text := "two" })
  let a₃ := a₂.call (.add { title := "U" })
  have hreach₁ : a₁.Reachable := (Reachable.start _ _ _ _).added Audience.silent_empty rfl
  have hsilent₁ : a₁.store.audience.Silent := Audience.silent_empty
  have hreach₂ : a₂.Reachable := hreach₁.step (step_call a₁ _)
  have hsilent₂ : a₂.store.audience.Silent := by
    rw [(step_call a₁ _).audience_of_go hreach₁.sound hsilent₁]
    exact hsilent₁
  have hmodified₂ : a₂.store.modified = a₁.store.modified.file { title := "T", text := "two" } := by
    show (a₁.store.fileModified { title := "T", text := "two" }).2.modified = _
    rw [Store.fileModified_of_silent hreach₁.sound.store hsilent₁]
    rfl
  have hmodified₃ : a₃.store.modified = a₂.store.modified.file { title := "U" } := by
    show (a₂.store.fileModified { title := "U" }).2.modified = _
    rw [Store.fileModified_of_silent hreach₂.sound.store hsilent₂]
    rfl
  have hsilent₃ : a₃.store.audience.Silent := by
    rw [(step_call a₂ _).audience_of_go hreach₂.sound hsilent₂]
    exact hsilent₂
  refine ⟨a₃, hreach₂.step (step_call a₂ _), hsilent₃, ?_⟩
  rw [hmodified₃, hmodified₂]
  rfl

/-- Of the two edits without a bag one is left, and whoever listens hears nothing. -/
theorem shadowed_edit_goes : ∃ a : Activity, a.Reachable ∧ a.store.modified = shadowedEdits ∧
    ∀ audience, let s := a.store.withAudience audience
      s.retrieveCached.2.pending = [.draft "notes" "one", { title := "U" }] ∧
        s.retrieveCached.2.audience = audience := by
  obtain ⟨a, hreach, -, hmodified⟩ := exists_shadowedEdits
  have hpending : a.store.pending =
      [.draft "notes" "one", { title := "T", text := "two" }, { title := "U" }] := by
    unfold Store.pending
    rw [hmodified]
    decide +kernel
  have hnamed : ∀ t ∈ a.store.pending, t.IsPlaced := by
    rw [hpending]
    decide
  have hlist : a.store.modified.cache.list = a.store.pending.filter (·.bag.isSome) := by
    rw [hpending, hmodified]
    decide +kernel
  refine ⟨a, hreach, hmodified, fun audience => ?_⟩
  obtain ⟨hafter, hrest⟩ := pending_after_reimport hreach hnamed hlist audience
  refine ⟨?_, congrArg Store.audience hrest⟩
  rw [hafter]
  show a.store.pending.filter (fun u => !a.store.pending.any (·.evicts u)) = _
  rw [hpending]
  decide

/-- Filing again what the cache lists may drop an edit that has no bag, and it moves one whose bag
has no name. -/
theorem reimport_changes_pending :
    (∃ a : Activity, a.Reachable ∧ a.store.modified = shadowedEdits ∧
      a.store.modified.cache.list = a.store.pending.filter (·.bag.isSome) ∧
      { title := "T", text := "two" } ∈ a.store.pending ∧
      { title := "T", text := "two" } ∉ a.store.retrieveCached.2.pending) ∧
    ∃ a : Activity, a.Reachable ∧
      a.store.modified.cache.list = a.store.pending.filter (·.bag.isSome) ∧
      a.store.pending = [.draft "" "one", { title := "U", bag := some (.bag "notes") }] ∧
      a.store.retrieveCached.2.pending =
        [{ title := "U", bag := some (.bag "notes") }, .draft "" "one"] := by
  constructor
  · obtain ⟨a, hreach, hsilent, hmodified⟩ := exists_shadowedEdits
    have hedits : ∀ t ∈ a.store.modified.cache.list, t.lastSync = none := by
      rw [hmodified]
      decide +kernel
    refine ⟨a, hreach, hmodified, ?_, ?_, ?_⟩
    · unfold Store.pending
      rw [hmodified]
      decide +kernel
    · unfold Store.pending
      rw [hmodified]
      decide +kernel
    · unfold Store.pending
      rw [Store.modified_retrieveCached hreach.sound.store hsilent hedits, hmodified]
      decide +kernel
  · let a₀ := start {} ⟨0, 0⟩ none (.memory .empty)
    let a₁ := a₀.added (.draft "" "one")
    let a₂ := a₁.added { title := "U", bag := some (.bag "notes") }
    have hreach₁ : a₁.Reachable := (Reachable.start _ _ _ _).added Audience.silent_empty rfl
    have hreach₂ : a₂.Reachable := hreach₁.added Audience.silent_empty rfl
    have hedits : ∀ t ∈ a₂.store.modified.cache.list, t.lastSync = none := by decide +kernel
    refine ⟨a₂, hreach₂, by decide +kernel, by decide +kernel, ?_⟩
    unfold Store.pending
    rw [Store.modified_retrieveCached hreach₂.sound.store Audience.silent_empty hedits]
    decide +kernel

end Activity

end TiddlerShelf
