import TiddlerShelf.Proofs.Announcement
import TiddlerShelf.Store.Builder
import TiddlerShelf.Store.Refresh

/-! # Sound stores and quiet changes

Both tiers of a sound store are sound. A change of the store spares the edits if it drops only
those that listeners have withdrawn while it lasts. Everything that a store does on account
of what it reads is quiet: announcing, filing confirmed copies, dropping them, finding the place. -/

namespace TiddlerShelf.Store

/-- The rules that a store keeps to. -/
structure Sound (s : Store) : Prop where
  modified : s.modified.Sound
  synced : s.synced.Sound
  kind_modified : s.modified.kind = .modified
  kind_synced : s.synced.kind = .synced

theorem sound_fresh (config : Config) (clock : Instant) (defaults : Option Defaults)
    (cache : Cache) : (fresh config clock defaults cache).Sound :=
  ⟨Tier.sound_of_entries_empty rfl, Tier.sound_of_entries_empty rfl, rfl, rfl⟩

/-- Soundness is a matter of the two tiers alone. -/
theorem Sound.of_tiers {s s' : Store} (h : s.Sound) (hm : s'.modified = s.modified)
    (hs : s'.synced = s.synced) : s'.Sound :=
  ⟨hm ▸ h.modified, hs ▸ h.synced, hm ▸ h.kind_modified, hs ▸ h.kind_synced⟩

theorem Sound.with_modified {s : Store} (h : s.Sound) {edits : Tier} (hsound : edits.Sound)
    (hkind : edits.kind = .modified) : { s with modified := edits }.Sound :=
  ⟨hsound, h.synced, hkind, h.kind_synced⟩

theorem Sound.with_synced {s : Store} (h : s.Sound) {copies : Tier} (hsound : copies.Sound)
    (hkind : copies.kind = .synced) : { s with synced := copies }.Sound :=
  ⟨h.modified, hsound, h.kind_modified, hkind⟩

theorem Sound.dropModified {s : Store} (h : s.Sound) (t : Tiddler) : (s.dropModified t).Sound :=
  h.with_modified (h.modified.remove t) h.kind_modified

theorem Sound.dropSynced {s : Store} (h : s.Sound) (t : Tiddler) : (s.dropSynced t).Sound :=
  h.with_synced (h.synced.remove t) h.kind_synced

/-- A store with an edit filed, before anything is announced. -/
def withEdit (s : Store) (t : Tiddler) : Store := { s with modified := s.modified.file t.asEdit }

theorem Sound.withEdit {s : Store} (h : s.Sound) (t : Tiddler) : (s.withEdit t).Sound := by
  have hfits : t.asEdit.isSynced = (s.modified.kind == .synced) := by
    rw [h.kind_modified]
    rfl
  exact h.with_modified (h.modified.file hfits) ((Tier.kind_file _ _).trans h.kind_modified)

/-- Whether a store comes from another by a change that leaves the edits alone, but for those that
listeners have had withdrawn. -/
structure Spares (s s' : Store) : Prop where
  edits : ∃ titles, s'.modified = s.modified.withdrawAll titles ∧
    s'.audience.withdrawn = s.audience.withdrawn ++ titles
  sound : s.Sound → s'.Sound

/-- Whether such a change also leaves alone how far finding out the defaults is, and the audience
where nobody listens. -/
structure Quiet (s s' : Store) : Prop extends Spares s s' where
  resolver : s'.resolver = s.resolver
  silent : s.audience.Silent → s'.audience = s.audience

theorem Spares.of_withdrawAll {s s' : Store}
    (h : ∃ titles, s'.modified = s.modified.withdrawAll titles ∧
      s'.audience.withdrawn = s.audience.withdrawn ++ titles)
    (hsynced : s'.synced = s.synced) : Spares s s' := by
  refine ⟨h, ?_⟩
  intro hs
  obtain ⟨titles, htier, -⟩ := h
  refine ⟨?_, hsynced ▸ hs.synced, ?_, hsynced ▸ hs.kind_synced⟩
  · rw [htier]
    exact hs.modified.withdrawAll titles
  · rw [htier, Tier.kind_withdrawAll]
    exact hs.kind_modified

theorem Spares.refl (s : Store) : Spares s s :=
  ⟨⟨[], rfl, (List.append_nil _).symm⟩, id⟩

theorem Spares.trans {s s' s'' : Store} (h : Spares s s') (h' : Spares s' s'') :
    Spares s s'' := by
  obtain ⟨titles, htier, hlog⟩ := h.edits
  obtain ⟨titles', htier', hlog'⟩ := h'.edits
  refine ⟨⟨titles ++ titles', ?_, ?_⟩, h'.sound ∘ h.sound⟩
  · rw [htier', htier, Tier.withdrawAll_append]
  · rw [hlog', hlog, List.append_assoc]

theorem Quiet.refl (s : Store) : Quiet s s := ⟨.refl s, rfl, fun _ => rfl⟩

theorem Quiet.trans {s s' s'' : Store} (h : Quiet s s') (h' : Quiet s' s'') : Quiet s s'' := by
  refine ⟨h.toSpares.trans h'.toSpares, h'.resolver.trans h.resolver, ?_⟩
  intro hs
  have haudience := h.silent hs
  rw [h'.silent (haudience ▸ hs), haudience]

theorem Quiet.of_same_edits {s s' : Store} (hm : s'.modified = s.modified)
    (ha : s'.audience = s.audience) (hr : s'.resolver = s.resolver)
    (hs : s.Sound → s'.Sound) : Quiet s s' :=
  ⟨⟨⟨[], hm, by rw [ha, List.append_nil]⟩, hs⟩, hr, fun _ => ha⟩

theorem quiet_announce (s : Store) (events : List Event) : Quiet s (s.announce events) :=
  ⟨.of_withdrawAll (withdrawAll_announce s events) rfl, rfl,
    fun h => by rw [announce_of_silent h]⟩

theorem spares_perform (s : Store) (action : Action) : Spares s (s.perform action) :=
  .of_withdrawAll (withdrawAll_perform s action) rfl

theorem quiet_fileSynced (s : Store) (t : Tiddler) : Quiet s (s.fileSynced t).2 := by
  have hfile : Quiet s { s with synced := (s.synced.reconcile s.clock t).tier } := by
    refine .of_same_edits rfl rfl rfl fun h => h.with_synced ?_ ?_
    · exact h.synced.file (Tier.isSynced_stamped _ _ _)
    · exact (Tier.kind_file _ _).trans h.kind_synced
  exact hfile.trans (quiet_announce _ _)

theorem quiet_dropSynced (s : Store) (t : Tiddler) : Quiet s (s.dropSynced t) :=
  .of_same_edits rfl rfl rfl fun h => h.dropSynced t

theorem quiet_dropGone (s : Store) (t : Tiddler) : Quiet s (s.dropGone t) := by
  unfold dropGone
  split
  · exact (quiet_dropSynced s t).trans (quiet_announce _ _)
  · exact quiet_dropSynced s t

theorem quiet_register (s : Store) (source : Source) : Quiet s (s.register source) :=
  .of_same_edits rfl rfl rfl fun h => h.of_tiers rfl rfl

theorem quiet_moveTo (s : Store) (place : Container) : Quiet s (s.moveTo place) := by
  unfold moveTo
  split
  · exact .refl s
  · have hmove : Quiet s { s with location := some place } :=
      .of_same_edits rfl rfl rfl fun h => h.of_tiers rfl rfl
    exact (hmove.trans (quiet_register _ _)).trans (quiet_announce _ _)

end TiddlerShelf.Store
