import TiddlerShelf.Proofs.Invariants
import TiddlerShelf.Proofs.Mirror

/-! # Programs that keep the cache in step

The cache of a store is in step with its edits if it keeps just those that have a bag. Whatever
calls make a store do keeps it so, as long as every bag has a name: those of the tiddlers that are
handed over, of the copies that come back when they could not be sent, and the one that drafts are
filed in. -/

namespace TiddlerShelf

open Program

/-! ## Where drafts are filed -/

/-- Whether drafts get no bag without a name. -/
def Defaults.Named (d : Defaults) : Prop := d.pushTo.kind = .bag → d.pushTo.name ≠ ""

theorem Defaults.named_of_ofDiscovery? {found : Discovery} {host : String} {d : Defaults}
    (h : ofDiscovery? found host = some d) : d.Named := by
  unfold ofDiscovery? at h
  dsimp only at h
  split at h
  · split at h
    · rename_i bag hbag
      obtain rfl := Option.some.inj h
      obtain ⟨space, -, rfl⟩ := Option.map_eq_some_iff.1 hbag
      intro _ hempty
      exact absurd (congrArg String.toList hempty) (by simp)
    · obtain rfl := Option.some.inj h
      exact fun hkind => nomatch hkind
  · rename_i bag _ hbag
    obtain rfl := Option.some.inj h
    intro _
    have hname : bag ≠ "" := by simpa using (Option.filter_eq_some_iff.1 hbag).2
    exact hname
  · contradiction

theorem Session.named_of_defaultsOf {host : String} {answer : Except RemoteError Discovery}
    {d : Defaults} (h : defaultsOf host answer = .ok d) : d.Named := by
  unfold defaultsOf at h
  split at h
  · contradiction
  · split at h
    · rename_i hfound
      exact Except.ok.inj h ▸ Defaults.named_of_ofDiscovery? hfound
    · contradiction

theorem Container.name_ne_of_ofSpec {spec : String} {c : Container} (h : ofSpec spec = .ok c) :
    c.name ≠ "" := by
  unfold ofSpec at h
  split at h
  · contradiction
  · dsimp only at h
    split_ifs at h with hname <;> cases h <;> exact hname

theorem Config.name_ne_of_container? {config : Config} {spec : Option String} {c : Container}
    (h : config.container? spec = .ok (some c)) : c.name ≠ "" := by
  unfold container? at h
  cases spec with
  | none => cases h
  | some spec =>
    change (Container.ofSpec spec).map _ = _ at h
    cases hspec : Container.ofSpec spec with
    | error e =>
      rw [hspec] at h
      contradiction
    | ok container =>
      rw [hspec] at h
      cases h
      exact Container.name_ne_of_ofSpec (c := container) hspec

theorem Config.named_of_explicitDefaults {config : Config} {d : Defaults}
    (h : config.explicitDefaults = .ok (some d)) : d.Named := by
  unfold explicitDefaults at h
  cases hpull : config.container? config.pullFrom with
  | error e =>
    rw [hpull] at h
    contradiction
  | ok pull =>
    cases hpush : config.container? config.pushTo with
    | error e =>
      rw [hpull, hpush] at h
      contradiction
    | ok push =>
      rw [hpull, hpush] at h
      intro _
      cases pull <;> cases push <;> cases h
      · exact Config.name_ne_of_container? hpush
      · exact Config.name_ne_of_container? hpull
      · exact Config.name_ne_of_container? hpush

theorem Tiddler.Keepable.placeIn {t : Tiddler} (h : t.Keepable) {d : Defaults} (hd : d.Named) :
    (t.placeIn d.pushTo).Keepable := by
  unfold Tiddler.placeIn
  split
  · rename_i hkind
    refine ⟨fun bag hbag => ?_, h.revision⟩
    exact Option.mem_some.1 hbag ▸ hd hkind
  · exact ⟨h.bag, h.revision⟩

/-! ## Stores -/

namespace Store

/-- Whether the cache of a store keeps its edits, and the store knows of no default bag without a
name. -/
structure Cached (s : Store) : Prop where
  sound : s.Sound
  mirrored : s.modified.Mirrored
  named : ∀ {d}, s.resolver = .resolved d → d.Named

variable {s s' : Store}

theorem Cached.spares (h : s.Cached) (h' : s.Spares s') (hresolver : s'.resolver = s.resolver) :
    s'.Cached := by
  obtain ⟨titles, htier, -⟩ := h'.edits
  refine ⟨h'.sound h.sound, ?_, fun hd => h.named (hresolver ▸ hd)⟩
  rw [htier]
  exact h.mirrored.withdrawAll titles

theorem Cached.quiet (h : s.Cached) (h' : s.Quiet s') : s'.Cached :=
  h.spares h'.toSpares h'.resolver

theorem Cached.withResolver (h : s.Cached) {resolver : Resolver}
    (hnamed : ∀ d, resolver = .resolved d → d.Named) : (s.withResolver resolver).Cached :=
  ⟨h.sound.withResolver resolver, h.mirrored, fun hd => hnamed _ hd⟩

theorem Cached.withEdit (h : s.Cached) {t : Tiddler} (ht : t.Keepable) : (s.withEdit t).Cached :=
  ⟨h.sound.withEdit t, h.mirrored.file ht.asEdit rfl, h.named⟩

theorem Cached.dropping (h : s.Cached) (edit : Option Tiddler) : (s.dropping edit).Cached := by
  refine ⟨h.sound.dropping edit, ?_, ?_⟩
  · cases edit with
    | none => exact h.mirrored
    | some edit => exact h.mirrored.remove
  · cases edit <;> exact h.named

theorem kept_cached : Kept Tiddler.Keepable Cached :=
  ⟨Cached.sound, Cached.quiet, fun h ht => h.withEdit ht, Cached.dropping⟩

theorem Cached.fileModified (h : s.Cached) {t : Tiddler} (ht : t.Keepable) :
    (s.fileModified t).2.Cached :=
  kept_cached.fileModified h ht

theorem Cached.keepable_of_pending (h : s.Cached) {t : Tiddler} (ht : t ∈ s.pending) :
    t.Keepable :=
  (h.mirrored.of_mem ht).1

theorem Cached.keepable_of_get? (h : s.Cached) {w t : Tiddler} (ht : s.modified.get? w = some t) :
    t.Keepable :=
  h.mirrored.keepable (h.sound.modified.of_get? ht).1

theorem Cached.list (h : s.Cached) : s.modified.cache.list = s.pending.filter (·.bag.isSome) :=
  h.mirrored.list

/-- What the cache keeps may be filed again. -/
theorem Cached.retrieveCached (h : s.Cached) : s.retrieveCached.2.Cached := by
  refine kept_cached.retrieveCached h fun t ht => ?_
  rw [h.list] at ht
  exact h.keepable_of_pending (List.mem_of_mem_filter ht)

end Store

/-! ## Programs -/

namespace Program

/-- Whether what sets a stretch going may have come about: a copy that was sent may be kept, and
defaults give drafts no bag without a name. -/
def Cause.Fair : Cause → Prop
  | answered _ (.put t) _ => t.Keepable
  | resolved (.ok d) => d.Named
  | _ => True

/-- Whether a stretch goes on with the cache in step. -/
def Caches (k : Cause) (s₀ s : Store) : Prop := k.Fair → s₀.Cached → s.Cached

/-- The contract of stretches that keep the cache in step and send only what may be kept. -/
def caching : Contract := fun k s₀ s halt =>
  k.Fair → s₀.Cached → s.Cached ∧ ∀ t, halt = .asks (.put t) → t.Keepable

theorem Caches.over {k : Cause} {s₀ s : Store} (h : Caches k s₀ s) : caching k s₀ s .over :=
  fun hk hs => ⟨h hk hs, fun _ hput => nomatch hput⟩

theorem Caches.waits {k : Cause} {s₀ s : Store} (h : Caches k s₀ s) : caching k s₀ s .waits :=
  fun hk hs => ⟨h hk hs, fun _ hput => nomatch hput⟩

theorem Caches.quiet {k : Cause} {s₀ s s' : Store} (h : Caches k s₀ s) (h' : s.Quiet s') :
    Caches k s₀ s' :=
  fun hk hs => (h hk hs).quiet h'

theorem caches_self (k : Cause) (s : Store) : Caches k s s := fun _ hs => hs

/-! ### Saving -/

section Saving

variable {k : Cause} {s₀ s : Store} {t : Tiddler}

theorem meets_send (ht : k.Fair → s₀.Cached → t.Keepable) (h : Caches k s₀ s) :
    Meets caching (fun k s₀ s _ => Caches k s₀ s) (Store.send t) k s₀ s := by
  unfold Store.send
  rw [meets_store, meets_request]
  refine ⟨fun hk hs => ⟨h hk hs, ?_⟩, ?_⟩
  · intro u hu
    cases hu
    exact ht hk hs
  · intro answer s'
    have hnoted : Caches (.answered s (.put t) answer) s' (s'.afterPut s t answer) :=
      fun hsent hs' => Store.kept_cached.afterPut hs' s hsent answer
    cases answer with
    | ok response => exact hnoted
    | error cause => exact hnoted

theorem meets_saveTiddler (ht : t.Keepable) (h : Caches k s₀ s) :
    Meets caching (fun k s₀ s _ => Caches k s₀ s) (Store.saveTiddler t) k s₀ s := by
  unfold Store.saveTiddler Store.placed
  rw [meets_bind]
  by_cases hc : t.hasContainer
  · rw [if_pos hc]
    exact meets_send (fun _ _ => ht) h
  · rw [if_neg hc]
    refine meets_getDefaults ?_ ?_ ?_ ?_
    · intro d hd
      exact meets_send (fun hk hs => ht.placeIn ((h hk hs).named hd))
        (h.quiet (Store.quiet_moveTo _ _))
    · intro _
      exact h.waits
    · intro d s'
      exact meets_send (fun hd _ => ht.placeIn hd)
        ((caches_self _ s').quiet (Store.quiet_moveTo _ _))
    · intro e s'
      exact caches_self _ s'

theorem meets_save {target : Tiddler.Target}
    (ht : ∀ t, target.given?.or (s.modified.get? target.wanted) = some t → t.Keepable)
    (h : Caches k s₀ s) :
    Meets caching (fun k s₀ s _ => Caches k s₀ s) (Store.save target) k s₀ s := by
  unfold Store.save
  rw [meets_store]
  split
  · rename_i t hfound
    exact meets_saveTiddler (ht t hfound) h
  · split <;> exact h

end Saving

end Program

/-! ## Calls -/

namespace Call

/-- The tiddlers that a call may file among the edits as they are handed to it. -/
def handed : Call → List Tiddler
  | add t | addToCollection _ t | save (.document t) => [t]
  | saveCollection c => c.tiddlers
  | _ => []

theorem AddEdits.caching {t : Tiddler} (ht : t.Keepable) {k : Cause} {s₀ s : Store} {halt : Halt}
    (h : AddEdits t k s₀ s halt) : Program.caching k s₀ s halt := by
  cases h with
  | files _ => exact Caches.over fun _ hs => hs.fileModified ht
  | filesAndWaits _ _ => exact Caches.waits fun _ hs => hs.fileModified ht
  | filesAndPlaces _ hd =>
    refine Caches.over fun _ hs => ?_
    exact ((hs.fileModified ht).quiet (Store.quiet_moveTo _ _)).fileModified
      (ht.placeIn (hs.named hd))
  | places _ =>
    exact Caches.over fun hd hs => (hs.quiet (Store.quiet_moveTo _ _)).fileModified (ht.placeIn hd)
  | fails _ => exact (caches_self _ _).over

theorem DestroyEdits.caching {target : Tiddler.Target} {k : Cause} {s₀ s : Store} {halt : Halt}
    (h : DestroyEdits target k s₀ s halt) : Program.caching k s₀ s halt := by
  cases h with
  | asks _ => exact fun _ hs => ⟨hs, fun _ hput => nomatch hput⟩
  | forgets _ _ => exact Caches.over fun _ hs => Store.kept_cached.forget hs _
  | nothing _ _ => exact (caches_self _ _).over
  | deleted _ => exact Caches.over fun _ hs => Store.kept_cached.forget hs _
  | fails => exact (caches_self _ _).over

/-- What reading does keeps the cache in step, and it sends nothing. -/
theorem reading_caches : Reading Caches Request.IsRead where
  failed _ s := caches_self _ s
  found _ s := (caches_self _ s).quiet (Store.quiet_moveTo _ _)
  moveTo h _ := h.quiet (Store.quiet_moveTo _ _)
  fetch hr := hr.isRead
  fetched _ _ _ s := caches_self _ s
  register h _ _ := h.quiet (Store.quiet_register _ _)
  fileSynced h _ := h.quiet (Store.quiet_fileSynced _ _)
  dropGone h _ := h.quiet (Store.quiet_dropGone _ _)

theorem keeps_caching_of_reading {α : Type} {p : Program α} (h : Within Caches Request.IsRead p)
    (s : Store) : p.Keeps caching .called s s := by
  refine (h.keeps (caches_self .called s)).imp fun k s₀ s halt hwithin hk hs => ?_
  exact ⟨hwithin.1 hk hs, fun t hput => (hwithin.2 _ hput).elim⟩

/-- Every stretch of every call keeps the cache in step, if what is handed over may be kept. -/
theorem keeps_caching (c : Call) (hc : ∀ t ∈ c.handed, t.Keepable) {s : Store} (hs : s.Cached) :
    c.program.Keeps caching .called s s := by
  have hself := caches_self .called s
  have hover : ∀ {α : Type} {p : Program α},
      Meets caching (fun k s₀ s _ => Caches k s₀ s) p .called s s → p.Keeps caching .called s s :=
    fun h => h.mono fun _ _ _ _ => Caches.over
  cases c with
  | getDefaults => exact keeps_map.2 (keeps_caching_of_reading reading_caches.getDefaults s)
  | get target options =>
    exact keeps_map.2 (keeps_caching_of_reading (reading_caches.get target options) s)
  | add t =>
    have ht : t.Keepable := hc t (List.mem_singleton_self t)
    exact keeps_map.2 ((keeps_add t s).imp fun _ _ _ _ => AddEdits.caching ht)
  | addToCollection c t =>
    have ht : t.Keepable := hc t (List.mem_singleton_self t)
    exact keeps_map.2 ((keeps_addToCollection c t s).imp fun _ _ _ _ => AddEdits.caching ht)
  | save target =>
    refine keeps_map.2 (hover (meets_save (fun t ht => ?_) hself))
    cases target with
    | title _ => exact hs.keepable_of_get? ht
    | document u => exact Option.some.inj ht ▸ hc u (List.mem_singleton_self u)
  | saveAll =>
    refine keeps_map.2 (hover ?_)
    unfold Store.saveAll
    rw [meets_store]
    split
    · exact hself
    · rw [meets_bind]
      exact meets_each (fun t ht _ _ _ => meets_saveTiddler (hs.keepable_of_pending ht)) hself
  | saveCollection c =>
    refine keeps_map.2 (hover (meets_each (fun t ht _ _ _ => meets_save fun u hu => ?_) hself))
    exact Option.some.inj hu ▸ hc t ht
  | destroy target =>
    exact keeps_map.2 ((keeps_destroy target s).imp fun _ _ _ _ => DestroyEdits.caching)
  | refresh => exact keeps_map.2 (keeps_caching_of_reading reading_caches.refresh s)
  | search query => exact keeps_map.2 (keeps_caching_of_reading (reading_caches.search query) s)

end Call

end TiddlerShelf
