import TiddlerShelf.Proofs.CachedEdits
import TiddlerShelf.Proofs.Unheard

/-! # Edits that outlast their store

Whatever clients, listeners, tasks and the server make a store do, its cache lists just the edits
that have a bag. A store that is built over that cache later on begins with these edits. -/

namespace TiddlerShelf

open Program

/-! ## Building a store over a cache -/

namespace Store

variable {s : Store}

/-- Retrieving what a cache keeps files it as it is where nobody listens. -/
theorem modified_retrieveCached (hsound : s.Sound) (hs : s.audience.Silent)
    (hedits : ∀ t ∈ s.modified.cache.list, t.lastSync = none) :
    s.retrieveCached.2.modified = s.modified.cache.list.foldl Tier.file s.modified := by
  show (s.modified.cache.list.foldl (fun s t => (s.fileModified t).2) s).modified = _
  generalize s.modified.cache.list = ts at hedits
  induction ts generalizing s with
  | nil => rfl
  | cons t ts ih =>
    have hedit : t.asEdit = t := by
      rw [Tiddler.asEdit, ← hedits t List.mem_cons_self]
    have hfile : (s.fileModified t).2 = s.withEdit t := by rw [fileModified_of_silent hsound hs]
    have hmodified : (s.withEdit t).modified = s.modified.file t := by
      rw [withEdit, hedit]
    rw [List.foldl_cons, List.foldl_cons, hfile, ih (hsound.withEdit t) hs, hmodified]
    exact fun u hu => hedits u (List.mem_cons_of_mem t hu)

theorem silent_fresh (config : Config) (clock : Instant) (defaults : Option Defaults)
    (cache : Cache) : (fresh config clock defaults cache).audience.Silent :=
  Audience.silent_empty

/-- A store is built from the defaults that are given, or else from those of the configuration, and
it cannot be built only if those cannot be read. -/
theorem build_cases (config : Config) (clock : Instant) (defaults : Option Defaults)
    (cache : Cache) :
    (∃ e, build config clock defaults cache = .error e ∧ defaults = none ∧
      ∀ d, config.explicitDefaults ≠ .ok d) ∨
    ∃ d, (∀ d', d = some d' → defaults = some d' ∨ config.explicitDefaults = .ok (some d')) ∧
      build config clock defaults cache = .ok (if config.loadCached then
        (fresh config clock d cache).retrieveCached.2 else fresh config clock d cache) := by
  unfold build
  cases defaults with
  | some d => exact .inr ⟨some d, fun _ hd => .inl hd, rfl⟩
  | none =>
    cases hexplicit : config.explicitDefaults with
    | error e => exact .inl ⟨_, rfl, rfl, fun _ h => nomatch h⟩
    | ok d => exact .inr ⟨d, fun _ hd => .inr (hd ▸ rfl), rfl⟩

theorem cached_fresh (config : Config) (clock : Instant) {defaults : Option Defaults}
    (hdefaults : ∀ d, defaults = some d → d.Named) {cache : Cache} (hcache : cache.Holds .empty) :
    (fresh config clock defaults cache).Cached := by
  refine ⟨sound_fresh _ _ _ _, Tier.mirrored_of_empty hcache, fun {d} hd => hdefaults d ?_⟩
  cases defaults with
  | none => contradiction
  | some d' => exact congrArg some (Resolver.resolved.inj hd)

/-- A store that is built over an empty cache begins with its edits, of which there are none, in its
cache. -/
theorem cached_of_build {config : Config} {clock : Instant} {defaults : Option Defaults}
    {cache : Cache} (hcache : cache.Holds .empty) (hdefaults : ∀ d, defaults = some d → d.Named)
    (h : build config clock defaults cache = .ok s) : s.Cached := by
  rcases build_cases config clock defaults cache with ⟨e, herror, -⟩ | ⟨d, hd, hok⟩
  · rw [herror] at h
    contradiction
  · have hnamed : ∀ d', d = some d' → d'.Named := by
      intro d' hd'
      rcases hd d' hd' with hgiven | hexplicit
      · exact hdefaults d' hgiven
      · exact Config.named_of_explicitDefaults hexplicit
    have hfresh := cached_fresh config clock hnamed hcache
    rw [hok] at h
    obtain rfl := Except.ok.inj h
    split
    · exact hfresh.retrieveCached
    · exact hfresh

/-- A store that is built over the cache of another begins with what that lists. -/
theorem Cached.pending_retrieved (h : s.Cached) (config : Config) (clock : Instant)
    (defaults : Option Defaults) :
    (fresh config clock defaults s.modified.cache).retrieveCached.2.pending =
      s.modified.cache.list := by
  have hmodified := modified_retrieveCached (sound_fresh config clock defaults s.modified.cache)
    (silent_fresh config clock defaults s.modified.cache) fun t ht => by
      have hlisted : t ∈ s.modified.cache.list := ht
      rw [h.list] at hlisted
      exact (h.mirrored.of_mem (List.mem_of_mem_filter hlisted)).2.1
  unfold pending
  rw [hmodified]
  exact h.mirrored.tiddlers_restored rfl

end Store

/-! ## Activities -/

/-- Whether a move hands over only tiddlers that may be kept, and leaves the cache to the store. -/
def Move.Gentle : Move → Prop
  | .go _ c .called => ∀ t ∈ c.handed, t.Keepable
  | .deed .clearCache | .deed (.shareCache _) => False
  | _ => True

theorem Deed.cached_on {d : Deed} (hd : Move.Gentle (.deed d)) {s : Store} (h : s.Cached) :
    (d.on s).Cached := by
  cases d with
  | remove target => exact Store.kept_cached.remove h target
  | act action => exact h.spares (Store.spares_perform s action) rfl
  | bind label c listener => exact ⟨h.sound.of_tiers rfl rfl, h.mirrored, h.named⟩
  | reload => exact h.retrieveCached
  | clearCache => exact hd.elim
  | shareCache cache => exact hd.elim
  | takeHeard => exact ⟨h.sound.of_tiers rfl rfl, h.mirrored, h.named⟩

namespace Activity

/-- Whether what a task waits for may come about. -/
def Phase.Fair : Phase → Prop
  | asking (.put t) _ _ => t.Keepable
  | informed (.ok d) _ => d.Named
  | _ => True

/-- Whether the cache of a store at work is in step, and stays so whatever the tasks do. -/
structure Cached (a : Activity) : Prop where
  store : a.store.Cached
  heeds : a.Heeds fun _ => caching
  fair : ∀ {id t}, a.tasks id = some t → t.phase.Fair

variable {a b : Activity}

theorem Cached.fair_update (ha : a.Cached) {id : TaskId} {t : Option Task}
    (ht : ∀ u ∈ t, u.phase.Fair) {x : TaskId} {u : Task}
    (hu : Function.update a.tasks id t x = some u) : u.phase.Fair := by
  rcases task_of_update hu with hnew | hold
  · exact ht u hnew
  · exact ha.fair hold

/-- A task that goes on keeps the cache in step, and waits for what may come about. -/
theorem Cached.goOn (ha : a.Cached) {id : TaskId} {c : Call} {p : Program Call.Outcome} {k : Cause}
    (hp : p.Keeps caching k a.store a.store) (hk : k.Fair) : (a.goOn id c p).Cached := by
  obtain ⟨hcached, hput⟩ := hp.proceed.1 hk ha.store
  have hheeds : (a.goOn id c p).Heeds fun _ => caching := by
    exact Heeds.goOn (C := fun _ => caching) ha.heeds hp
  refine ⟨?_, hheeds, ?_⟩
  · unfold Activity.goOn
    split <;> rename_i heq <;> rw [heq] at hcached
    · exact hcached
    · exact hcached
    · split
      · rename_i queue hqueue
        exact hcached.withResolver fun d hd => by rw [hqueue] at hd; contradiction
      · exact hcached.withResolver fun d hd => nomatch hd
  · unfold Activity.goOn
    split <;> rename_i heq <;> rw [heq] at hput
    · intro x u hu
      exact ha.fair_update (fun v hv => absurd hv (Option.not_mem_none v)) hu
    · rename_i s r next
      have hphase : Phase.Fair (.asking r s next) := by
        cases r with
        | put t => exact hput t rfl
        | _ => trivial
      intro x u hu
      refine ha.fair_update (fun v hv => ?_) hu
      obtain rfl := Option.mem_some.1 hv
      exact hphase
    · split
      all_goals
        intro x u hu
        refine ha.fair_update (fun v hv => ?_) hu
        obtain rfl := Option.mem_some.1 hv
        trivial

theorem Cached.inform (ha : a.Cached) {result : Except StoreError Defaults}
    (hresult : ∀ d, result = .ok d → d.Named) : (a.inform result).Cached := by
  refine ⟨ha.store.withResolver ?_, Heeds.inform (C := fun _ => caching) ha.heeds result, ?_⟩
  · intro d hd
    cases result with
    | ok d' => exact hresult d (congrArg _ (Resolver.resolved.inj hd))
    | error e => contradiction
  · intro id t ht
    rcases inform_tasks a result id with heq | heq
    · exact ha.fair (heq ▸ ht)
    · rw [heq] at ht
      obtain ⟨⟨c, phase⟩, hu, rfl⟩ := Option.map_eq_some_iff.1 ht
      have hphase : phase.Fair := ha.fair hu
      cases phase with
      | queued next =>
        cases result with
        | ok d => exact hresult d rfl
        | error e => trivial
      | _ => exact hphase

/-- Every step keeps the cache in step. -/
theorem Step.cached {m : Move} (h : Step a m b) (ha : a.Cached) (hm : m.Gentle) : b.Cached := by
  cases h with
  | @call id c hid =>
    have hfresh : Cached { a with fresh := id + 1 } := ⟨ha.store, ha.heeds, ha.fair⟩
    exact hfresh.goOn (c.keeps_caching hm ha.store) trivial
  | @answer id c r since next ht answer =>
    refine ha.goOn (ha.heeds ht answer a.store) ?_
    have hphase : Phase.Fair (.asking r since next) := ha.fair ht
    cases r with
    | put t => exact hphase
    | _ => trivial
  | @learn id c next ht answer result hresult =>
    have hnamed : ∀ d, result = .ok d → d.Named :=
      fun d hd => Session.named_of_defaultsOf (hresult.trans hd)
    refine (ha.inform hnamed).goOn (ha.heeds ht result _) ?_
    cases result with
    | ok d => exact hnamed d rfl
    | error e => trivial
  | @informed id c result next ht =>
    refine ha.goOn (ha.heeds ht a.store) ?_
    have hphase : Phase.Fair (.informed result next) := ha.fair ht
    cases result with
    | ok d => exact hphase
    | error e => trivial
  | retry ht hd => exact ha.goOn (ha.heeds ht _ a.store) (ha.store.named hd)
  | @again id c next ht hqueue hne =>
    -- Nothing has set the task going, so that it only waits, as if it had just been called.
    have hwaits : Keeps caching (.resolve next) .called a.store a.store :=
      (keeps_resolve_of_unknown hne).2 ⟨(caches_self .called a.store).waits, ha.heeds ht⟩
    exact ha.goOn hwaits trivial
  | @drop id t ht =>
    have hstore : (a.store.withResolver (t.phase.release id a.store.resolver)).Cached :=
      ha.store.withResolver fun d hd => ha.store.named (Phase.resolved_of_release hd)
    refine ⟨hstore, Heeds.setTask (C := fun _ => caching) ha.heeds fun u hu => ?_, fun hu => ?_⟩
    · exact absurd hu (Option.not_mem_none u)
    · exact ha.fair_update (fun v hv => absurd hv (Option.not_mem_none v)) hu
  | deed d => exact ⟨d.cached_on hm ha.store, ha.heeds, ha.fair⟩

/-- Every run keeps the cache in step. -/
theorem Run.cached {h : List Transition} (hrun : Run a h b) (ha : a.Cached)
    (hmoves : ∀ tr ∈ h, tr.move.Gentle) : b.Cached :=
  (hrun.throughout ha fun tr htr hstep hcached => hstep.cached hcached (hmoves tr htr)).1

/-- In every run of a store that was built over an empty cache, with calls that hand over only
tiddlers whose bags have names, the cache lists just the edits that have a bag, in their order. A
store built over the cache then begins with these edits, unless it cannot be built because its own
configuration cannot be read. -/
theorem cache_mirrors_pending {config : Config} {clock : Instant} {defaults : Option Defaults}
    {cache : Cache} {s : Store} {h : List Transition} {b : Activity} (hcache : cache.Holds .empty)
    (hdefaults : ∀ d, defaults = some d → d.Named)
    (hbuild : Store.build config clock defaults cache = .ok s) (hrun : Run { store := s } h b)
    (hmoves : ∀ tr ∈ h, tr.move.Gentle) :
    b.store.modified.cache.list = b.store.pending.filter (·.bag.isSome) ∧
    ∀ config' clock' defaults', config'.loadCached = true →
      match Store.build config' clock' defaults' b.store.modified.cache with
      | .ok s' => s'.pending = b.store.pending.filter (·.bag.isSome)
      | .error _ => defaults' = none ∧ ∀ d, config'.explicitDefaults ≠ .ok d := by
  have hstart : Cached { store := s } :=
    ⟨Store.cached_of_build hcache hdefaults hbuild, (fun ht => nomatch ht), fun ht => nomatch ht⟩
  have hb : b.store.Cached := (hrun.cached hstart hmoves).store
  refine ⟨hb.list, fun config' clock' defaults' hload => ?_⟩
  rcases Store.build_cases config' clock' defaults' b.store.modified.cache with
    ⟨e, herror, hfails⟩ | ⟨d, -, hok⟩
  · rw [herror]
    exact hfails
  · rw [hok, if_pos hload]
    exact (hb.pending_retrieved config' clock' d).trans hb.list

/-- An edit in a bag outlasts the store of a run with a cache file, and one without a bag does
not. -/
theorem bagged_edit_outlasts_store :
    ∃ (s s' : Store) (h : List Transition) (b : Activity),
      Store.build {} ⟨0, 0⟩ none (.file {}) = .ok s ∧ Run { store := s } h b ∧
      b.store.pending = [{ title := "U" }, .draft "notes" "one"] ∧
      b.store.modified.cache.list = [.draft "notes" "one"] ∧
      Store.build {} ⟨1, 0⟩ none b.store.modified.cache = .ok s' ∧
      s'.pending = [.draft "notes" "one"] := by
  let a₀ := start {} ⟨0, 0⟩ none (.file {})
  let a₁ := a₀.call (.add { title := "U" })
  let b := a₁.added (.draft "notes" "one")
  have hreach : a₀.Reachable := .start _ _ _ _
  have hcall : Step a₀ (.go 0 (.add { title := "U" }) .called) a₁ := step_call a₀ _
  have hsilent : a₁.store.audience.Silent := by
    rw [hcall.audience_of_go hreach.sound Audience.silent_empty]
    exact Audience.silent_empty
  have hadded : Step a₁ (.go 1 (.add (.draft "notes" "one")) .called) b :=
    step_added (hreach.step hcall).sound hsilent rfl
  let h : List Transition := [⟨a₀, .go 0 (.add { title := "U" }) .called, a₁⟩,
    ⟨a₁, .go 1 (.add (.draft "notes" "one")) .called, b⟩]
  have hrun : Run a₀ h b := .cons hcall (.cons hadded (.nil _))
  have hmodified : a₁.store.modified = a₀.store.modified.file { title := "U" } := by
    show (a₀.store.fileModified { title := "U" }).2.modified = _
    rw [Store.fileModified_of_silent hreach.sound.store Audience.silent_empty]
    rfl
  have hpending : b.store.pending = [{ title := "U" }, .draft "notes" "one"] := by
    show (a₁.store.modified.file _).tiddlers = _
    rw [hmodified]
    decide +kernel
  have hbagless : ({ title := "U" } : Tiddler).Keepable := ⟨nofun, nofun⟩
  have hbagged : (Tiddler.draft "notes" "one").Keepable := by
    refine ⟨fun bag hbag => ?_, nofun⟩
    obtain rfl := Option.mem_some.1 hbag
    decide
  have hgentle : ∀ {id} {t : Tiddler}, t.Keepable → Move.Gentle (.go id (.add t) .called) :=
    fun ht => List.forall_mem_singleton.2 ht
  have hmoves : ∀ tr ∈ h, tr.move.Gentle :=
    List.forall_mem_cons.2 ⟨hgentle hbagless, List.forall_mem_singleton.2 (hgentle hbagged)⟩
  have hempty : (Cache.file {}).Holds .empty := ⟨rfl, rfl, rfl⟩
  have hbuild : Store.build {} ⟨0, 0⟩ none (.file {}) = .ok a₀.store := rfl
  obtain ⟨hlist, hrestored⟩ :=
    cache_mirrors_pending hempty (fun d hd => absurd hd.symm (Option.some_ne_none d)) hbuild hrun
      hmoves
  rw [hpending] at hlist hrestored
  have hbuilt := hrestored {} ⟨1, 0⟩ none rfl
  cases hagain : Store.build {} ⟨1, 0⟩ none b.store.modified.cache with
  | error e =>
    rw [hagain] at hbuilt
    exact absurd rfl (hbuilt.2 none)
  | ok s' =>
    rw [hagain] at hbuilt
    exact ⟨a₀.store, s', h, b, hbuild, hrun, hpending, hlist, hagain, hbuilt⟩

end Activity

end TiddlerShelf
