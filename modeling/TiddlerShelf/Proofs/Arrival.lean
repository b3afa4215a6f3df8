import TiddlerShelf.Proofs.Bookkeeping
import TiddlerShelf.Proofs.Invariants

/-! # Coming to read from a container

A store reads from nowhere until the defaults are known to some call, and whatever fails before that
leaves no trace. From then on it reads from the container of the defaults, which stands first among
the sources to be refreshed. Every step of every activity keeps this up, in whatever order tasks
come to know the defaults (`Step.placed`). -/

namespace TiddlerShelf

open Program

namespace Source

/-- The listing of a container is not that of a search on the same host. -/
theorem route_container_ne (c : Container) (query : String) :
    (Source.container c).route ≠ (Source.search query c.host).route := by
  intro h
  have hlist := congrArg String.toList h
  simp only [route, Container.route, String.toList_append, List.append_assoc,
    List.append_cancel_left_eq] at hlist
  cases hkind : c.kind <;> simp [hkind, Container.Kind.word] at hlist

theorem query_eq_of_route_eq {query query' host : String}
    (h : (Source.search query host).route = (Source.search query' host).route) :
    query = query' := by
  have hlist := congrArg String.toList h
  simp only [route, String.toList_append, List.append_cancel_left_eq] at hlist
  exact String.toList_injective hlist

end Source

theorem Resolver.isDiscovering_iff {resolver : Resolver} :
    resolver.isDiscovering = true ↔ ∃ queue, resolver = .discovering queue := by
  cases resolver <;> simp [isDiscovering]

namespace Store

/-- Whether a store has not come to read from anywhere. -/
structure Nowhere (s : Store) : Prop where
  location : s.location = none
  sources : s.sources.values = []

/-- Whether a store reads from a container, which is the first source to be remembered, before all
searches, which are on the same host. -/
structure At (place : Container) (s : Store) : Prop where
  location : s.location = some place
  sources : ∃ queries : List String,
    s.sources.entries = (.container place :: queries.map (.search · place.host)).map
      fun source => (source.route, source)

/-- Whether a store reads from nowhere, or else from the container of the defaults that it knows. -/
def Placed (s : Store) : Prop := s.Nowhere ∨ ∃ d, s.resolver = .resolved d ∧ s.At d.pullFrom

/-- Whether a change leaves alone where the store reads from and how far it is in finding that
out. -/
structure Stays (s s' : Store) : Prop where
  resolver : s'.resolver = s.resolver
  location : s'.location = s.location
  sources : s'.sources = s.sources

variable {s s' : Store}

theorem Stays.refl (s : Store) : Stays s s := ⟨rfl, rfl, rfl⟩

theorem Stays.trans {s'' : Store} (h : Stays s s') (h' : Stays s' s'') : Stays s s'' :=
  ⟨h'.resolver.trans h.resolver, h'.location.trans h.location, h'.sources.trans h.sources⟩

theorem Nowhere.of_same (h : s.Nowhere) (hlocation : s'.location = s.location)
    (hsources : s'.sources = s.sources) : s'.Nowhere :=
  ⟨hlocation.trans h.location, hsources ▸ h.sources⟩

theorem At.of_same {place : Container} (h : s.At place) (hlocation : s'.location = s.location)
    (hsources : s'.sources = s.sources) : s'.At place :=
  ⟨hlocation.trans h.location, hsources ▸ h.sources⟩

theorem Placed.stays (h : s.Placed) (h' : Stays s s') : s'.Placed := by
  rcases h with h | ⟨d, hd, h⟩
  · exact .inl (h.of_same h'.location h'.sources)
  · exact .inr ⟨d, h'.resolver.trans hd, h.of_same h'.location h'.sources⟩

/-- A store that comes to know its defaults, or knows them still, reads from where it did. -/
theorem Placed.withResolver (h : s.Placed) {resolver : Resolver}
    (hkept : ∀ d, s.resolver = .resolved d → resolver = .resolved d) :
    (s.withResolver resolver).Placed := by
  rcases h with h | ⟨d, hd, h⟩
  · exact .inl (h.of_same rfl rfl)
  · exact .inr ⟨d, hkept d hd, h.of_same rfl rfl⟩

/-! ## What leaves a store where it is -/

theorem stays_fileSynced (s : Store) (t : Tiddler) : s.Stays (s.fileSynced t).2 :=
  ⟨rfl, rfl, rfl⟩

theorem stays_fileModified (s : Store) (t : Tiddler) : s.Stays (s.fileModified t).2 :=
  ⟨rfl, rfl, rfl⟩

theorem stays_dropGone (s : Store) (t : Tiddler) : s.Stays (s.dropGone t) := by
  unfold dropGone
  split <;> exact ⟨rfl, rfl, rfl⟩

theorem stays_forget (s : Store) (t : Tiddler) : s.Stays (s.forget t) := by
  unfold forget
  dsimp only
  split <;> exact ⟨rfl, rfl, rfl⟩

theorem stays_afterPut (s since : Store) (t : Tiddler) (answer : Except RemoteError Tiddler) :
    s.Stays (s.afterPut since t answer) := by
  cases answer with
  | ok response =>
    show s.Stays (s.acknowledge _ t response).2
    unfold acknowledge
    dsimp only
    split
    · split <;> exact ⟨rfl, rfl, rfl⟩
    · exact ⟨rfl, rfl, rfl⟩
  | error cause =>
    show s.Stays (s.takeBack _ t)
    unfold takeBack
    split <;> exact ⟨rfl, rfl, rfl⟩

theorem stays_remove (s : Store) (target : Tiddler.Target) : s.Stays (s.remove target).2 := by
  unfold remove
  split <;> exact ⟨rfl, rfl, rfl⟩

theorem stays_retrieveCached (s : Store) : s.Stays s.retrieveCached.2 := by
  have hfold : ∀ (ts : List Tiddler) (s' : Store), s.Stays s' →
      s.Stays (ts.foldl (fun s t => (s.fileModified t).2) s') := by
    intro ts
    induction ts with
    | nil => exact fun _ h => h
    | cons t ts ih => exact fun s' h => ih _ (h.trans (stays_fileModified s' t))
  exact hfold _ s (.refl s)

/-! ## Coming to know the place -/

/-- A store that knows its defaults and finds the place reads from there. -/
theorem Placed.at_moveTo (h : s.Placed) {d : Defaults} (hd : s.resolver = .resolved d) :
    (s.moveTo d.pullFrom).At d.pullFrom := by
  unfold Store.moveTo
  rcases h with h | ⟨d', hd', h⟩
  · have hempty : s.sources.entries = [] := List.map_eq_nil_iff.1 h.sources
    rw [if_neg (by simp [h.location])]
    refine ⟨rfl, [], ?_⟩
    show Keyed.put _ _ s.sources.entries = _
    rw [hempty]
    rfl
  · obtain rfl : d = d' := Resolver.resolved.inj (hd.symm.trans hd')
    have hthere : s.location.any d.pullFrom.sameAs = true := by
      rw [h.location]
      exact beq_self_eq_true d.pullFrom.name
    rw [if_pos hthere]
    exact h

/-- A store that has found a place reads from somewhere. -/
theorem location_moveTo_ne (s : Store) (place : Container) : (s.moveTo place).location ≠ none := by
  unfold Store.moveTo
  split
  · rename_i hthere
    rintro hnone
    rw [hnone] at hthere
    contradiction
  · exact Option.some_ne_none place

theorem Placed.moveTo (h : s.Placed) {d : Defaults} (hd : s.resolver = .resolved d) :
    (s.moveTo d.pullFrom).Placed :=
  .inr ⟨d, (quiet_moveTo s d.pullFrom).resolver.trans hd, h.at_moveTo hd⟩

/-- A search on the host of the container that a store reads from is remembered last, if it is not
remembered yet. -/
theorem At.entries_register {place : Container} (h : s.At place) (query : String) :
    (s.register (.search query place.host)).sources.entries =
      if Source.search query place.host ∈ s.sources.values then s.sources.entries
      else s.sources.entries ++
        [((Source.search query place.host).route, .search query place.host)] := by
  obtain ⟨queries, hqueries⟩ := h.sources
  have hvalues : s.sources.values = .container place :: queries.map (.search · place.host) := by
    rw [Keyed.values, hqueries, List.map_map]
    exact List.map_id _
  show Keyed.put (Source.search query place.host).route _ s.sources.entries = _
  split
  · rename_i hmem
    have hentry : ((Source.search query place.host).route, Source.search query place.host) ∈
        s.sources.entries := by
      rw [hqueries, ← hvalues]
      exact List.mem_map_of_mem hmem
    exact Keyed.put_eq_self (Keyed.get?_eq_some_iff.2 hentry)
  · rename_i hnot
    rw [hvalues] at hnot
    apply Keyed.put_of_not_mem
    rw [hqueries]
    simp only [List.map_cons, List.map_map, List.mem_cons, List.mem_map, not_or, not_exists,
      not_and, Function.comp_apply]
    refine ⟨(Source.route_container_ne place query).symm, fun query' hquery' heq => hnot ?_⟩
    rw [← Source.query_eq_of_route_eq heq]
    exact List.mem_cons_of_mem _ (List.mem_map_of_mem hquery')

theorem At.register {place : Container} (h : s.At place) (query : String) :
    (s.register (.search query place.host)).At place := by
  obtain ⟨queries, hqueries⟩ := h.sources
  refine ⟨h.location, ?_⟩
  rw [h.entries_register]
  split
  · exact ⟨queries, hqueries⟩
  · exact ⟨queries ++ [query], by simp [hqueries]⟩

end Store

namespace Program

/-- What a stretch does to the place: it leaves the resolver alone, and the store still reads from
nowhere or from the container of its defaults. A stretch that has begun with the defaults has begun
in a store that knows them. -/
structure Arrives (k : Cause) (s₀ s : Store) : Prop where
  resolver : s.resolver = s₀.resolver
  placed : s₀.Placed → (∀ d, k = .resolved (.ok d) → s₀.resolver = .resolved d) → s.Placed

section

variable {k : Cause} {s₀ s s' : Store}

theorem Arrives.refl (k : Cause) (s : Store) : Arrives k s s := ⟨rfl, fun h _ => h⟩

theorem Arrives.stays (h : Arrives k s₀ s) (h' : s.Stays s') : Arrives k s₀ s' :=
  ⟨h'.resolver.trans h.resolver, fun hs hk => (h.placed hs hk).stays h'⟩

theorem Arrives.known (h : Arrives k s₀ s) {d : Defaults} (hd : k.Knows s d)
    (hk : ∀ d, k = .resolved (.ok d) → s₀.resolver = .resolved d) : s.resolver = .resolved d :=
  hd.elim id fun hcause => h.resolver.trans (hk d hcause)

theorem Arrives.moveTo (h : Arrives k s₀ s) {d : Defaults} (hd : k.Knows s d) :
    Arrives k s₀ (s.moveTo d.pullFrom) :=
  ⟨(Store.quiet_moveTo s _).resolver.trans h.resolver,
    fun hs hk => (h.placed hs hk).moveTo (h.known hd hk)⟩

/-- A search is remembered once the store reads from the container of the defaults. -/
theorem Arrives.register {d : Defaults} (h : Arrives k s₀ (s.moveTo d.pullFrom))
    (hd : k.Knows s d) (query : String) :
    Arrives k s₀ ((s.moveTo d.pullFrom).register (.search query d.pullFrom.host)) := by
  refine ⟨h.resolver, fun hs hk => ?_⟩
  have hmoved := (Store.quiet_moveTo s d.pullFrom).resolver
  have hknown : (s.moveTo d.pullFrom).resolver = .resolved d :=
    hd.elim hmoved.trans fun hcause => h.resolver.trans (hk d hcause)
  rcases h.placed hs hk with hnowhere | ⟨d', hd', hat⟩
  · exact absurd hnowhere.location (Store.location_moveTo_ne s _)
  · obtain rfl : d = d' := Resolver.resolved.inj (hknown.symm.trans hd')
    exact .inr ⟨d, hknown, hat.register query⟩

end

theorem upkeep_arrives : Upkeep Arrives fun _ => True where
  failed _ s := .refl _ s
  found _ s := (Arrives.refl _ s).moveTo (.inr rfl)
  moveTo h hd := h.moveTo hd
  fetch _ := trivial
  fetched _ _ _ s := .refl _ s
  register h hd query := h.register hd query
  fileSynced h _ := h.stays (Store.stays_fileSynced _ _)
  dropGone h _ := h.stays (Store.stays_dropGone _ _)
  put _ := trivial
  afterPut since t answer s := (Arrives.refl _ s).stays (Store.stays_afterPut s since t answer)
  delete _ := trivial
  deleted _ _ _ s := .refl _ s
  fileModified h t := h.stays (Store.stays_fileModified _ t)
  forget h t := h.stays (Store.stays_forget _ t)

/-- The contract of stretches that come to read from a container in this way. -/
def arriving : Contract := within Arrives fun _ => True

end Program

theorem Call.keeps_arriving (c : Call) (s : Store) : c.program.Keeps arriving .called s s :=
  (c.within_program upkeep_arrives).keeps (.refl _ s)

theorem Deed.stays_on (d : Deed) (s : Store) : s.Stays (d.on s) := by
  cases d with
  | remove target => exact s.stays_remove target
  | reload => exact s.stays_retrieveCached
  | _ => exact ⟨rfl, rfl, rfl⟩

namespace Activity

/-- Whether a task finds out the defaults. -/
def Discovers (a : Activity) (id : TaskId) : Prop :=
  ∃ c next, a.tasks id = some ⟨c, .discovering next⟩

/-- Whether a task has been told the defaults and has not gone on since. -/
def IsTold (a : Activity) (id : TaskId) (d : Defaults) : Prop :=
  ∃ c next, a.tasks id = some ⟨c, .informed (.ok d) next⟩

/-- What holds of the place and of the tasks that find it out, as far as the tasks are looked at
that `rests` holds of: only one finds out the defaults, as long as the resolver says so, and what
tasks have been told is what the store knows. -/
structure Placed (a : Activity) (rests : TaskId → Prop) : Prop where
  store : a.store.Placed
  single : ∀ {x y}, rests x → rests y → a.Discovers x → a.Discovers y → x = y
  underway : ∀ {x}, rests x → a.Discovers x → a.store.resolver.isDiscovering = true
  told : ∀ {x d}, rests x → a.IsTold x d → a.store.resolver = .resolved d

section

variable {a b : Activity} {id : TaskId} {rests rests' : TaskId → Prop}

theorem Discovers.of_eq {x : TaskId} (h : a.Discovers x) (heq : b.tasks x = a.tasks x) :
    b.Discovers x := by
  unfold Discovers
  rwa [heq]

theorem IsTold.of_eq {x : TaskId} {d : Defaults} (h : a.IsTold x d)
    (heq : b.tasks x = a.tasks x) : b.IsTold x d := by
  unfold IsTold
  rwa [heq]

theorem Placed.mono (h : a.Placed rests) (hrests : ∀ x, rests' x → rests x) : a.Placed rests' :=
  ⟨h.store, fun hx hy => h.single (hrests _ hx) (hrests _ hy), fun hx => h.underway (hrests _ hx),
    fun hx => h.told (hrests _ hx)⟩

/-- A task that has come to rest again makes no difference, unless it has come to find out the
defaults, which it does only where no other one does. -/
theorem Placed.rest (h : a.Placed (· ≠ id)) (hstore : b.store.Placed)
    (htasks : ∀ x, x ≠ id → b.tasks x = a.tasks x)
    (hknown : ∀ d, a.store.resolver = .resolved d → b.store.resolver = .resolved d)
    (hbusy : a.store.resolver.isDiscovering = true → b.store.resolver.isDiscovering = true)
    (htold : ∀ d, ¬b.IsTold id d)
    (hself : b.Discovers id → a.store.resolver.isDiscovering = false ∧
      b.store.resolver.isDiscovering = true) : b.Placed fun _ => True := by
  have hold : ∀ {x}, x ≠ id → b.Discovers x → a.Discovers x :=
    fun hx hd => hd.of_eq (htasks _ hx).symm
  -- Where the task itself finds out the defaults, no other one does.
  have hother : ∀ {x}, b.Discovers id → b.Discovers x → x = id := by
    intro x hid hx
    by_contra hne
    have hunderway := h.underway hne (hold hne hx)
    rw [(hself hid).1] at hunderway
    contradiction
  refine ⟨hstore, ?_, ?_, ?_⟩
  · intro x y _ _ hx hy
    by_cases hxid : x = id
    · subst hxid
      exact (hother hx hy).symm
    · by_cases hyid : y = id
      · subst hyid
        exact hother hy hx
      · exact h.single hxid hyid (hold hxid hx) (hold hyid hy)
  · intro x _ hx
    by_cases hxid : x = id
    · exact (hself (hxid ▸ hx)).2
    · exact hbusy (h.underway hxid (hold hxid hx))
  · intro x d _ hx
    by_cases hxid : x = id
    · exact absurd (hxid ▸ hx) (htold d)
    · exact hknown d (h.told hxid (hx.of_eq (htasks x hxid).symm))

/-! ## Steps -/

theorem store_goOn (a : Activity) (id : TaskId) (c : Call) (p : Program Call.Outcome) :
    ∃ resolver, (a.goOn id c p).store = (p.proceed a.store).1.withResolver resolver := by
  unfold goOn
  split <;> rename_i heq <;> rw [heq]
  · exact ⟨_, rfl⟩
  · exact ⟨_, rfl⟩
  · dsimp only
    split <;> exact ⟨_, rfl⟩

/-- A task that goes on comes to wait for the defaults, and the resolver shows it, or the resolver
is left as the program leaves it. -/
theorem resolver_goOn (a : Activity) (id : TaskId) (c : Call) (p : Program Call.Outcome) :
    ((a.goOn id c p).store.resolver = (p.proceed a.store).1.resolver ∧
      ¬(a.goOn id c p).Discovers id) ∨
    ((p.proceed a.store).2.halt = .waits ∧
      (a.goOn id c p).store.resolver.isDiscovering = true ∧
      ((a.goOn id c p).Discovers id → (p.proceed a.store).1.resolver.isDiscovering = false)) := by
  have hself : ∀ {t u : Option Task}, Function.update a.tasks id t id = u → t = u :=
    fun {t _} hu => (Function.update_self id t a.tasks).symm.trans hu
  unfold goOn
  split <;> rename_i heq <;> rw [heq]
  · refine .inl ⟨rfl, ?_⟩
    rintro ⟨c', next', ht⟩
    exact nomatch hself ht
  · refine .inl ⟨rfl, ?_⟩
    rintro ⟨c', next', ht⟩
    exact nomatch hself ht
  · refine .inr ⟨rfl, ?_⟩
    dsimp only
    split <;> rename_i hresolver
    · rw [hresolver]
      refine ⟨rfl, ?_⟩
      rintro ⟨c', next', ht⟩
      exact nomatch hself ht
    · refine ⟨rfl, fun _ => Bool.eq_false_iff.2 fun hdiscovering => ?_⟩
      obtain ⟨queue, hqueue⟩ := Resolver.isDiscovering_iff.1 hdiscovering
      exact hresolver queue hqueue

/-- A task that goes on leaves the store in place. -/
theorem Placed.goOn (h : a.Placed (· ≠ id)) (c : Call) {p : Program Call.Outcome} {k : Cause}
    (hp : p.Keeps arriving k a.store a.store)
    (hk : ∀ d, k = .resolved (.ok d) → a.store.resolver = .resolved d) :
    (a.goOn id c p).Placed fun _ => True := by
  have hrests := (stretch_goOn id c hp).1
  obtain ⟨⟨harrives, -⟩, hpause⟩ := hp.proceed
  have hwaits : (p.proceed a.store).2.halt = .waits → ∀ d, a.store.resolver ≠ .resolved d := by
    rw [← harrives.resolver]
    cases hend : (p.proceed a.store).2 with
    | resolving next => exact fun _ => (hend ▸ hpause :).1
    | _ => exact nofun
  have hresolver := resolver_goOn a id c p
  rw [harrives.resolver] at hresolver
  have hknown : ∀ d, a.store.resolver = .resolved d →
      (a.goOn id c p).store.resolver = .resolved d := by
    intro d hd
    rcases hresolver with ⟨hsame, -⟩ | ⟨hhalt, -⟩
    · exact hsame.trans hd
    · exact absurd hd (hwaits hhalt d)
  refine h.rest ?_ (fun x hx => goOn_tasks_of_ne hx c p) hknown (fun hbusy => ?_) ?_ fun hd => ?_
  · obtain ⟨resolver, hstore⟩ := store_goOn a id c p
    rw [hstore]
    refine (harrives.placed h.store hk).withResolver fun d hd => ?_
    have hkept := hknown d (harrives.resolver ▸ hd)
    rwa [hstore] at hkept
  · rcases hresolver with ⟨hsame, -⟩ | ⟨-, hdiscovering, -⟩
    · exact hsame ▸ hbusy
    · exact hdiscovering
  · rintro d ⟨c', next, ht⟩
    obtain ⟨s, halt, -, -, -, hrests⟩ := hrests
    rw [ht] at hrests
    cases hrests
  · rcases hresolver with ⟨-, hnot⟩ | ⟨-, hdiscovering, hfirst⟩
    · exact absurd hd hnot
    · exact ⟨hfirst hd, hdiscovering⟩

/-- What has become of finding out the defaults is what the store knows from then on, and what all
that queued for it have been told. Nobody finds out the defaults then. -/
theorem Placed.inform (h : a.Placed fun _ => True) (hid : a.Discovers id)
    (result : Except StoreError Defaults) : (a.inform result).Placed (· ≠ id) := by
  have hbusy := h.underway trivial hid
  have hunknown : ∀ d, a.store.resolver ≠ .resolved d := by
    intro d hd
    rw [hd] at hbusy
    contradiction
  have hold : ∀ {x}, (a.inform result).Discovers x → a.Discovers x := by
    rintro x ⟨c, next, ht⟩
    rcases inform_tasks a result x with heq | heq
    · exact ⟨c, next, heq ▸ ht⟩
    · rw [heq] at ht
      obtain ⟨⟨c', phase⟩, hu, hphase⟩ := Option.map_eq_some_iff.1 ht
      cases phase <;> cases hphase
      exact ⟨c, next, hu⟩
  have hnone : ∀ {x}, x ≠ id → ¬(a.inform result).Discovers x :=
    fun hx hd => hx (h.single trivial trivial (hold hd) hid)
  refine ⟨h.store.withResolver fun d hd => absurd hd (hunknown d), ?_, ?_, ?_⟩
  · exact fun hx _ hd => absurd hd (hnone hx)
  · exact fun hx hd => absurd hd (hnone hx)
  · rintro x d hx ⟨c, next, ht⟩
    show Resolver.ofResult result = .resolved d
    rcases inform_tasks a result x with heq | heq
    · exact absurd (h.told trivial ⟨c, next, heq ▸ ht⟩) (hunknown d)
    · rw [heq] at ht
      obtain ⟨⟨c', phase⟩, hu, hphase⟩ := Option.map_eq_some_iff.1 ht
      cases phase with
      | queued _ =>
        cases hphase
        rfl
      | informed result' next' =>
        cases hphase
        exact absurd (h.told trivial ⟨_, _, hu⟩) (hunknown d)
      | _ => cases hphase

/-- Giving up a task leaves the store in place. If the task was finding out the defaults, they are
not known. -/
theorem Placed.drop (h : a.Placed fun _ => True) {t : Task} (ht : a.tasks id = some t) :
    Placed { a.setTask id none with
      store := a.store.withResolver (t.phase.release id a.store.resolver) } fun _ => True := by
  have hothers : ∀ x, x ≠ id → (a.setTask id none).tasks x = a.tasks x :=
    fun x hx => Function.update_of_ne hx _ _
  have hself : (a.setTask id none).tasks id = none := by
    show Function.update a.tasks id none id = none
    exact Function.update_self ..
  have hnone : ¬(a.setTask id none).Discovers id := by
    rintro ⟨c, next, hd⟩
    exact nomatch hself.symm.trans hd
  obtain ⟨c, phase⟩ := t
  by_cases hid : a.Discovers id
  · have hbusy := h.underway trivial hid
    have hunknown : ∀ d, a.store.resolver ≠ .resolved d := by
      intro d hd
      rw [hd] at hbusy
      contradiction
    have hidle : ∀ x, ¬(a.setTask id none).Discovers x := by
      intro x hx
      by_cases hxid : x = id
      · exact hnone (hxid ▸ hx)
      · exact hxid (h.single trivial trivial (hx.of_eq (hothers x hxid).symm) hid)
    refine ⟨h.store.withResolver fun d hd => absurd hd (hunknown d), ?_, ?_, ?_⟩
    · exact fun _ _ hx => absurd hx (hidle _)
    · exact fun _ hx => absurd hx (hidle _)
    · rintro x d - ⟨c', next, hx⟩
      by_cases hxid : x = id
      · subst hxid
        exact nomatch hself.symm.trans hx
      · exact absurd (h.told trivial ⟨c', next, (hothers x hxid).symm.trans hx⟩) (hunknown d)
  · have hkept : (∀ d, a.store.resolver = .resolved d →
        phase.release id a.store.resolver = .resolved d) ∧ (a.store.resolver.isDiscovering = true →
        (phase.release id a.store.resolver).isDiscovering = true) := by
      cases phase with
      | discovering next => exact absurd ⟨c, next, ht⟩ hid
      | queued next =>
        refine ⟨fun d hd => ?_, fun hbusy => ?_⟩
        · rw [hd]
          rfl
        · exact (Resolver.isDiscovering_leave id a.store.resolver).trans hbusy
      | _ => exact ⟨fun _ hd => hd, fun hbusy => hbusy⟩
    refine (h.mono fun _ _ => trivial).rest (h.store.withResolver hkept.1) hothers hkept.1 hkept.2
      ?_ fun hd => absurd hd hnone
    rintro d ⟨c', next, hd⟩
    exact nomatch hself.symm.trans hd

/-- Every step leaves the store in place. -/
theorem Step.placed {m : Move} (hstep : Step a m b) (h : a.Placed fun _ => True)
    (ha : a.Heeds fun _ => arriving) : b.Placed fun _ => True := by
  have hbut : ∀ id, a.Placed (· ≠ id) := fun id => h.mono fun _ _ => trivial
  cases hstep with
  | @call id c hid =>
    have hnew : Placed { a with fresh := id + 1 } (· ≠ id) := ⟨(hbut id).store, (hbut id).single,
      (hbut id).underway, (hbut id).told⟩
    exact hnew.goOn c (c.keeps_arriving a.store) nofun
  | answer ht answer => exact (hbut _).goOn _ (ha ht answer a.store) nofun
  | @learn id c next ht _ result hresult =>
    refine (h.inform ⟨c, next, ht⟩ result).goOn c (ha ht result _) fun d hd => ?_
    cases hd
    rfl
  | @informed id c result next ht =>
    refine (hbut id).goOn c (ha ht a.store) fun d hd => ?_
    cases hd
    exact h.told trivial ⟨c, next, ht⟩
  | retry ht hd =>
    refine (hbut _).goOn _ (ha ht _ a.store) fun d' hd' => ?_
    cases hd'
    exact hd
  | @again id c next ht _ hne =>
    have hheeds : (Program.resolve next).Keeps arriving .called a.store a.store :=
      (keeps_resolve_of_unknown hne).2 ⟨within_waits (.refl _ _), ha ht⟩
    exact (hbut id).goOn c hheeds nofun
  | drop ht => exact h.drop ht
  | deed d =>
    have hstays := d.stays_on a.store
    refine ⟨h.store.stays hstays, h.single, fun hx hd => ?_, fun hx hd => ?_⟩
    · show (d.on a.store).resolver.isDiscovering = true
      rw [hstays.resolver]
      exact h.underway hx hd
    · exact hstays.resolver.trans (h.told hx hd)

/-- In a run from a store in place, the store stays in place. -/
theorem Run.placed {h : List Transition} (hrun : Run a h b) (ha : a.Placed fun _ => True)
    (hheeds : a.Heeds fun _ => arriving) : b.Placed fun _ => True := by
  induction hrun with
  | nil => exact ha
  | cons hstep hrun ih =>
    exact ih (hstep.placed ha hheeds) (hstep.heeds hheeds fun _ c _ => c.keeps_arriving)

theorem placed_start (config : Config) (clock : Instant) (defaults : Option Defaults)
    (cache : Cache) : (start config clock defaults cache).Placed fun _ => True :=
  ⟨.inl ⟨rfl, rfl⟩, (fun _ _ ⟨_, _, hx⟩ => nomatch hx), (fun _ ⟨_, _, hx⟩ => nomatch hx),
    fun _ ⟨_, _, hx⟩ => nomatch hx⟩

theorem Reachable.placed (ha : a.Reachable) :
    (a.Placed fun _ => True) ∧ a.Heeds fun _ => arriving := by
  obtain ⟨config, clock, defaults, cache, h, hrun⟩ := ha
  refine (hrun.throughout (I := fun a => (a.Placed fun _ => True) ∧ a.Heeds fun _ => arriving)
    ⟨placed_start _ _ _ _, fun hx => nomatch hx⟩ fun tr _ hstep htr => ?_).1
  exact ⟨hstep.placed htr.1 htr.2, hstep.heeds htr.2 fun _ c _ => c.keeps_arriving⟩

end

end Activity

end TiddlerShelf
