import TiddlerShelf.Proofs.Conditions
import TiddlerShelf.Proofs.Dispatch
import TiddlerShelf.Store.Collections

/-! # Bound collections

A listener that is bound to a collection hears of the tiddlers that the collection has been narrowed
to. Its predicate has an identity of its own, since the filter of a collection is always a
conjunction, which is compiled anew (`bindCollection_eq_bindCompiled`), and since no identity is
given out twice (`Fresh`). So it stays registered whatever happens to others, until somebody cancels
what is under this predicate (`Bound`). -/

namespace TiddlerShelf

namespace Audience

/-! ## Identities -/

/-- Whether a predicate that is in use afterwards had a label before, or has got an identity that
was not given out before. -/
def Stems (a b : Audience) (p : Predicate) : Prop :=
  (∃ label, a.predicates.get? label = some p) ∨
    (p.id = a.nextPredicate ∧ a.nextPredicate < b.nextPredicate)

/-- What becomes of the predicates while the hub is called: no identity is given out again, and
those that have labels or are registered stem from those before. -/
structure Mints (a : Audience) (calls : List (HubCall String)) (b : Audience) : Prop where
  next_le : a.nextPredicate ≤ b.nextPredicate
  labels : ∀ label p, b.predicates.get? label = some p → Stems a b p
  calls : ∀ p l, .bindFilter p l ∈ calls → Stems a b p

theorem Mints.of_same {a b : Audience} {calls : List (HubCall String)}
    (hlabels : b.predicates = a.predicates) (hnext : b.nextPredicate = a.nextPredicate)
    (hcalls : ∀ p l, .bindFilter p l ∈ calls → ∃ label, a.predicates.get? label = some p) :
    Mints a calls b where
  next_le := hnext.ge
  labels label _ hp := .inl ⟨label, hlabels ▸ hp⟩
  calls p l hp := .inl (hcalls p l hp)

theorem Mints.of_quiet {a b : Audience} (hlabels : b.predicates = a.predicates)
    (hnext : b.nextPredicate = a.nextPredicate) : Mints a [] b :=
  .of_same hlabels hnext fun _ _ hcall => absurd hcall List.not_mem_nil

theorem Mints.of_insert {a b : Audience} {calls : List (HubCall String)} (label : String)
    (accepts : Tiddler → Bool)
    (hlabels : b.predicates = a.predicates.insert label ⟨a.nextPredicate, accepts⟩)
    (hnext : b.nextPredicate = a.nextPredicate + 1)
    (hcalls : ∀ p l, .bindFilter p l ∈ calls → p = ⟨a.nextPredicate, accepts⟩) :
    Mints a calls b := by
  have hlt : a.nextPredicate < b.nextPredicate := hnext ▸ Nat.lt_succ_self _
  refine ⟨hlt.le, fun label' p hp => ?_, fun p l hp => .inr ⟨?_, hlt⟩⟩
  · rw [hlabels, Keyed.get?_insert] at hp
    split at hp
    · exact .inr ⟨(Option.some.inj hp).symm ▸ rfl, hlt⟩
    · exact .inl ⟨label', hp⟩
  · rw [hcalls p l hp]

theorem predicate_of_some {a : Audience} {label : String} {p : Predicate}
    (h : a.predicates.get? label = some p) (filter : Filter) :
    a.predicate label filter = (p, a) := by
  unfold predicate
  rw [h]

theorem predicate_of_none {a : Audience} {label : String} (h : a.predicates.get? label = none)
    (filter : Filter) :
    a.predicate label filter = (⟨a.nextPredicate, filter.accepts⟩,
      { a with nextPredicate := a.nextPredicate + 1
               predicates := a.predicates.insert label ⟨a.nextPredicate, filter.accepts⟩ }) := by
  unfold predicate
  rw [h]
  rfl

theorem mints_register (a : Audience) (action : Action) :
    Mints a (a.asks action) (a.register action) := by
  cases action with
  | bind kind name listener script times =>
    exact .of_same (predicates_meet _ _ _) (nextPredicate_meet _ _ _) (by simp [asks])
  | unbind kind name listener =>
    cases listener with
    | none => exact .of_same rfl rfl (by simp [asks])
    | some listener =>
      exact .of_same (predicates_meet _ _ _) (nextPredicate_meet _ _ _) (by simp [asks])
  | bindFilter label filter listener script times =>
    have hlabels := predicates_meet a listener ⟨script, times⟩
    have hnext := nextPredicate_meet a listener ⟨script, times⟩
    have hcalls {q : Predicate} {l : String}
        (hq : .bindFilter q l ∈ a.asks (.bindFilter label filter listener script times)) :
        q = (a.predicate label filter).1 :=
      (HubCall.bindFilter.inj (List.mem_singleton.1 hq)).1
    cases hget : a.predicates.get? label with
    | some p =>
      have hmet := predicate_of_some (hlabels.symm ▸ hget) filter
      refine .of_same ?_ ?_ fun q l hq => ⟨label, ?_⟩
      · show ((a.meet listener ⟨script, times⟩).predicate label filter).2.predicates = _
        rw [hmet, hlabels]
      · show ((a.meet listener ⟨script, times⟩).predicate label filter).2.nextPredicate = _
        rw [hmet, hnext]
      · rw [hcalls hq, predicate_of_some hget]
        exact hget
    | none =>
      have hmet := predicate_of_none (hlabels.symm ▸ hget) filter
      refine .of_insert label filter.accepts ?_ ?_ fun q l hq => ?_
      · show ((a.meet listener ⟨script, times⟩).predicate label filter).2.predicates = _
        rw [hmet, hlabels, hnext]
      · show ((a.meet listener ⟨script, times⟩).predicate label filter).2.nextPredicate = _
        rw [hmet, hnext]
      · rw [hcalls hq, predicate_of_none hget]
  | unbindFilter label =>
    cases hget : a.predicates.get? label with
    | none =>
      have hsame : a.register (.unbindFilter label) = a := by rw [register, hget]
      refine .of_same (by rw [hsame]) (by rw [hsame]) fun q l hq => ?_
      rw [asks, hget] at hq
      cases hq
    | some p =>
      have hsame : a.register (.unbindFilter label) = { a with hub := a.hub.unbindFilter p } := by
        rw [register, hget]
      refine .of_same (by rw [hsame]) (by rw [hsame]) fun q l hq => ?_
      rw [asks, hget] at hq
      cases List.mem_singleton.1 hq
  | announce event => exact .of_quiet rfl rfl
  | withdraw title => exact .of_quiet rfl rfl

theorem predicates_bindFresh (a : Audience) (label : String) (filter : Filter) (listener : String) :
    (a.bindFresh label filter listener).predicates =
      a.predicates.insert label ⟨a.nextPredicate, filter.accepts⟩ := by
  simp only [bindFresh, freshPredicate, predicates_meet, nextPredicate_meet]

theorem nextPredicate_bindFresh (a : Audience) (label : String) (filter : Filter)
    (listener : String) :
    (a.bindFresh label filter listener).nextPredicate = a.nextPredicate + 1 :=
  congrArg (· + 1) (nextPredicate_meet a listener {})

theorem mints_bindFresh (a : Audience) (label : String) (filter : Filter) (listener : String) :
    Mints a [.bindFilter ⟨a.nextPredicate, filter.accepts⟩ listener]
      (a.bindFresh label filter listener) := by
  refine .of_insert label filter.accepts (predicates_bindFresh _ _ _ _)
    (nextPredicate_bindFresh _ _ _ _) fun q l hq => ?_
  simp only [List.mem_singleton, HubCall.bindFilter.injEq] at hq
  exact hq.1

theorem mints_hear (a : Audience) (listener : String) (change : Change) :
    Mints a [] (a.hear listener change).1 := by
  unfold hear
  dsimp only
  split <;> exact .of_quiet rfl rfl

/-- What holds at first and is kept whenever the hub is called, holds of all that an audience
becomes. -/
theorem Becomes.throughout {I : List (HubCall String) → Audience → Prop} {a b : Audience}
    {calls : List (HubCall String)} (h : Becomes a calls b) (hfirst : I [] a)
    (hkept : ∀ {calls b more c}, I calls b → Mints b more c →
      c.hub = more.foldl HubCall.onHub b.hub → I (calls ++ more) c) : I calls b := by
  have hquiet {calls : List (HubCall String)} {b c : Audience} (hb : I calls b)
      (hmints : Mints b [] c) (hhub : c.hub = b.hub) : I calls c := by
    have := hkept hb hmints hhub
    rwa [List.append_nil] at this
  induction h with
  | refl => exact hfirst
  | register action _ ih => exact hkept ih (mints_register _ action) (hub_register _ action)
  | bindFresh label filter listener _ ih =>
    exact hkept ih (mints_bindFresh _ label filter listener) (hub_bindFresh _ label filter listener)
  | hear listener change _ ih =>
    exact hquiet ih (mints_hear _ listener change) (hub_hear _ listener change)
  | noteWithdrawn title _ ih => exact hquiet ih (.of_quiet rfl rfl) rfl
  | takeHeard _ ih => exact hquiet ih (.of_quiet rfl rfl) rfl

/-- What is registered under predicates was so before, or one of the calls has registered it. -/
theorem mem_filters_foldl {h : Hub String} {calls : List (HubCall String)} {f : Predicate × String}
    (hf : f ∈ (calls.foldl HubCall.onHub h).filters) :
    f ∈ h.filters ∨ .bindFilter f.1 f.2 ∈ calls := by
  induction calls generalizing h with
  | nil => exact .inl hf
  | cons call calls ih =>
    rcases ih hf with hmem | hmem
    · cases call with
      | bindFilter p l =>
        rcases List.mem_append.1 hmem with hmem | hmem
        · exact .inl hmem
        · cases List.mem_singleton.1 hmem
          exact .inr List.mem_cons_self
      | unbindFilter p => exact .inl (List.mem_of_mem_filter hmem)
      | bind kind name l => exact .inl hmem
      | unbind kind name l => exact .inl hmem
    · exact .inr (List.mem_cons_of_mem _ hmem)

/-- Whether all identities that are in use have been given out. -/
structure Fresh (a : Audience) : Prop where
  labels : ∀ label p, a.predicates.get? label = some p → p.id < a.nextPredicate
  filters : ∀ f ∈ a.hub.filters, f.1.id < a.nextPredicate

theorem fresh_empty : Fresh {} := ⟨nofun, nofun⟩

theorem Fresh.mints {a b : Audience} {calls : List (HubCall String)} (h : a.Fresh)
    (hmints : Mints a calls b) (hhub : b.hub = calls.foldl HubCall.onHub a.hub) : b.Fresh := by
  have hstems {p : Predicate} (hp : Stems a b p) : p.id < b.nextPredicate := by
    rcases hp with ⟨label, hlabel⟩ | ⟨hid, hlt⟩
    · exact (h.labels label p hlabel).trans_le hmints.next_le
    · exact hid ▸ hlt
  refine ⟨fun label p hp => hstems (hmints.labels label p hp), fun f hf => ?_⟩
  rcases mem_filters_foldl (hhub ▸ hf) with hmem | hmem
  · exact (h.filters f hmem).trans_le hmints.next_le
  · exact hstems (hmints.calls _ _ hmem)

theorem Becomes.fresh {a b : Audience} {calls : List (HubCall String)} (h : Becomes a calls b)
    (ha : a.Fresh) : b.Fresh :=
  h.throughout (I := fun _ => Fresh) ha fun hb hmints hhub => hb.mints hmints hhub

end Audience

/-! ## One registration among others -/

/-- Whether a listener is registered under a predicate, and otherwise only those are that were
registered there by some calls. -/
def Hub.Keeps (h : Hub String) (p : Predicate) (listener : String)
    (calls : List (HubCall String)) : Prop :=
  ∃ before after, h.filters = before ++ (p, listener) :: after ∧
    (∀ f ∈ before, f.1.id ≠ p.id) ∧
    ∀ f ∈ after, f.1.id = p.id → f.1 = p ∧ .bindFilter p f.2 ∈ calls

theorem Hub.Keeps.onHub {h : Hub String} {p : Predicate} {listener : String}
    {calls : List (HubCall String)} (hk : h.Keeps p listener calls) (call : HubCall String)
    (hbind : ∀ q l, call = .bindFilter q l → q.id = p.id → q = p)
    (hunbind : ∀ q, call = .unbindFilter q → q.id ≠ p.id) :
    (call.onHub h).Keeps p listener (calls ++ [call]) := by
  obtain ⟨before, after, hfilters, hbefore, hafter⟩ := hk
  have hmore : ∀ f ∈ after, f.1.id = p.id → f.1 = p ∧ .bindFilter p f.2 ∈ calls ++ [call] :=
    fun f hf hid => (hafter f hf hid).imp_right (List.mem_append_left _)
  cases call with
  | bind kind name l => exact ⟨before, after, hfilters, hbefore, hmore⟩
  | unbind kind name l => exact ⟨before, after, hfilters, hbefore, hmore⟩
  | bindFilter q l =>
    refine ⟨before, after ++ [(q, l)], ?_, hbefore, ?_⟩
    · show h.filters ++ [(q, l)] = _
      rw [hfilters, List.append_assoc]
      rfl
    · intro f hf hid
      rcases List.mem_append.1 hf with hf | hf
      · exact hmore f hf hid
      · cases List.mem_singleton.1 hf
        cases hbind q l rfl hid
        exact ⟨rfl, List.mem_append_right _ List.mem_cons_self⟩
  | unbindFilter q =>
    have hq := hunbind q rfl
    refine ⟨before.filter fun f => f.1.id ≠ q.id, after.filter fun f => f.1.id ≠ q.id, ?_,
      fun f hf => hbefore f (List.mem_of_mem_filter hf),
      fun f hf => hmore f (List.mem_of_mem_filter hf)⟩
    show h.filters.filter _ = _
    rw [hfilters, List.filter_append, List.filter_cons, if_pos (decide_eq_true hq.symm)]

theorem Hub.Keeps.foldl {h : Hub String} {p : Predicate} {listener : String}
    {calls : List (HubCall String)} (hk : h.Keeps p listener calls) {more : List (HubCall String)}
    (hbind : ∀ q l, .bindFilter q l ∈ more → q.id = p.id → q = p)
    (hunbind : ∀ q, .unbindFilter q ∈ more → q.id ≠ p.id) :
    (more.foldl HubCall.onHub h).Keeps p listener (calls ++ more) := by
  induction more generalizing h calls with
  | nil => rwa [List.append_nil]
  | cons call more ih =>
    have hstep := hk.onHub call (fun q l hq => hbind q l (hq ▸ List.mem_cons_self))
      fun q hq => hunbind q (hq ▸ List.mem_cons_self)
    have hrest := ih hstep (fun q l hq => hbind q l (List.mem_cons_of_mem _ hq))
      fun q hq => hunbind q (List.mem_cons_of_mem _ hq)
    rwa [List.append_assoc] at hrest

namespace Audience

/-- Whether a listener is registered under a predicate whose identity nothing else has. -/
structure Bound (p : Predicate) (listener : String) (calls : List (HubCall String))
    (a : Audience) : Prop where
  known : p.id < a.nextPredicate
  labels : ∀ label q, a.predicates.get? label = some q → q.id = p.id → q = p
  hub : a.hub.Keeps p listener calls

theorem bound_bindFresh {a : Audience} (h : a.Fresh) (label : String) (filter : Filter)
    (listener : String) :
    Bound ⟨a.nextPredicate, filter.accepts⟩ listener [] (a.bindFresh label filter listener) := by
  have hnext := nextPredicate_bindFresh a label filter listener
  have hlabels := predicates_bindFresh a label filter listener
  refine ⟨?_, ?_, a.hub.filters, [], ?_, ?_, List.forall_mem_nil _⟩
  · rw [hnext]
    exact Nat.lt_succ_self _
  · intro label' q hq hid
    rw [hlabels, Keyed.get?_insert] at hq
    split at hq
    · exact (Option.some.inj hq).symm
    · exact absurd hid (h.labels label' q hq).ne
  · rw [hub_bindFresh]
    rfl
  · exact fun f hf => (h.filters f hf).ne

/-- The label stands for the new predicate. -/
theorem get?_label_bindFresh (a : Audience) (label : String) (filter : Filter) (listener : String) :
    (a.bindFresh label filter listener).predicates.get? label =
      some ⟨a.nextPredicate, filter.accepts⟩ := by
  rw [predicates_bindFresh, Keyed.get?_insert_self]

theorem Bound.mints {p : Predicate} {listener : String} {calls more : List (HubCall String)}
    {a b : Audience} (h : Bound p listener calls a) (hmints : Mints a more b)
    (hhub : b.hub = more.foldl HubCall.onHub a.hub)
    (hunbind : ∀ q, .unbindFilter q ∈ more → q.id ≠ p.id) :
    Bound p listener (calls ++ more) b := by
  have hstems {q : Predicate} (hq : Stems a b q) (hid : q.id = p.id) : q = p := by
    rcases hq with ⟨label, hlabel⟩ | ⟨hnew, -⟩
    · exact h.labels label q hlabel hid
    · exact absurd (hid.symm.trans hnew) h.known.ne
  refine ⟨h.known.trans_le hmints.next_le, fun label q hq => hstems (hmints.labels label q hq), ?_⟩
  rw [hhub]
  exact h.hub.foldl (fun q l hq => hstems (hmints.calls q l hq)) hunbind

/-- A listener stays registered until what is under its predicate is cancelled. -/
theorem Bound.becomes {p : Predicate} {listener : String} {calls : List (HubCall String)}
    {a b : Audience} (ha : Bound p listener [] a) (h : Becomes a calls b)
    (hunbind : ∀ q, .unbindFilter q ∈ calls → q.id ≠ p.id) : Bound p listener calls b := by
  refine h.throughout (I := fun calls b => (∀ q, .unbindFilter q ∈ calls → q.id ≠ p.id) →
    Bound p listener calls b) (fun _ => ha) ?_ hunbind
  intro calls b more c hb hmints hhub hcalls
  exact (hb fun q hq => hcalls q (List.mem_append_left _ hq)).mints hmints hhub
    fun q hq => hcalls q (List.mem_append_right _ hq)

/-- Compiles a filter. A bare test is itself the predicate, with the identity that it has; any other
filter is compiled to a predicate of its own. -/
def compiled (a : Audience) (identity : Nat) : Filter → Predicate × Audience
  | .predicate test => (⟨identity, test⟩, a)
  | f => a.freshPredicate f.accepts

/-- Registers a listener under the predicate that a filter is compiled to. -/
def bindCompiled (a : Audience) (identity : Nat) (label : String) (filter : Filter)
    (listener : String) : Audience :=
  let (p, a) := (a.meet listener {}).compiled identity filter
  { a with predicates := a.predicates.insert label p, hub := a.hub.bindFilter p listener }

end Audience

namespace Collection

/-- The filter of a collection is a conjunction. -/
theorem filter_after_eq_all (ts : List Tiddler) (ops : List Operation) :
    ∃ parts, (after ⟨ts, .everything⟩ ops).filter = .all parts := by
  refine after_induction (P := fun c => ∃ parts, c.filter = .all parts) ?_ _ ⟨[], rfl⟩
  intro op hop s hs c hc
  obtain ⟨parts, hparts⟩ := hc
  rw [filter_apply]
  cases s with
  | narrow condition => exact ⟨parts ++ [condition], by rw [Step.onFilter, hparts]; rfl⟩
  | map f => exact ⟨[], rfl⟩
  | sortBy order => exact ⟨parts, hparts⟩
  | limit count => exact ⟨parts, hparts⟩
  | unique => exact ⟨parts, hparts⟩

/-- Whether an event is about a change of a tiddler that meets all that a chain asks. -/
def Concerns (ops : List Operation) (e : Event) : Prop :=
  e.kind = .tiddler ∧ ∃ t, e.change.tiddler? = some t ∧ MeetsAll ops t

end Collection

/-- A collection's predicate is never one that somebody else may have, whichever tests it has been
narrowed by. -/
theorem Store.bindCollection_eq_bindCompiled (s : Store) (identity : Nat) (label : String)
    (ts : List Tiddler) (ops : List Collection.Operation) (listener : String) :
    (s.bindCollection label (Collection.after ⟨ts, .everything⟩ ops) listener).audience =
      s.audience.bindCompiled identity label (Collection.after ⟨ts, .everything⟩ ops).filter
        listener := by
  obtain ⟨parts, hparts⟩ := Collection.filter_after_eq_all ts ops
  show s.audience.bindFresh label (Collection.after ⟨ts, .everything⟩ ops).filter listener = _
  rw [hparts]
  rfl

/-- Whether a predicate hears of an event: a change of a tiddler that it accepts. -/
def Predicate.Hears (p : Predicate) (e : Event) : Prop :=
  e.kind = .tiddler ∧ ∃ t, e.change.tiddler? = some t ∧ p.accepts t

theorem Collection.hears_iff_concerns (ts : List Tiddler) (ops : List Operation) (id : Nat)
    (e : Event) :
    Predicate.Hears ⟨id, (after ⟨ts, .everything⟩ ops).filter.accepts⟩ e ↔ Concerns ops e := by
  simp only [Predicate.Hears, Concerns, accepts_after]

section Filters

variable {h : Hub String} {p : Predicate} {listener : String}
  {before after : List (Predicate × String)}

/-- A registration adds one call to an event that its predicate hears of. -/
theorem Hub.called_of_hears (hfilters : h.filters = before ++ (p, listener) :: after) {e : Event}
    (he : p.Hears e) :
    ∃ first rest, Hub.called { h with filters := before ++ after } e = first ++ rest ∧
      h.called e = first ++ listener :: rest := by
  obtain ⟨hkind, t, ht, hp⟩ := he
  refine ⟨(h.bindings e.kind).all ++ (h.bindings e.kind).forName e.name ++
    (before.filter fun f => f.1.accepts t).map Prod.snd,
    (after.filter fun f => f.1.accepts t).map Prod.snd, ?_, ?_⟩
  · simp only [Hub.called, Hub.accepting, hkind, ht, List.filter_append, List.map_append,
      List.append_assoc]
  · simp only [Hub.called, Hub.accepting, hkind, ht, hfilters, List.filter_append, List.map_append,
      List.append_assoc, List.filter_cons, hp, if_true, List.map_cons]

/-- It adds none to any other event. -/
theorem Hub.called_of_not_hears (hfilters : h.filters = before ++ (p, listener) :: after)
    {e : Event} (he : ¬ p.Hears e) :
    h.called e = Hub.called { h with filters := before ++ after } e := by
  unfold Hub.called Hub.accepting
  congr 1
  cases hkind : e.kind with
  | recipe => rfl
  | bag => rfl
  | tiddler =>
    cases ht : e.change.tiddler? with
    | none => rfl
    | some t =>
      have hp : p.accepts t = false := Bool.eq_false_iff.2 fun hp => he ⟨hkind, t, ht, hp⟩
      simp [hfilters, hp]

/-- To cancel what is under a predicate drops the registration and those made with the same. -/
theorem Hub.unbindFilter_of_filters (hfilters : h.filters = before ++ (p, listener) :: after)
    (hbefore : ∀ f ∈ before, f.1.id ≠ p.id) :
    h.unbindFilter p =
      { h with filters := before ++ after.filter fun f => f.1.id ≠ p.id } := by
  have hkept : before.filter (fun f => f.1.id ≠ p.id) = before :=
    List.filter_eq_self.2 fun f hf => decide_eq_true (hbefore f hf)
  unfold Hub.unbindFilter
  rw [hfilters, List.filter_append, hkept, List.filter_cons, if_neg (by simp)]

end Filters

open Collection Audience in
/-- A listener bound to a collection is registered under a predicate of its own. Until somebody
cancels what is under it, the listener is called once, besides the calls that there are without the
registration, for each change of a tiddler that meets all that the collection was narrowed by, and
for nothing else. Cancelling drops the registration with those that were made with the same
predicate since, and no other. -/
theorem Store.bound_collection_hears (s : Store) {earlier : List (HubCall String)}
    (hs : Becomes {} earlier s.audience) (ts : List Tiddler) (ops : List Collection.Operation)
    (label listener : String) {later : List (HubCall String)} {b : Audience}
    (hb : Becomes (s.bindCollection label (after ⟨ts, .everything⟩ ops) listener).audience later b)
    (hkept : ∀ q, .unbindFilter q ∈ later → q.id ≠ s.audience.nextPredicate) :
    let c := after ⟨ts, .everything⟩ ops
    let p : Predicate := ⟨s.audience.nextPredicate, c.filter.accepts⟩
    (∀ identity, (s.bindCollection label c listener).audience =
      s.audience.bindCompiled identity label c.filter listener) ∧
    (s.bindCollection label c listener).audience.predicates.get? label = some p ∧
    ∃ before after, b.hub.filters = before ++ (p, listener) :: after ∧
      (∀ e, Concerns ops e → ∃ first rest,
        Hub.called { b.hub with filters := before ++ after } e = first ++ rest ∧
          b.hub.called e = first ++ listener :: rest) ∧
      (∀ e, ¬ Concerns ops e →
        b.hub.called e = Hub.called { b.hub with filters := before ++ after } e) ∧
      (∀ {τ : Type} (withdraw : String → τ → τ × Option Event) (state : τ) (e : Event),
        ∃ notes, Tells e.change (b.hub.called e) notes ∧
          (b.perform withdraw state (.announce e)).1.heard = b.heard ++ notes) ∧
      (∀ {τ : Type} (withdraw : String → τ → τ × Option Event) (state : τ) (action : Action),
        ∃ more, Becomes b more (b.perform withdraw state action).1) ∧
      b.hub.unbindFilter p =
        { b.hub with filters := before ++ after.filter fun f => f.1.id ≠ p.id } ∧
      ∀ f ∈ after, f.1.id = p.id → f.1 = p ∧ .bindFilter p f.2 ∈ later := by
  intro c p
  have hfresh : s.audience.Fresh := hs.fresh fresh_empty
  have hbound : Bound p listener later b :=
    (bound_bindFresh hfresh label c.filter listener).becomes hb hkept
  obtain ⟨before, after, hfilters, hbefore, hafter⟩ := hbound.hub
  refine ⟨fun identity => bindCollection_eq_bindCompiled s identity label ts ops listener,
    get?_label_bindFresh _ _ _ _, before, after, hfilters, fun e he => ?_, fun e he => ?_,
    fun withdraw state e => ?_, fun withdraw state action => ?_,
    Hub.unbindFilter_of_filters hfilters hbefore, hafter⟩
  · exact Hub.called_of_hears hfilters ((hears_iff_concerns ts ops _ e).2 he)
  · exact Hub.called_of_not_hears hfilters fun h => he ((hears_iff_concerns ts ops _ e).1 h)
  · rw [perform_announce]
    exact heard_callEach withdraw e.change b state _
  · exact Becomes.refl.run withdraw state [.perform action]

/-- A collection narrowed to cats. -/
def Collection.cats : Collection := after ⟨Fixtures.tiddlers, .everything⟩ [.tag "cat"]

/-- An audience that a store gets when two listeners are bound to the cats. -/
def Audience.twiceBound : Audience :=
  (Store.bindCollection {} "p" Collection.cats "l").audience.bindFresh "q"
    Collection.cats.filter "m"

open Collection Audience in
/-- Both listeners are called for a cat, and cancelling the first registration leaves the second. -/
theorem Store.second_binding_stands :
    (∃ first rest, twiceBound.hub.called (.changed { title := "Tom", tags := ["cat"] }) =
      first ++ "l" :: rest) ∧
    (twiceBound.hub.unbindFilter ⟨0, cats.filter.accepts⟩).called
      (.changed { title := "Tom", tags := ["cat"] }) = ["m"] := by
  obtain ⟨-, -, before, after, -, hheard, -, -, -, -, -⟩ :=
    Store.bound_collection_hears {} .refl Fixtures.tiddlers [.tag "cat"] "p" "l"
      (.bindFresh "q" cats.filter "m" .refl) (by simp)
  have hcat : Concerns [.tag "cat"] (.changed { title := "Tom", tags := ["cat"] }) :=
    ⟨rfl, _, rfl, by simp [MeetsAll, List.rtakeWhile, Operation.isMap, Operation.Admits]⟩
  obtain ⟨first, rest, -, hcalled⟩ := hheard _ hcat
  exact ⟨⟨first, rest, hcalled⟩, by decide⟩

/-- Somebody who is handed the predicate of a binding and registers with it loses the registration
when the binding is cancelled. -/
theorem Store.handed_on_predicate_is_cancelled_too :
    let e := Event.changed { title := "Tom", tags := ["cat"] }
    let bound := (Store.bindCollection {} "p" Collection.cats "l").audience
    let shared := bound.register (.bindFilter "p" (.leaf (.tag "cat")) "m" [] 0)
    shared.hub.called e = ["l", "m"] ∧
      (shared.register (.unbindFilter "p")).hub.called e = [] := by
  decide

end TiddlerShelf
