import TiddlerShelf.Proofs.Arrival
import TiddlerShelf.Proofs.Lookup

/-! # Searches that are remembered

A search is remembered when its task comes to know the defaults, and nothing else that a store does
changes which searches are remembered. So in every activity the store remembers each query that has
been searched for once, in the order in which they came first, after the container that it reads
from (`Run.sources_eq`). -/

namespace TiddlerShelf

open Program

namespace Source

/-- The query of a search. -/
def query? : Source → Option String
  | container _ => none
  | search query _ => some query

end Source

namespace Store

/-- The queries of the searches that a store remembers, in order. -/
def queries (s : Store) : List String := s.sources.values.filterMap Source.query?

/-- Queries that are remembered, with one more at the end if it is not among them. -/
def remembering (queries : List String) (query : String) : List String :=
  if query ∈ queries then queries else queries ++ [query]

theorem foldl_remembering (queries : List String) :
    queries.foldl remembering [] = queries.eraseDups := by
  induction queries using List.reverseRecOn with
  | nil => rfl
  | append_singleton queries query ih =>
    rw [List.foldl_append, ih, eraseDups_concat]
    show remembering _ _ = _
    unfold remembering
    simp only [List.mem_eraseDups]

variable {s s' : Store} {place : Container}

theorem queries_of_same (h : s'.sources = s.sources) : s'.queries = s.queries :=
  congrArg (fun sources : Keyed String Source => sources.values.filterMap Source.query?) h

theorem Nowhere.queries_eq (h : s.Nowhere) : s.queries = [] := by
  rw [queries, h.sources]
  rfl

theorem filterMap_query? (place : Container) (queries : List String) (host : String) :
    (Source.container place :: queries.map (.search · host)).filterMap Source.query? = queries := by
  rw [List.filterMap_cons, List.filterMap_map]
  exact List.filterMap_some

/-- Where a store reads from a container, the remembered queries tell the sources. -/
theorem At.sources_eq (h : s.At place) :
    s.sources.values = .container place :: s.queries.map (.search · place.host) := by
  obtain ⟨queries, hqueries⟩ := h.sources
  have hvalues : s.sources.values = .container place :: queries.map (.search · place.host) := by
    rw [Keyed.values, hqueries, List.map_map]
    exact List.map_id _
  rw [Store.queries, hvalues, filterMap_query?]

theorem At.queries_register (h : s.At place) (query : String) :
    (s.register (.search query place.host)).queries = remembering s.queries query := by
  have hmem : Source.search query place.host ∈ s.sources.values ↔ query ∈ s.queries := by
    rw [h.sources_eq]
    simp
  have hvalues : (s.register (.search query place.host)).sources.values =
      if query ∈ s.queries then s.sources.values
      else s.sources.values ++ [.search query place.host] := by
    rw [Keyed.values, h.entries_register]
    simp only [hmem]
    split
    · rfl
    · exact List.map_append
  rw [Store.queries, hvalues, remembering]
  split
  · rfl
  · exact List.filterMap_append

/-- Coming to read from the container of the defaults makes no difference to the searches. -/
theorem Placed.queries_moveTo (h : s.Placed) {d : Defaults} (hd : s.resolver = .resolved d) :
    (s.moveTo d.pullFrom).queries = s.queries := by
  rcases h with h | ⟨d', hd', h⟩
  · rw [h.queries_eq, queries, Store.moveTo, if_neg (by simp [h.location])]
    have hempty : s.sources.entries = [] := List.map_eq_nil_iff.1 h.sources
    show ((Keyed.put (Source.container d.pullFrom).route (.container d.pullFrom)
      s.sources.entries).map Prod.snd).filterMap Source.query? = []
    rw [hempty]
    rfl
  · obtain rfl : d = d' := Resolver.resolved.inj (hd.symm.trans hd')
    have hthere : s.location.any d.pullFrom.sameAs = true := by
      rw [h.location]
      exact beq_self_eq_true d.pullFrom.name
    rw [Store.moveTo, if_pos hthere]

end Store

namespace Program

/-- The defaults that a stretch that begins in a store has at hand: it is the first of its call and
the store knows them, or it begins with them. -/
def Cause.found? (k : Cause) (s : Store) : Option Defaults :=
  match k with
  | .called => s.defaults?
  | .resolved (.ok d) => some d
  | _ => none

/-- The query that is searched for in a stretch of a call: that of a search, if the stretch has the
defaults at hand. -/
def Cause.searches? (k : Cause) (c : Call) (s : Store) : Option String :=
  match c with
  | .search query => (k.found? s).map fun _ => query
  | _ => none

/-- The searches that a store remembers after a stretch of a call that has begun in it. -/
def Cause.remembered (k : Cause) (c : Call) (s : Store) : List String :=
  (k.searches? c s).elim s.queries (Store.remembering s.queries)

/-- What a stretch of a call does to the place and to the searches that are remembered. -/
structure Remembers (c : Call) (k : Cause) (s₀ s : Store) : Prop extends Arrives k s₀ s where
  queries : s₀.Placed → (∀ d, k = .resolved (.ok d) → s₀.resolver = .resolved d) →
    s.queries = k.remembered c s₀

section

variable {c : Call} {k : Cause} {s₀ s s' : Store}

theorem Cause.remembered_of_not_search (hc : ∀ query, c ≠ .search query) (k : Cause) (s : Store) :
    k.remembered c s = s.queries := by
  cases c with
  | search query => exact absurd rfl (hc query)
  | _ => rfl

theorem Cause.remembered_of_not_found (c : Call) (h : k.found? s = none) :
    k.remembered c s = s.queries := by
  unfold remembered searches?
  rw [h]
  cases c <;> rfl

/-- At the beginning of a stretch nothing has been remembered yet. -/
theorem Remembers.refl (h : k.remembered c s = s.queries) : Remembers c k s s :=
  ⟨.refl k s, fun _ _ => h.symm⟩

theorem Remembers.stays (h : Remembers c k s₀ s) (h' : s.Stays s') : Remembers c k s₀ s' :=
  ⟨h.toArrives.stays h', fun hs hk => (Store.queries_of_same h'.sources).trans (h.queries hs hk)⟩

theorem Remembers.moveTo (h : Remembers c k s₀ s) {d : Defaults} (hd : k.Knows s d) :
    Remembers c k s₀ (s.moveTo d.pullFrom) := by
  refine ⟨h.toArrives.moveTo hd, fun hs hk => ?_⟩
  rw [(h.placed hs hk).queries_moveTo (h.known hd hk)]
  exact h.queries hs hk

/-- A search is remembered once the place is found. -/
theorem Remembers.register {query : String} {d : Defaults} (hd : k.Knows s d)
    (hfound : k.found? s = some d) :
    Remembers (.search query) k s
      ((s.moveTo d.pullFrom).register (.search query d.pullFrom.host)) := by
  have hself := Arrives.refl k s
  refine ⟨(hself.moveTo hd).register hd query, fun hs hk => ?_⟩
  have hknown := hself.known hd hk
  rw [(hs.at_moveTo hknown).queries_register, hs.queries_moveTo hknown, Cause.remembered,
    Cause.searches?, hfound]
  rfl

theorem refreshing_remembers (c : Call) : Refreshing (Remembers c) fun _ => True where
  fetch _ := trivial
  fetched _ _ _ _ := .refl (Cause.remembered_of_not_found c rfl)
  fileSynced h _ := h.stays (Store.stays_fileSynced _ _)
  dropGone h _ := h.stays (Store.stays_dropGone _ _)

theorem working_remembers (hc : ∀ query, c ≠ .search query) :
    Working (Remembers c) fun _ => True where
  toRefreshing := refreshing_remembers c
  failed _ _ := .refl (Cause.remembered_of_not_search hc _ _)
  found _ _ := (Remembers.refl (Cause.remembered_of_not_search hc _ _)).moveTo (.inr rfl)
  moveTo h hd := h.moveTo hd
  put _ := trivial
  afterPut since t answer s := (Remembers.refl (Cause.remembered_of_not_found c rfl)).stays
    (Store.stays_afterPut s since t answer)
  delete _ := trivial
  deleted _ _ _ _ := .refl (Cause.remembered_of_not_found c rfl)
  fileModified h t := h.stays (Store.stays_fileModified _ t)
  forget h t := h.stays (Store.stays_forget _ t)

theorem keeps_search (query : String) (s : Store) :
    (Store.search query).Keeps (within (Remembers (.search query)) fun _ => True) .called s s := by
  have hgo : ∀ {k : Cause} {s : Store} {d : Defaults}, k.Knows s d → k.found? s = some d →
      Meets (within (Remembers (.search query)) fun _ => True)
        (fun k s₀ s _ => within (Remembers (.search query)) (fun _ => True) k s₀ s .over) (do
          Program.change (·.register (.search query d.pullFrom.host))
          Store.refreshSource (.search query d.pullFrom.host)) k s (s.moveTo d.pullFrom) :=
    fun hd hfound => ((refreshing_remembers _).refreshSource _).keeps (.register hd hfound)
  refine meets_getDefaults (fun d hd => ?_) (fun hne => ?_) (fun d s' => ?_) fun e s' => ?_
  · exact hgo (.inl hd) (by rw [Cause.found?, Store.defaults?, hd]; rfl)
  · refine within_waits (.refl (Cause.remembered_of_not_found _ ?_))
    unfold Cause.found? Store.defaults?
    cases hd : s.resolver with
    | resolved d => exact absurd hd (hne d)
    | _ => rfl
  · exact hgo (.inr rfl) rfl
  · exact within_over (.refl (Cause.remembered_of_not_found _ rfl))

end

end Program

theorem Call.keeps_remembering (c : Call) (s : Store) :
    c.program.Keeps (within (Remembers c) fun _ => True) .called s s := by
  have hother : (∀ query, c ≠ .search query) →
      c.program.Keeps (within (Remembers c) fun _ => True) .called s s := fun hc =>
    (Call.within_of_not_search (working_remembers hc) hc).keeps
      (.refl (Cause.remembered_of_not_search hc _ s))
  cases c with
  | search query => exact keeps_map.2 (keeps_search query s)
  | _ => exact hother nofun

namespace Activity

variable {a b : Activity}

/-- The query that is searched for in a step. -/
def Transition.searched? (tr : Transition) : Option String :=
  match tr.move with
  | .go _ c k => k.searches? c tr.before.store
  | _ => none

/-- The queries that have been searched for, in order. -/
def searched (h : List Transition) : List String := h.filterMap Transition.searched?

theorem queries_goOn (id : TaskId) {c : Call} {p : Program Call.Outcome} {k : Cause}
    (hp : p.Keeps (within (Remembers c) fun _ => True) k a.store a.store) (ha : a.store.Placed)
    (hk : ∀ d, k = .resolved (.ok d) → a.store.resolver = .resolved d) :
    (a.goOn id c p).store.queries = k.remembered c a.store := by
  obtain ⟨resolver, hstore⟩ := store_goOn a id c p
  rw [hstore]
  exact hp.proceed.1.1.queries ha hk

/-- In a step that searches, the query is remembered. No other step makes a difference. -/
theorem Step.queries {m : Move} (hstep : Step a m b) (h : a.Placed fun _ => True)
    (ha : a.Heeds fun c => within (Remembers c) fun _ => True) :
    b.store.queries = (Transition.searched? ⟨a, m, b⟩).elim a.store.queries
      (Store.remembering a.store.queries) := by
  cases hstep with
  | @call id c hid =>
    exact queries_goOn (a := { a with fresh := id + 1 }) id (c.keeps_remembering a.store) h.store
      nofun
  | answer ht answer => exact queries_goOn _ (ha ht answer a.store) h.store nofun
  | @learn id c next ht answer result hresult =>
    have hsame : (Cause.resolved result).remembered c (a.inform result).store =
        (Cause.resolved result).remembered c a.store := by cases result <;> rfl
    refine (queries_goOn id (ha ht result _) (h.inform ⟨c, next, ht⟩ result).store fun d hd => ?_
      ).trans hsame
    cases hd
    rfl
  | @informed id c result next ht =>
    refine queries_goOn id (ha ht a.store) h.store fun d hd => ?_
    cases hd
    exact h.told trivial ⟨c, next, ht⟩
  | retry ht hd =>
    refine queries_goOn _ (ha ht _ a.store) h.store fun d' hd' => ?_
    cases hd'
    exact hd
  | @again id c next ht _ hne =>
    obtain ⟨resolver, t, heq, -⟩ := goOn_resolve id c next hne
    rw [heq]
    rfl
  | drop ht => rfl
  | deed d => exact Store.queries_of_same (d.stays_on a.store).sources

/-- In the end of a run the searches that are remembered are those of its beginning and all that it
has searched for. -/
theorem Run.queries {h : List Transition} (hrun : Run a h b) (ha : a.Placed fun _ => True)
    (harriving : a.Heeds fun _ => arriving)
    (hheeds : a.Heeds fun c => within (Remembers c) fun _ => True) :
    b.store.queries = (searched h).foldl Store.remembering a.store.queries := by
  induction hrun with
  | nil => rfl
  | @cons a b' c m h hstep hrun ih =>
    rw [ih (hstep.placed ha harriving) (hstep.heeds harriving fun _ c _ => c.keeps_arriving)
      (hstep.heeds hheeds fun _ c _ => c.keeps_remembering), hstep.queries ha hheeds]
    unfold searched
    rw [List.filterMap_cons]
    cases Transition.searched? ⟨a, m, b'⟩ <;> rfl

/-- In every run of a store, the store remembers what has been searched for, each query once and in
the order in which they came first. They are among the sources if it reads from somewhere, and
nothing is a source if it does not. -/
theorem Run.sources_eq {config : Config} {clock : Instant} {defaults : Option Defaults}
    {cache : Cache} {h : List Transition} (hrun : Run (start config clock defaults cache) h b) :
    b.store.queries = (searched h).eraseDups ∧
      (b.store.sources.values = [] ∧ searched h = [] ∨
        ∃ d, b.store.resolver = .resolved d ∧ b.store.sources.values =
          .container d.pullFrom :: (searched h).eraseDups.map (.search · d.pullFrom.host)) := by
  have hplaced := placed_start config clock defaults cache
  have hqueries : b.store.queries = (searched h).eraseDups := by
    rw [hrun.queries hplaced (fun hx => nomatch hx) (fun hx => nomatch hx)]
    exact Store.foldl_remembering _
  refine ⟨hqueries, ?_⟩
  rcases (hrun.placed hplaced fun hx => nomatch hx).store with hnowhere | ⟨d, hd, hat⟩
  · refine .inl ⟨hnowhere.sources, ?_⟩
    have hnone := hqueries.symm.trans hnowhere.queries_eq
    exact List.eq_nil_iff_forall_not_mem.2 fun q hq => by
      rw [← List.mem_eraseDups, hnone] at hq
      exact List.not_mem_nil hq
  · refine .inr ⟨d, hd, ?_⟩
    rw [hat.sources_eq, hqueries]

end Activity

end TiddlerShelf
