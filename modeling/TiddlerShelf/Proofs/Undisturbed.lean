import TiddlerShelf.Proofs.Arrival
import TiddlerShelf.Proofs.Listings
import TiddlerShelf.Session.Basic

/-! # Refreshes that nothing disturbs

Where a task has a store and its server to itself, each request is answered at once, and what a
program comes to can be computed (`undisturbed`). As long as getting does not fail, refreshing a
source then files the listing that the server gives, drops the confirmed copies that the server
disowns, and leaves the server as it is, but for the requests that have come in. Refreshing all
sources does that for one after the other, and gives what it has filed. -/

namespace TiddlerShelf

namespace Program

variable {α β : Type}

/-- What a program comes to that has a store and a server to itself, and what becomes of both. It
comes to nothing if another task is finding out the defaults. -/
def undisturbed : Program α → Store → Server → Option (α × Store × Server)
  | done a, s, server => some (a, s, server)
  | look next, s, server => (next s).undisturbed s server
  | write s next, _, server => next.undisturbed s server
  | ask r next, s, server =>
    let (answer, server) := (server.receive r).answer r
    (next answer).undisturbed s server
  | resolve next, s, server =>
    match s.resolver with
    | .resolved d => (next (.ok d)).undisturbed s server
    | .discovering _ => none
    | .unresolved =>
      let (answer, server) := (server.receive .discover).answer .discover
      let result := Session.defaultsOf s.host answer
      (next result).undisturbed (s.withResolver (.ofResult result)) server

/-- A task of a session in which no requests are held ends with what its program comes to. -/
theorem run_of_undisturbed {p : Program α} {m : Session α} {id : TaskId} {a : α} {s : Store}
    {server : Server} (hheld : ∀ op, m.isHeld op = false)
    (h : p.undisturbed m.store m.server = some (a, s, server)) :
    Session.run id p m = ({ m with store := s, server } : Session α).finish id a := by
  induction p generalizing m with
  | done a' =>
    obtain ⟨rfl, rfl, rfl⟩ := Option.some.inj h |> Prod.mk.inj |> And.imp_right Prod.mk.inj
    rfl
  | look next ih => exact ih m.store hheld h
  | write s' next ih => exact ih (m := { m with store := s' }) hheld h
  | ask r next ih =>
    have hrun : Session.run id (ask r next) m =
        Session.run id (next ((m.server.receive r).answer r).1)
          { m with server := ((m.server.receive r).answer r).2 } :=
      if_neg (Bool.eq_false_iff.1 (hheld r.operation))
    rw [hrun]
    exact ih _ (m := { m with server := ((m.server.receive r).answer r).2 }) hheld h
  | resolve next ih =>
    cases hd : m.store.resolver with
    | resolved d =>
      have hrun : Session.run id (resolve next) m = Session.run id (next (.ok d)) m := by
        simp only [Session.run, hd]
      simp only [undisturbed, hd] at h
      rw [hrun]
      exact ih _ hheld h
    | discovering queue =>
      simp only [undisturbed, hd] at h
      contradiction
    | unresolved =>
      let m' := ({ m with server := m.server.receive .discover } : Session α).discover
      have hrun : Session.run id (resolve next) m = Session.run id (next m'.1) m'.2 := by
        simp only [Session.run, hd]
        exact if_neg (Bool.eq_false_iff.1 (hheld .discover))
      simp only [undisturbed, hd] at h
      rw [hrun]
      exact ih _ (m := m'.2) hheld h

/-- A program that goes on with another comes to what the second comes to after the first. -/
theorem undisturbed_bind (p : Program α) (f : α → Program β) (s : Store) (server : Server) :
    (p >>= f).undisturbed s server =
      (p.undisturbed s server).bind fun x => (f x.1).undisturbed x.2.1 x.2.2 := by
  show (p.bind f).undisturbed s server = _
  induction p generalizing s server with
  | done a => rfl
  | look next ih => exact ih s s server
  | write s' next ih => exact ih s' server
  | ask r next ih => exact ih _ s _
  | resolve next ih =>
    simp only [bind, undisturbed]
    split
    · exact ih _ s server
    · rfl
    · exact ih _ _ _

end Program

namespace Server

variable {s : Server} {r : Request}

/-- A server to which more requests have come in. -/
def hearing (s : Server) (rs : List Request) : Server := { s with received := s.received ++ rs }

theorem hearing_nil (s : Server) : s.hearing [] = s := by
  unfold hearing
  rw [List.append_nil]

theorem hearing_hearing (s : Server) (rs rs' : List Request) :
    (s.hearing rs).hearing rs' = s.hearing (rs ++ rs') := by
  unfold hearing
  rw [List.append_assoc]

/-- What a server gives does not depend on what it has been asked. -/
theorem answer_hearing_of_fetches (h : r.Fetches) (rs : List Request) :
    (s.hearing rs).answer r = ((s.answer r).1, s.hearing rs) := by
  refine Prod.ext ?_ (answer_snd_of_fetches h)
  show ((s.hearing rs).answer r).1 = (s.answer r).1
  by_cases hop : r.operation ∈ s.failing
  · rw [answer, answer, if_pos hop, if_pos (show r.operation ∈ (s.hearing rs).failing from hop)]
  · rw [answer_of_not_failing hop, answer_of_not_failing (s := s.hearing rs) hop]
    cases r with
    | get wanted render =>
      have hfind : (s.hearing rs).find? wanted = s.find? wanted := rfl
      simp only [fulfil, hfind]
      split <;> rfl
    | list c => rfl
    | search query => rfl
    | _ => exact h.elim

theorem answer_discover_snd (s : Server) : (s.answer .discover).2 = s := by
  unfold answer
  split <;> rfl

theorem listingOf_hearing (s : Server) (rs : List Request) (source : Source) :
    (s.hearing rs).listingOf source = s.listingOf source := by
  cases source with
  | container c =>
    show ((s.hearing rs).answer (.list c)).1 = _
    rw [answer_hearing_of_fetches (r := .list c) trivial]
    rfl
  | search query host =>
    show ((s.hearing rs).answer (.search query)).1 = _
    rw [answer_hearing_of_fetches (r := .search query) trivial]
    rfl

end Server

/-- Asking for tiddlers is over at once, and the server has been asked. -/
theorem Program.undisturbed_request {r : Request} (h : r.Fetches) (s : Store) (server : Server) :
    (Program.request r).undisturbed s server =
      some ((server.answer r).1, s, server.hearing [r]) := by
  show some (((server.hearing [r]).answer r).1, s, ((server.hearing [r]).answer r).2) = _
  rw [Server.answer_hearing_of_fetches h]

namespace Store

variable {s : Store} {server : Server}

/-- Drops the confirmed copies that pass a test, and tells of each. -/
def dropCopies (s : Store) (p : Tiddler → Bool) : Store :=
  (s.synced.tiddlers.filter p).foldl dropGone s

/-- A store that has taken in the listing of a source, from a server that disowns some copies. -/
def takeIn (s : Store) (server : Server) (source : Source) (listed : List Tiddler) : Store :=
  (s.fileListing listed).2.dropCopies (server.disowns listed · source)

/-- A store that has taken in the listings of several sources, one after the other. -/
def takeInAll (s : Store) (server : Server) (listings : List (Source × List Tiddler)) : Store :=
  listings.foldl (fun s e => s.takeIn server e.1 e.2) s

/-! ## What taking in does to the confirmed copies -/

theorem synced_fileListing (s : Store) (listed : List Tiddler) :
    (s.fileListing listed).2.synced = s.synced.setAll s.clock listed := by
  induction listed generalizing s with
  | nil => rfl
  | cons t ts ih => exact ih (s.fileSynced t).2

theorem fst_fileListing (s : Store) (listed : List Tiddler) :
    (s.fileListing listed).1 = listed.map (s.synced.stamped s.clock) := by
  induction listed generalizing s with
  | nil => rfl
  | cons t ts ih =>
    have hstamped : (s.fileSynced t).2.synced.stamped s.clock = s.synced.stamped s.clock :=
      funext fun u => Tier.stamped_of_kind_eq (Tier.kind_file _ _) s.clock u
    show (s.fileSynced t).1 :: ((s.fileSynced t).2.fileListing ts).1 = _
    rw [ih]
    show _ :: ts.map ((s.fileSynced t).2.synced.stamped s.clock) = _
    rw [hstamped]
    rfl

theorem synced_dropCopies (s : Store) (p : Tiddler → Bool) :
    (s.dropCopies p).synced = s.synced.without p := by
  unfold dropCopies Tier.without
  generalize s.synced.tiddlers.filter p = ts
  induction ts generalizing s with
  | nil => rfl
  | cons t ts ih => rw [List.foldl_cons, List.foldl_cons, ih, synced_dropGone]

theorem synced_takeIn (s : Store) (server : Server) (source : Source) (listed : List Tiddler) :
    (s.takeIn server source listed).synced = s.synced.takeIn server s.clock source listed := by
  rw [takeIn, synced_dropCopies, synced_fileListing]
  rfl

theorem kind_synced_takeIn (s : Store) (server : Server) (source : Source)
    (listed : List Tiddler) : (s.takeIn server source listed).synced.kind = s.synced.kind := by
  rw [synced_takeIn, Tier.kind_takeIn]

theorem stays_fileListing (s : Store) (listed : List Tiddler) :
    s.Stays (s.fileListing listed).2 ∧ (s.fileListing listed).2.clock = s.clock := by
  induction listed generalizing s with
  | nil => exact ⟨.refl s, rfl⟩
  | cons t ts ih =>
    obtain ⟨hstays, hclock⟩ := ih (s.fileSynced t).2
    exact ⟨(s.stays_fileSynced t).trans hstays, hclock⟩

theorem stays_dropCopies (s : Store) (p : Tiddler → Bool) :
    s.Stays (s.dropCopies p) ∧ (s.dropCopies p).clock = s.clock := by
  unfold dropCopies
  refine List.foldlRecOn (motive := fun s' : Store => s.Stays s' ∧ s'.clock = s.clock) _ _
    ⟨.refl s, rfl⟩ fun s' h t _ => ⟨h.1.trans (s'.stays_dropGone t), ?_⟩
  rw [← h.2]
  unfold dropGone
  split <;> rfl

theorem stays_takeIn (s : Store) (server : Server) (source : Source) (listed : List Tiddler) :
    s.Stays (s.takeIn server source listed) ∧ (s.takeIn server source listed).clock = s.clock := by
  obtain ⟨hfiled, hclock⟩ := s.stays_fileListing listed
  obtain ⟨hdropped, hclock'⟩ := (s.fileListing listed).2.stays_dropCopies
    (server.disowns listed · source)
  exact ⟨hfiled.trans hdropped, hclock'.trans hclock⟩

theorem stays_takeInAll (s : Store) (server : Server) (listings : List (Source × List Tiddler)) :
    s.Stays (s.takeInAll server listings) ∧ (s.takeInAll server listings).clock = s.clock := by
  induction listings generalizing s with
  | nil => exact ⟨.refl s, rfl⟩
  | cons e listings ih =>
    obtain ⟨hstays, hclock⟩ := s.stays_takeIn server e.1 e.2
    obtain ⟨hrest, hclock'⟩ := ih (s.takeIn server e.1 e.2)
    exact ⟨hstays.trans hrest, hclock'.trans hclock⟩

theorem synced_takeInAll (s : Store) (server : Server)
    (listings : List (Source × List Tiddler)) :
    (s.takeInAll server listings).synced = s.synced.takeInAll server s.clock listings := by
  induction listings generalizing s with
  | nil => rfl
  | cons e listings ih =>
    show ((s.takeIn server e.1 e.2).takeInAll server listings).synced = _
    rw [ih, synced_takeIn, (s.stays_takeIn server e.1 e.2).2]
    rfl

/-! ## Refreshing -/

/-- Where getting does not fail, a copy can be got if the server finds it. -/
theorem isOk_answer_get (hget : Operation.get ∉ server.failing) (t : Tiddler) :
    (server.answer (.get t false)).1.isOk = (server.find? t).isSome := by
  rw [Server.answer_of_not_failing hget]
  simp only [Server.fulfil]
  split <;> rename_i hfind <;> rw [hfind] <;> rfl

/-- Of the copies that may have gone, those are dropped that a recipe does not give. -/
theorem undisturbed_dropAllGone (hget : Operation.get ∉ server.failing) (c : Container)
    (ts : List Tiddler) (s : Store) :
    ∃ rs, (dropAllGone c ts).undisturbed s server =
      some ((), (ts.filter fun t => !(c.isRecipe && (server.find? t).isSome)).foldl dropGone s,
        server.hearing rs) := by
  induction ts generalizing s server with
  | nil => exact ⟨[], by rw [Server.hearing_nil]; rfl⟩
  | cons t ts ih =>
    unfold dropAllGone
    cases hc : c.isRecipe with
    | false =>
      obtain ⟨rs, hrs⟩ := ih hget (s.dropGone t)
      rw [hc] at hrs
      exact ⟨rs, hrs⟩
    | true =>
      have hget' : Operation.get ∉ (server.hearing [.get t false]).failing := hget
      obtain ⟨rs, hrs⟩ := ih hget' (if (server.find? t).isSome then s else s.dropGone t)
      refine ⟨[.get t false] ++ rs, ?_⟩
      rw [hc, Server.hearing_hearing] at hrs
      rw [if_pos rfl, Program.undisturbed_bind,
        Program.undisturbed_request (r := .get t false) trivial, Option.bind_some,
        isOk_answer_get hget]
      cases hfind : (server.find? t).isSome with
      | true =>
        rw [hfind] at hrs
        rw [List.filter_cons_of_neg (by simp [hfind])]
        exact hrs
      | false =>
        rw [hfind] at hrs
        rw [List.filter_cons_of_pos (by simp [hfind])]
        exact hrs

/-- Those that may have gone and are not given either are disowned. -/
theorem filter_gone (s : Store) (server : Server) (c : Container) (listed : List Tiddler) :
    ((s.gone c listed).filter fun t => !(c.isRecipe && (server.find? t).isSome)) =
      s.synced.tiddlers.filter (server.disowns listed · (.container c)) := by
  rw [gone, List.filter_filter]
  exact List.filter_congr fun t _ => Bool.and_comm _ _

/-- After a search nothing is disowned. -/
theorem takeIn_search (s : Store) (server : Server) (query host : String)
    (listed : List Tiddler) :
    s.takeIn server (.search query host) listed = (s.fileListing listed).2 := by
  have hnone : ((s.fileListing listed).2.synced.tiddlers.filter
      (server.disowns listed · (.search query host))) = [] := List.filter_false _
  rw [takeIn, dropCopies, hnone]
  rfl

/-- Fetching a listing asks one question. -/
theorem undisturbed_fetch (source : Source) (s : Store) (server : Server) :
    ∃ f r, (fetch source).undisturbed s server =
      some ((server.listingOf source).mapError f, s, server.hearing [r]) := by
  cases source with
  | container c =>
    refine ⟨.retrieveTiddlers, .list c, ?_⟩
    rw [fetch, Program.undisturbed_bind, Program.undisturbed_request (r := .list c) trivial]
    rfl
  | search query host =>
    refine ⟨.search, .search query, ?_⟩
    rw [fetch, Program.undisturbed_bind, Program.undisturbed_request (r := .search query) trivial]
    rfl

/-- Where getting does not fail, refreshing a source that the server gives a listing for files the
listing and drops what the server disowns. -/
theorem undisturbed_refreshSource (hget : Operation.get ∉ server.failing) {source : Source}
    {listed : List Tiddler} (hlisted : server.listingOf source = .ok listed) (s : Store) :
    ∃ rs, (refreshSource source).undisturbed s server =
      some (.ok (s.fileListing listed).1, s.takeIn server source listed, server.hearing rs) := by
  obtain ⟨f, r, hfetch⟩ := undisturbed_fetch source s server
  rw [hlisted] at hfetch
  rw [refreshSource, Program.undisturbed_bind, hfetch, Option.bind_some]
  cases source with
  | container c =>
    have hget' : Operation.get ∉ (server.hearing [r]).failing := hget
    obtain ⟨rs, hdropped⟩ := undisturbed_dropAllGone hget' c
      ((s.fileListing listed).2.gone c listed) (s.fileListing listed).2
    refine ⟨[r] ++ rs, ?_⟩
    have hgoOn := Program.undisturbed_bind (dropAllGone c ((s.fileListing listed).2.gone c listed))
      (fun _ => Program.done (.ok (s.fileListing listed).1 : Except StoreError (List Tiddler)))
      (s.fileListing listed).2 (server.hearing [r])
    rw [hdropped, filter_gone, Server.hearing_hearing] at hgoOn
    exact hgoOn
  | search query host =>
    refine ⟨[r], ?_⟩
    rw [takeIn_search]
    rfl

theorem undisturbed_refreshSource_error {source : Source} {e : RemoteError}
    (hlisted : server.listingOf source = .error e) (s : Store) :
    ∃ e' rs, (refreshSource source).undisturbed s server =
      some (.error e', s, server.hearing rs) := by
  obtain ⟨f, r, hfetch⟩ := undisturbed_fetch source s server
  rw [hlisted] at hfetch
  refine ⟨f e, [r], ?_⟩
  rw [refreshSource, Program.undisturbed_bind, hfetch]
  rfl

/-- Refreshing sources that the server gives listings for takes the listings in, one after the
other, and gives all that was listed, as it was filed. -/
theorem undisturbed_refreshSources (hget : Operation.get ∉ server.failing)
    {listings : List (Source × List Tiddler)}
    (hlisted : ∀ e ∈ listings, server.listingOf e.1 = .ok e.2) (s : Store) :
    ∃ rs, (refreshSources (listings.map Prod.fst)).undisturbed s server =
      some (.ok ((listings.flatMap Prod.snd).map (s.synced.stamped s.clock)),
        s.takeInAll server listings, server.hearing rs) := by
  induction listings generalizing s server with
  | nil => exact ⟨[], by rw [Server.hearing_nil]; rfl⟩
  | cons e listings ih =>
    obtain ⟨he, hlistings⟩ := List.forall_mem_cons.1 hlisted
    obtain ⟨rs, hfirst⟩ := undisturbed_refreshSource hget he s
    have hget' : Operation.get ∉ (server.hearing rs).failing := hget
    obtain ⟨rs', hrest⟩ := ih hget'
      (fun e' he' => (server.listingOf_hearing rs e'.1).trans (hlistings e' he'))
      (s.takeIn server e.1 e.2)
    have hstamped : (s.takeIn server e.1 e.2).synced.stamped (s.takeIn server e.1 e.2).clock =
        s.synced.stamped s.clock := by
      rw [(s.stays_takeIn server e.1 e.2).2]
      exact funext fun t => Tier.stamped_of_kind_eq (s.kind_synced_takeIn server e.1 e.2) _ t
    rw [hstamped, Server.hearing_hearing] at hrest
    refine ⟨rs ++ rs', ?_⟩
    rw [List.map_cons, refreshSources, Program.undisturbed_bind, hfirst, Option.bind_some]
    show (refreshSources (listings.map Prod.fst) >>= _).undisturbed _ _ = _
    rw [Program.undisturbed_bind, hrest, fst_fileListing, List.flatMap_cons, List.map_append]
    rfl

/-- Where refreshing sources succeeds, the server gives listings for all of them. -/
theorem exists_listings (hget : Operation.get ∉ server.failing) {sources : List Source}
    {s s' : Store} {server' : Server} {ts : List Tiddler}
    (h : (refreshSources sources).undisturbed s server = some (.ok ts, s', server')) :
    ∃ listings : List (Source × List Tiddler), listings.map Prod.fst = sources ∧
      ∀ e ∈ listings, server.listingOf e.1 = .ok e.2 := by
  induction sources generalizing s s' server server' ts with
  | nil => exact ⟨[], rfl, fun _ he => absurd he List.not_mem_nil⟩
  | cons source sources ih =>
    rw [refreshSources, Program.undisturbed_bind] at h
    cases hlisted : server.listingOf source with
    | error e =>
      obtain ⟨e', rs, hfirst⟩ := undisturbed_refreshSource_error hlisted s
      rw [hfirst] at h
      cases h
    | ok listed =>
      obtain ⟨rs, hfirst⟩ := undisturbed_refreshSource hget hlisted s
      rw [hfirst, Option.bind_some] at h
      replace h : ((refreshSources sources).undisturbed (s.takeIn server source listed)
        (server.hearing rs)).bind _ = _ := (Program.undisturbed_bind _ _ _ _).symm.trans h
      obtain ⟨⟨result, s'', server''⟩, hrest, hended⟩ := Option.bind_eq_some_iff.1 h
      cases result with
      | error e => cases hended
      | ok ts' =>
        have hget' : Operation.get ∉ (server.hearing rs).failing := hget
        obtain ⟨listings, hsources, hlistings⟩ := ih hget' hrest
        refine ⟨(source, listed) :: listings, by rw [List.map_cons, hsources], ?_⟩
        refine List.forall_mem_cons.2 ⟨hlisted, fun e he => ?_⟩
        exact (server.listingOf_hearing rs e.1).symm.trans (hlistings e he)

theorem synced_moveTo (s : Store) (place : Container) :
    (s.moveTo place).synced = s.synced ∧ (s.moveTo place).clock = s.clock := by
  unfold moveTo
  split <;> exact ⟨rfl, rfl⟩

/-- Whoever finds the place has come to know the defaults, and the store has moved there. -/
theorem of_undisturbed_getDefaults {s s' : Store} {server' : Server} {d : Defaults}
    (h : getDefaults.undisturbed s server = some (.ok d, s', server')) :
    s' = (s.withResolver (.resolved d)).moveTo d.pullFrom ∧ ∃ rs, server' = server.hearing rs := by
  rw [getDefaults, Program.undisturbed_bind] at h
  obtain ⟨⟨result, s'', server''⟩, hresolved, hended⟩ := Option.bind_eq_some_iff.1 h
  cases result with
  | error e => cases hended
  | ok d' =>
    obtain ⟨rfl, rfl, rfl⟩ : d' = d ∧ s''.moveTo d'.pullFrom = s' ∧ server'' = server' := by
      cases hended
      exact ⟨rfl, rfl, rfl⟩
    rw [Program.resolved, Program.undisturbed] at hresolved
    split at hresolved
    · rename_i d hd
      cases hresolved
      exact ⟨by rw [← hd]; rfl, [], server.hearing_nil.symm⟩
    · contradiction
    · obtain ⟨hresult, hstore, hserver⟩ : Session.defaultsOf s.host
            ((server.hearing [.discover]).answer .discover).1 = .ok d' ∧
          s.withResolver (.ofResult (Session.defaultsOf s.host
            ((server.hearing [.discover]).answer .discover).1)) = s'' ∧
          ((server.hearing [.discover]).answer .discover).2 = server'' := by
        obtain ⟨hresult, hrest⟩ := Prod.mk.inj (Option.some.inj hresolved)
        exact ⟨hresult, Prod.mk.inj hrest⟩
      rw [hresult] at hstore
      rw [Server.answer_discover_snd] at hserver
      exact ⟨hstore ▸ rfl, [.discover], hserver.symm⟩

/-- A refresh that succeeds takes in the listings of all sources that are remembered once the place
is found. -/
theorem of_undisturbed_refresh (hget : Operation.get ∉ server.failing) {s s' : Store}
    {server' : Server} {ts : List Tiddler}
    (h : refresh.undisturbed s server = some (.ok ts, s', server')) :
    ∃ d listings rs, listings.map Prod.fst =
        ((s.withResolver (.resolved d)).moveTo d.pullFrom).sources.values ∧
      (∀ e ∈ listings, server.listingOf e.1 = .ok e.2) ∧
      ts = (listings.flatMap Prod.snd).map (s.synced.stamped s.clock) ∧
      s' = ((s.withResolver (.resolved d)).moveTo d.pullFrom).takeInAll server listings ∧
      server' = server.hearing rs := by
  rw [refresh, Program.undisturbed_bind] at h
  obtain ⟨⟨result, s₀, server₀⟩, hplaced, hrest⟩ := Option.bind_eq_some_iff.1 h
  cases result with
  | error e => cases hrest
  | ok d =>
    obtain ⟨hs₀, rs, rfl⟩ := of_undisturbed_getDefaults hplaced
    replace hrest : (refreshSources s₀.sources.values).undisturbed s₀ (server.hearing rs) =
      some (.ok ts, s', server') := hrest
    have hget' : Operation.get ∉ (server.hearing rs).failing := hget
    obtain ⟨listings, hsources, hlisted⟩ := exists_listings hget' hrest
    obtain ⟨rs', htaken⟩ := undisturbed_refreshSources hget' hlisted s₀
    rw [hsources, hrest, Server.hearing_hearing] at htaken
    cases htaken
    obtain ⟨hsynced, hclock⟩ := (s.withResolver (.resolved d)).synced_moveTo d.pullFrom
    subst hs₀
    refine ⟨d, listings, rs ++ rs', hsources,
      fun e he => (server.listingOf_hearing rs e.1).symm.trans (hlisted e he), ?_, rfl, rfl⟩
    rw [hsynced, hclock]
    rfl

/-- Where the store reads from the place of its defaults already, a refresh finds that out and takes
in the listings. -/
theorem undisturbed_refresh (hget : Operation.get ∉ server.failing) {s : Store} {d : Defaults}
    (hd : s.resolver = .resolved d) (hthere : s.location.any d.pullFrom.sameAs = true)
    {listings : List (Source × List Tiddler)} (hsources : listings.map Prod.fst = s.sources.values)
    (hlisted : ∀ e ∈ listings, server.listingOf e.1 = .ok e.2) :
    ∃ rs, refresh.undisturbed s server =
      some (.ok ((listings.flatMap Prod.snd).map (s.synced.stamped s.clock)),
        s.takeInAll server listings, server.hearing rs) := by
  have hplaced : refresh.undisturbed s server =
      (refreshSources (s.moveTo d.pullFrom).sources.values).undisturbed (s.moveTo d.pullFrom)
        server := by
    rw [refresh, Program.undisturbed_bind, getDefaults, Program.undisturbed_bind,
      Program.resolved, Program.undisturbed, hd]
    rfl
  have hmoved : s.moveTo d.pullFrom = s := if_pos hthere
  obtain ⟨rs, htaken⟩ := undisturbed_refreshSources hget hlisted s
  rw [hsources] at htaken
  rw [hplaced, hmoved]
  exact ⟨rs, htaken⟩

end Store

end TiddlerShelf
