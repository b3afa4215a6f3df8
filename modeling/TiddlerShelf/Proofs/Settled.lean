import TiddlerShelf.Proofs.Undisturbed

/-! # Refreshing twice

After all sources have been refreshed, the tier of confirmed copies is settled: it holds under each
key that is listed the revision that is listed, and nothing that the server disowns. Taking the same
listings in again is no news then, whatever they share, and changes nothing but stamps. So a second
refresh right after a first one announces nothing (`second_refresh_silent`). -/

namespace TiddlerShelf

namespace Keyed

variable {κ α : Type} [DecidableEq κ]

/-- A table is given by its keys and the values under them. -/
theorem entries_eq_filterMap (t : Keyed κ α) :
    t.entries = t.keys.filterMap fun k => (t.get? k).map (Prod.mk k) := by
  rw [keys, List.filterMap_map]
  refine (List.filterMap_some.symm).trans (List.filterMap_congr fun e he => ?_)
  show some e = (t.get? e.1).map (Prod.mk e.1)
  rw [get?_eq_some_iff.2 he]
  rfl

theorem ext_get? {s t : Keyed κ α} (hkeys : s.keys = t.keys) (h : ∀ k, s.get? k = t.get? k) :
    s = t := by
  refine ext_entries ?_
  rw [entries_eq_filterMap, hkeys, t.entries_eq_filterMap]
  simp only [h]

omit [DecidableEq κ] in
theorem keys_mapValues {β : Type} (f : α → β) (t : Keyed κ α) : (t.mapValues f).keys = t.keys := by
  unfold keys mapValues
  rw [List.map_map]
  rfl

end Keyed

namespace Server

/-- What a server holds under one bag and title has one revision. -/
theorem Backs.revision_eq {s : Server} {t u : Tiddler} (ht : s.Backs t) (hu : s.Backs u)
    (hbagged : t.IsBagged) (hkey : u.key = t.key) : u.revision = t.revision := by
  obtain ⟨bag, v, hbag, hv, hagree⟩ := ht
  obtain ⟨bag', v', hbag', hv', hagree'⟩ := hu
  rw [hbagged.bagName_eq hkey, hbag] at hbag'
  obtain rfl := Option.some.inj hbag'
  rw [Tiddler.title_eq_of_key_eq hkey, hv] at hv'
  obtain rfl := Option.some.inj hv'
  rw [← hagree.revision, ← hagree'.revision]

end Server

namespace Tier

/-- A sound tier of confirmed copies that agrees with listings of several sources: what is listed is
there in the same revision, and nothing is there that the server disowns. -/
structure Settled (s : Server) (listings : List (Source × List Tiddler)) (m : Tier) : Prop where
  sound : m.Sound
  kind : m.kind = .synced
  allBagged : m.AllBagged
  current : ∀ t ∈ listings.flatMap Prod.snd,
    ∃ old, m.entries.get? t.key = some old ∧ old.revision = t.revision
  kept : ∀ t ∈ m.tiddlers, s.disownsAny listings t = false

variable {m : Tier} {s : Server} {listings : List (Source × List Tiddler)} {now : Instant}
  {t : Tiddler}

@[simp] theorem revision_stamped (m : Tier) (now : Instant) (t : Tiddler) :
    (m.stamped now t).revision = t.revision := by
  unfold stamped
  cases m.kind <;> rfl

/-- A tier that has taken listings in is settled. -/
theorem AllBagged.settled_takeInAll (h : m.AllBagged) (hm : m.Sound) (hkind : m.kind = .synced)
    (hs : s.Gives listings) (now : Instant) :
    (m.takeInAll s now listings).Settled s listings := by
  have hget := h.get?_takeInAll hm hs now
  have hsound := hm.takeInAll s now listings
  refine ⟨hsound, (m.kind_takeInAll s now listings).trans hkind, h.takeInAll hs now, ?_, ?_⟩
  · intro t ht
    rw [hget]
    cases hlatest : Tiddler.latest? (listings.flatMap Prod.snd) t.key with
    | none => exact absurd rfl (Tiddler.latest?_eq_none_iff.1 hlatest t ht)
    | some u =>
      obtain ⟨hu, hkey⟩ := Tiddler.of_latest?_eq_some hlatest
      refine ⟨_, rfl, ?_⟩
      rw [revision_stamped]
      exact (hs.backs ht).revision_eq (hs.backs hu) (hs.isBagged ht) hkey
  · intro t ht
    rw [hsound.mem_tiddlers_iff, hget] at ht
    cases hlatest : Tiddler.latest? (listings.flatMap Prod.snd) t.key with
    | none =>
      rw [hlatest] at ht
      simpa using (Option.filter_eq_some_iff.1 ht).2
    | some u =>
      rw [hlatest] at ht
      obtain rfl := Option.some.inj ht
      rw [Server.disownsAny_stamped]
      exact hs.disownsAny_eq_false (hs.backs (Tiddler.of_latest?_eq_some hlatest).1)

/-- A settled tier has seen the bags of all that is listed. -/
theorem Settled.newBag?_eq_none (h : m.Settled s listings) (hs : s.Gives listings)
    (ht : t ∈ listings.flatMap Prod.snd) : m.newBag? t = none := by
  obtain ⟨old, hold, -⟩ := h.current t ht
  have hname := (hs.isBagged ht).bagName_eq (h.sound.keyed hold)
  refine Option.filter_eq_none_iff.2 fun bag hbag => ?_
  obtain ⟨seen, hseen, hsame⟩ : ∃ seen, old.bag = some seen ∧ seen.name = bag.name := by
    refine Option.map_eq_some_iff.1 (hname.trans ?_)
    rw [Tiddler.bagName, hbag]
    rfl
  have hknown := hasSeen_iff.1 (h.sound.seen hold hseen)
  rw [hsame, ← hasSeen_iff] at hknown
  simp [hknown]

/-- A copy that is listed is no news to a settled tier. -/
theorem Settled.events_reconcile (h : m.Settled s listings) (hs : s.Gives listings)
    (ht : t ∈ listings.flatMap Prod.snd) (now : Instant) : (m.reconcile now t).events = [] := by
  obtain ⟨old, hold, hrevision⟩ := h.current t ht
  have hsynced : old.isSynced = true := by
    rw [h.sound.stamped hold, h.kind]
    rfl
  have hsilent : isNews (m.get? t) (m.stamped now t) = false := by
    rw [get?_of_key hold, isNews, if_pos hsynced, hrevision, revision_stamped]
    exact bne_self_eq_false _
  unfold reconcile
  dsimp only
  rw [h.newBag?_eq_none hs ht, hsilent, Bool.and_false]
  rfl

/-- Whether a tier has come from another by filing again what is listed: it is settled, and the
titles and bags are those of the other, in the same order. -/
structure Refiled (s : Server) (listings : List (Source × List Tiddler)) (m n : Tier) : Prop where
  settled : n.Settled s listings
  keys : n.entries.keys = m.entries.keys
  bags : n.bags = m.bags

theorem Settled.refiled (h : m.Settled s listings) : Refiled s listings m m := ⟨h, rfl, rfl⟩

/-- Filing a copy that is listed in a settled tier brings neither a title nor a bag in. -/
theorem Refiled.set {n : Tier} (h : Refiled s listings m n) (hs : s.Gives listings)
    (ht : t ∈ listings.flatMap Prod.snd) (now : Instant) :
    Refiled s listings m (n.set now t) := by
  have hn := h.settled
  have hbagged := hs.isBagged ht
  have hentries := hn.allBagged.entries_set now hbagged
  refine ⟨⟨hn.sound.set now t, (kind_file _ _).trans hn.kind, hn.allBagged.set now hbagged, ?_, ?_⟩,
    ?_, ?_⟩
  · intro u hu
    rw [hentries, Keyed.get?_insert]
    split
    · rename_i hkey
      refine ⟨_, rfl, ?_⟩
      rw [revision_stamped]
      exact (hs.backs hu).revision_eq (hs.backs ht) (hs.isBagged hu) hkey.symm
    · exact hn.current u hu
  · intro u hu
    rcases mem_tiddlers_file hu with rfl | hu
    · rw [Server.disownsAny_stamped]
      exact hs.disownsAny_eq_false (hs.backs ht)
    · exact hn.kept u hu
  · obtain ⟨old, hold, -⟩ := hn.current t ht
    rw [hentries, Keyed.keys_insert_of_isSome (hold ▸ rfl), h.keys]
  · rw [Tier.set, bags_file_stamped hn.kind, hn.newBag?_eq_none hs ht, ← h.bags]
    exact List.append_nil _

theorem Refiled.setAll {n : Tier} (h : Refiled s listings m n) (hs : s.Gives listings)
    {ts : List Tiddler} (hts : ∀ t ∈ ts, t ∈ listings.flatMap Prod.snd) (now : Instant) :
    Refiled s listings m (n.setAll now ts) :=
  List.foldlRecOn ts _ h fun _ h t ht => h.set hs (hts t ht) now

/-- A settled tier holds nothing that the server disowns after the listing of one of the sources. -/
theorem Settled.filter_disowns (h : m.Settled s listings) {e : Source × List Tiddler}
    (he : e ∈ listings) : m.tiddlers.filter (s.disowns e.2 · e.1) = [] := by
  refine List.filter_eq_nil_iff.2 fun t ht => ?_
  exact List.any_eq_false.1 (h.kept t ht) e he

/-- What the listings leave of a tier, they leave again, but for the stamps. -/
theorem AllBagged.takeInAll_again (h : m.AllBagged) (hm : m.Sound) (hkind : m.kind = .synced)
    (hs : s.Gives listings) (now now' : Instant) (k : String) :
    (((m.takeInAll s now listings).takeInAll s now' listings).entries.get? k).map Tiddler.asEdit =
      ((m.takeInAll s now listings).entries.get? k).map Tiddler.asEdit := by
  have hsettled := h.settled_takeInAll hm hkind hs now
  have hget := h.get?_takeInAll hm hs now k
  rw [hsettled.allBagged.get?_takeInAll hsettled.sound hs now']
  cases hlatest : Tiddler.latest? (listings.flatMap Prod.snd) k with
  | some u =>
    rw [hlatest] at hget
    rw [hget]
    show some ((_ : Tier).stamped now' u).asEdit = some (m.stamped now u).asEdit
    rw [stamped_synced hsettled.kind, stamped_synced hkind]
    rfl
  | none =>
    -- What is not listed has outlasted the first time, and outlasts the second one like that.
    cases hold : (m.takeInAll s now listings).entries.get? k with
    | none => rfl
    | some t =>
      have hkept := hsettled.kept t (Keyed.mem_values_iff.2 ⟨k, hold⟩)
      simp [hkept]

end Tier

namespace Store

variable {s : Store} {server : Server} {listings : List (Source × List Tiddler)}

/-- Filing what is listed in a settled tier announces nothing. -/
theorem fileSynced_of_settled (h : s.synced.Settled server listings) (hs : server.Gives listings)
    {t : Tiddler} (ht : t ∈ listings.flatMap Prod.snd) :
    (s.fileSynced t).2 = { s with synced := s.synced.set s.clock t } := by
  show ({ s with synced := _ } : Store).announce (s.synced.reconcile s.clock t).events = _
  rw [h.events_reconcile hs ht, announce_nil]
  rfl

theorem fileListing_of_settled (h : s.synced.Settled server listings)
    (hs : server.Gives listings) {ts : List Tiddler}
    (hts : ∀ t ∈ ts, t ∈ listings.flatMap Prod.snd) :
    (s.fileListing ts).2 = { s with synced := s.synced.setAll s.clock ts } := by
  induction ts generalizing s with
  | nil => rfl
  | cons t ts ih =>
    obtain ⟨ht, hts⟩ := List.forall_mem_cons.1 hts
    have hfiled := fileSynced_of_settled h hs ht
    have hsettled := (h.refiled.set hs ht s.clock).settled
    show ((s.fileSynced t).2.fileListing ts).2 = _
    rw [hfiled]
    exact ih (s := { s with synced := s.synced.set s.clock t }) hsettled hts

/-- Taking a listing in again announces nothing and drops nothing. -/
theorem takeIn_of_settled (h : s.synced.Settled server listings) (hs : server.Gives listings)
    {e : Source × List Tiddler} (he : e ∈ listings) :
    s.takeIn server e.1 e.2 = { s with synced := s.synced.setAll s.clock e.2 } := by
  have hts : ∀ t ∈ e.2, t ∈ listings.flatMap Prod.snd :=
    fun t ht => List.mem_flatMap.2 ⟨e, he, ht⟩
  have hsettled := (h.refiled.setAll hs hts s.clock).settled
  rw [takeIn, fileListing_of_settled h hs hts, dropCopies]
  dsimp only
  rw [hsettled.filter_disowns he]
  rfl

/-- Neither does taking in several of the listings, one after the other. -/
theorem takeInAll_of_settled {m : Tier} (h : Tier.Refiled server listings m s.synced)
    (hs : server.Gives listings) {again : List (Source × List Tiddler)}
    (hagain : ∀ e ∈ again, e ∈ listings) :
    ∃ tier, s.takeInAll server again = { s with synced := tier } ∧
      Tier.Refiled server listings m tier := by
  induction again generalizing s with
  | nil => exact ⟨s.synced, rfl, h⟩
  | cons e again ih =>
    obtain ⟨he, hagain⟩ := List.forall_mem_cons.1 hagain
    have hrefiled := h.setAll hs (fun t ht => List.mem_flatMap.2 ⟨e, he, ht⟩) s.clock
    obtain ⟨tier, htaken, htier⟩ :=
      ih (s := { s with synced := s.synced.setAll s.clock e.2 }) hrefiled hagain
    refine ⟨tier, ?_, htier⟩
    show (s.takeIn server e.1 e.2).takeInAll server again = _
    rw [takeIn_of_settled h.settled hs he, htaken]

theorem takeInAll_hearing (s : Store) (server : Server) (rs : List Request)
    (listings : List (Source × List Tiddler)) :
    s.takeInAll (server.hearing rs) listings = s.takeInAll server listings := rfl

theorem any_location_moveTo (s : Store) (place : Container) :
    (s.moveTo place).location.any place.sameAs = true := by
  unfold moveTo
  split
  · assumption
  · exact beq_self_eq_true place.name

/-- Finding the place does nothing to the confirmed copies. -/
theorem synced_takeInAll_moveTo (s : Store) (d : Defaults) (server : Server)
    (listings : List (Source × List Tiddler)) :
    (((s.withResolver (.resolved d)).moveTo d.pullFrom).takeInAll server listings).synced =
      s.synced.takeInAll server s.clock listings := by
  obtain ⟨hsynced, hclock⟩ := (s.withResolver (.resolved d)).synced_moveTo d.pullFrom
  rw [synced_takeInAll, hsynced, hclock]
  rfl

/-- A store that a refresh brings nothing: it reads from the place of its defaults, and its
confirmed copies agree with the listings of all sources that it remembers. -/
structure Refreshed (server : Server) (d : Defaults) (listings : List (Source × List Tiddler))
    (s : Store) : Prop where
  resolver : s.resolver = .resolved d
  there : s.location.any d.pullFrom.sameAs = true
  sources : listings.map Prod.fst = s.sources.values
  settled : s.synced.Settled server listings

/-- Once a store has found its place and taken in the listings of its sources, it is refreshed. -/
theorem refreshed_takeInAll {d : Defaults}
    (h : (s.synced.takeInAll server s.clock listings).Settled server listings)
    (hsources : listings.map Prod.fst =
      ((s.withResolver (.resolved d)).moveTo d.pullFrom).sources.values) :
    (((s.withResolver (.resolved d)).moveTo d.pullFrom).takeInAll server listings).Refreshed
      server d listings := by
  have hsynced := s.synced_takeInAll_moveTo d server listings
  have hresolver := ((s.withResolver (.resolved d)).quiet_moveTo d.pullFrom).resolver
  have hthere := (s.withResolver (.resolved d)).any_location_moveTo d.pullFrom
  obtain ⟨hstays, -⟩ :=
    ((s.withResolver (.resolved d)).moveTo d.pullFrom).stays_takeInAll server listings
  constructor
  · exact hstays.resolver.trans hresolver
  · rw [hstays.location]
    exact hthere
  · rw [hstays.sources]
    exact hsources
  · rw [hsynced]
    exact h

/-- Refreshing a store that is refreshed announces nothing and files again what is listed, whatever
the server has been asked in between. -/
theorem Refreshed.undisturbed_refresh {d : Defaults} (h : s.Refreshed server d listings)
    (hs : server.Gives listings) (hget : Operation.get ∉ server.failing) (rs : List Request)
    (now : Instant) :
    ∃ tier rs', refresh.undisturbed { s with clock := now } (server.hearing rs) =
        some (.ok ((listings.flatMap Prod.snd).map (s.synced.stamped now)),
          { s with clock := now, synced := tier }, (server.hearing rs).hearing rs') ∧
      s.synced.takeInAll server now listings = tier ∧
      Tier.Refiled server listings s.synced tier := by
  have hget' : Operation.get ∉ (server.hearing rs).failing := hget
  obtain ⟨rs', hrefreshed⟩ := Store.undisturbed_refresh hget' (s := { s with clock := now })
    h.resolver h.there h.sources
    fun e he => (server.listingOf_hearing rs e.1).trans (hs.listed e he)
  obtain ⟨tier, htaken, hrefiled⟩ :=
    takeInAll_of_settled (s := { s with clock := now }) h.settled.refiled hs fun _ he => he
  rw [takeInAll_hearing, htaken] at hrefreshed
  refine ⟨tier, rs', hrefreshed, ?_, hrefiled⟩
  exact (synced_takeInAll _ _ _).symm.trans (congrArg synced htaken)

end Store

namespace Exchange

/-- In whatever state a store and its server have come to be, once all sources have been refreshed
with success and nothing in between, refreshing them again announces nothing, gives the same
tiddlers, and leaves the tier of confirmed copies as it is but for the stamps. All else stays as it
is, what listeners have heard with it. -/
theorem second_refresh_silent {config : Config} {clock : Instant} {defaults : Option Defaults}
    {cache : Cache} {xs : List Exchange} {x : Exchange} {ts : List Tiddler} {s : Store}
    {server : Server} (hx : Run (start config clock defaults cache) xs x)
    (hnamed : ∀ w ∈ xs, w.server.bags.get? "" = none) (hget : Operation.get ∉ x.server.failing)
    (hfirst : Store.refresh.undisturbed x.activity.store x.server = some (.ok ts, s, server))
    (now : Instant) :
    ∃ tier rs, Store.refresh.undisturbed { s with clock := now } server =
        some (.ok (ts.map fun t => { t with lastSync := some now }),
          { s with clock := now, synced := tier }, server.hearing rs) ∧
      tier.entries.mapValues Tiddler.asEdit = s.synced.entries.mapValues Tiddler.asEdit ∧
      tier.bags = s.synced.bags := by
  have hstart := sound_start config clock defaults cache
  have hsound := hx.sound hstart
  have hall : x.synced.AllBagged := hx.allBagged hstart rfl hnamed
  obtain ⟨d, listings, rs, hsources, hlisted, hts, hs, hserver⟩ :=
    Store.of_undisturbed_refresh hget hfirst
  have hgives : x.server.Gives listings := ⟨hsound.server, hnamed x hx.mem, hlisted⟩
  have hkind : x.synced.kind = .synced := hsound.kind_synced
  have hsettled := hall.settled_takeInAll hsound.synced hkind hgives x.clock
  have hsynced : s.synced = x.synced.takeInAll x.server x.clock listings :=
    hs ▸ Store.synced_takeInAll_moveTo _ d x.server listings
  have hrefreshed : s.Refreshed x.server d listings :=
    hs ▸ Store.refreshed_takeInAll hsettled hsources
  obtain ⟨tier, rs', hsecond, htier, hrefiled⟩ :=
    hrefreshed.undisturbed_refresh hgives hget rs now
  refine ⟨tier, rs', ?_, ?_, hrefiled.bags⟩
  · have hagain : (listings.flatMap Prod.snd).map (s.synced.stamped now) =
        ts.map fun t => { t with lastSync := some now } := by
      rw [hts, List.map_map]
      refine List.map_congr_left fun t _ => ?_
      rw [Tier.stamped_synced hrefreshed.settled.kind, Function.comp_apply,
        Tier.stamped_synced hsound.activity.store.kind_synced]
    rw [← hagain, hserver]
    exact hsecond
  · refine Keyed.ext_get? ?_ fun k => ?_
    · rw [Keyed.keys_mapValues, Keyed.keys_mapValues, hrefiled.keys]
    · rw [Keyed.get?_mapValues, Keyed.get?_mapValues, ← htier, hsynced]
      exact hall.takeInAll_again hsound.synced hkind hgives x.clock now k

/-- A recipe and a search are refreshed that both list the upper copy of a title, each with its own
word on how it came. -/
theorem second_refresh_silent_of_overlap :
    ∃ xs x ts s server, Run (start {} ⟨0, 0⟩ (some (.single (.recipe "stack"))) .none) xs x ∧
      Store.refresh.undisturbed x.activity.store x.server = some (.ok ts, s, server) ∧
      ts.map (fun t => (t.bagName, t.recipeName, t.revision)) =
        [(some "high", some "stack", some 2), (some "low", none, some 1),
          (some "high", none, some 2)] ∧
      ∃ tier rs, Store.refresh.undisturbed { s with clock := ⟨5, 0⟩ } server =
          some (.ok (ts.map fun t => { t with lastSync := some ⟨5, 0⟩ }),
            { s with clock := ⟨5, 0⟩, synced := tier }, server.hearing rs) ∧
        tier.entries.mapValues Tiddler.asEdit = s.synced.entries.mapValues Tiddler.asEdit ∧
        tier.bags = s.synced.bags := by
  let x₀ := start {} ⟨0, 0⟩ (some (.single (.recipe "stack"))) .none
  let low := Server.Incident.seed (.draft "low" "one")
  let high := Server.Incident.seed (.draft "high" "two")
  let stack := Server.Incident.defineRecipe "stack" ["low", "high"]
  let server := stack.on (high.on (low.on {}))
  let place : Container := { Container.recipe "stack" with bags := ["low", "high"] }
  let x : Exchange := ⟨x₀.activity.call (.search "T"), server⟩
  have hserved : Run x₀ _ { x₀ with server } :=
    ((Run.refl.step (.incident low)).step (.incident high)).step (.incident stack)
  have hx : Run x₀ _ x :=
    hserved.step (.proceeds (Activity.step_call _ (.search "T")) fun _ _ _ _ _ => nofun)
  have hget : Operation.get ∉ x.server.failing := List.not_mem_nil
  let listings : List (Source × List Tiddler) := [(.container (.recipe "stack"),
    server.merged place), (.search "T" "/", server.found "T")]
  have hlisted : ∀ e ∈ listings, x.server.listingOf e.1 = .ok e.2 :=
    List.forall_mem_cons.2 ⟨rfl, List.forall_mem_singleton.2 rfl⟩
  obtain ⟨rs, hfirst⟩ := Store.undisturbed_refresh (s := x.activity.store) hget
    (d := .single (.recipe "stack")) rfl rfl rfl hlisted
  refine ⟨_, x, _, _, _, hx, hfirst, ?_, second_refresh_silent hx ?_ hget hfirst ⟨5, 0⟩⟩
  · decide +kernel
  · decide +kernel

end Exchange

end TiddlerShelf
