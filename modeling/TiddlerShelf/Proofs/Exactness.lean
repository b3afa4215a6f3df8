import Mathlib.Data.List.Nodup
import TiddlerShelf.Proofs.Undisturbed

/-! # Refreshes make a tier exact

The listing of a bag has each title once and all that is in the bag, and that of a recipe has each
title once. So a bag that is refreshed leaves in the tier of confirmed copies just what the server
has in the bag, and a recipe leaves what is listed, besides what the server still has of the rest
(`exact_after_refresh`). -/

namespace TiddlerShelf

namespace Tiddler

/-- Among tiddlers with different keys, each is the last with its key. -/
theorem latest?_key {ts : List Tiddler} (h : (ts.map key).Nodup) {t : Tiddler} (ht : t ∈ ts) :
    latest? ts t.key = some t := by
  cases hlatest : latest? ts t.key with
  | none => exact absurd rfl (latest?_eq_none_iff.1 hlatest t ht)
  | some u =>
    obtain ⟨hu, hkey⟩ := of_latest?_eq_some hlatest
    rw [List.inj_on_of_nodup_map h hu ht hkey]

end Tiddler

namespace Server

variable {s : Server} {t : Tiddler} {listed : List Tiddler}

/-- Whether a server holds something under the bag and the title of a tiddler. -/
def Holds (s : Server) (t : Tiddler) : Prop :=
  ∃ bag, t.bagName = some bag ∧ (s.stored? bag t.title).isSome

theorem holds_iff_find? (ht : t.IsBagged) : s.Holds t ↔ (s.find? t).isSome := by
  obtain ⟨bag, hbag⟩ := Option.ne_none_iff_exists'.1 ht.bag_ne_none
  have hname : t.bagName = some bag.name := congrArg (Option.map _) hbag
  simp [Holds, find?, hname]

/-- The listing of a bag is what is in the bag. -/
theorem Sound.of_listing_bag (h : s.Sound) {c : Container} (hc : c.isRecipe = false)
    (hlisted : s.listing c = .ok listed) :
    s.tiddlersOf c.name = listed ∧ ∀ t ∈ listed, t.bagName = some c.name := by
  obtain ⟨-, tiddlers, hbag, rfl⟩ | ⟨hrecipe, -⟩ := listing_cases hlisted
  · refine ⟨by rw [tiddlersOf, Keyed.getD, hbag]; rfl, fun t ht => ?_⟩
    obtain ⟨title, hget⟩ := Keyed.mem_values_iff.1 ht
    exact h.bag ((stored?_eq_get? hbag title).trans hget)
  · rw [hc] at hrecipe
    contradiction

/-- In a bag every copy stands under its title. -/
theorem Sound.title_of_mem_bag (h : s.Sound) {bag : String} {tiddlers : Keyed String Tiddler}
    (hbag : s.bags.get? bag = some tiddlers) : ∀ e ∈ tiddlers.entries, e.2.title = e.1 := by
  intro e he
  exact h.title ((stored?_eq_get? hbag e.1).trans (Keyed.get?_eq_some_iff.2 he))

/-- So it does where the bags of a recipe are laid over each other. -/
theorem title_of_mem_overlaid (recipe : Option Container) (ts : List Tiddler) :
    ∀ e ∈ (Keyed.ofList (ts.map fun t => (t.title, { t with recipe }))).entries,
      e.2.title = e.1 := by
  intro e he
  obtain ⟨t, -, rfl⟩ := List.mem_map.1 (Keyed.mem_of_mem_ofList he)
  rfl

/-- No bag lists a title twice, and no recipe does. -/
theorem Sound.nodup_titles (h : s.Sound) {c : Container} (hlisted : s.listing c = .ok listed) :
    (listed.map (·.title)).Nodup := by
  obtain ⟨-, tiddlers, hbag, rfl⟩ | ⟨-, recipe, -, rfl⟩ := listing_cases hlisted
  · rw [Keyed.map_values_eq_keys (h.title_of_mem_bag hbag)]
    exact tiddlers.nodup
  · unfold merged
    rw [Keyed.map_values_eq_keys (title_of_mem_overlaid _ _)]
    exact Keyed.nodup _

theorem Sound.nodup_listing (h : s.Sound) {c : Container} (hlisted : s.listing c = .ok listed) :
    (listed.map Tiddler.key).Nodup := by
  have htitles := h.nodup_titles hlisted
  rw [List.Nodup, List.pairwise_map] at htitles ⊢
  exact htitles.imp fun hne hkey => hne (Tiddler.title_eq_of_key_eq hkey)

/-- The server that incidents lead to from one that holds nothing. -/
def after (incidents : List Incident) : Server := incidents.foldl (fun s i => i.on s) {}

theorem sound_after (incidents : List Incident) : (after incidents).Sound :=
  List.foldlRecOn incidents _ sound_empty fun s h i _ => h.evolves (i.evolves s)

end Server

namespace Tier

variable {m : Tier} {s : Server} {now : Instant} {t : Tiddler} {ts listed : List Tiddler}

/-- Filing in one bag leaves what is in others alone. -/
theorem AllBagged.filterValues_setAll (h : m.AllBagged) (hm : m.Sound) (now : Instant)
    {bag : String} (hts : ∀ t ∈ ts, t.IsBagged) (hbag : ∀ t ∈ ts, t.bagName = some bag) :
    (m.setAll now ts).entries.filterValues (fun t => t.bagName ≠ some bag) =
      m.entries.filterValues fun t => t.bagName ≠ some bag := by
  induction ts generalizing m with
  | nil => rfl
  | cons t ts ih =>
    obtain ⟨ht, hts⟩ := List.forall_mem_cons.1 hts
    obtain ⟨htbag, hbag⟩ := List.forall_mem_cons.1 hbag
    show ((m.set now t).setAll now ts).entries.filterValues _ = _
    rw [ih (h.set now ht) (hm.set now t) hts hbag, h.entries_set now ht]
    refine Keyed.filterValues_insert_of_neg ?_ fun u hu => ?_
    · rw [Tiddler.bagName, bag_stamped, ← Tiddler.bagName, htbag]
      simp
    · rw [ht.bagName_eq (hm.keyed hu), htbag]
      simp

/-- What a tier has come to that has taken in the listing of a bag: of that bag it holds exactly
what the server does, and of other bags what it held before. -/
structure HasTakenBag (s : Server) (now : Instant) (bag : String) (before after : Tier) : Prop where
  own : ∀ t, t ∈ after.tiddlers ∧ t.bagName = some bag ↔
    ∃ v ∈ s.tiddlersOf bag, t = { v with lastSync := some now }
  others : after.tiddlers.filter (·.bagName ≠ some bag) =
    before.tiddlers.filter (·.bagName ≠ some bag)

/-- What a tier has come to that has taken in the listing of a recipe: it holds all that is listed,
of the rest just that of whose bag and title the server has something, and nothing more. -/
structure HasTakenRecipe (s : Server) (now : Instant) (listed : List Tiddler)
    (before after : Tier) : Prop where
  present : ∀ t ∈ listed, after.get? t = some { t with lastSync := some now }
  others : ∀ t ∈ before.tiddlers, Store.isListed listed t = false →
    (t ∈ after.tiddlers ↔ s.Holds t)
  nothingElse : ∀ t ∈ after.tiddlers, t ∈ before.tiddlers ∨
    ∃ u ∈ listed, t = { u with lastSync := some now }

/-- Whatever is held after a listing has been taken in is listed, or it was held before. -/
theorem AllBagged.mem_takeIn_iff (h : m.AllBagged) (hm : m.Sound) (s : Server) (now : Instant)
    (source : Source) (hlisted : ∀ t ∈ listed, t.IsBagged) :
    t ∈ (m.takeIn s now source listed).tiddlers ↔
      (∃ u, Tiddler.latest? listed t.key = some u ∧ t = m.stamped now u) ∨
        Tiddler.latest? listed t.key = none ∧ t ∈ m.tiddlers ∧
          s.disowns listed t source = false := by
  rw [(hm.takeIn s now source listed).mem_tiddlers_iff, h.get?_takeIn hm s now source hlisted,
    hm.mem_tiddlers_iff]
  cases Tiddler.latest? listed t.key with
  | some u => simp [@eq_comm _ t]
  | none => simp [Option.filter_eq_some_iff]

/-- A tier that takes in the listing of a bag comes to hold of that bag what is listed. -/
theorem AllBagged.hasTakenBag (h : m.AllBagged) (hm : m.Sound) (hkind : m.kind = .synced)
    (hs : s.Sound) (hnamed : s.bags.get? "" = none) (now : Instant) {c : Container}
    (hc : c.isRecipe = false) (hlisted : s.listing c = .ok listed) :
    HasTakenBag s now c.name m (m.takeIn s now (.container c) listed) := by
  have hbacks : ∀ v ∈ listed, s.Backs v := fun v => hs.backs_of_mem_listing hlisted
  have hbagged : ∀ v ∈ listed, v.IsBagged := fun v hv => (hbacks v hv).isBagged hnamed
  obtain ⟨hown, hlisted'⟩ := hs.of_listing_bag hc hlisted
  refine ⟨fun t => ?_, ?_⟩
  · rw [hown, h.mem_takeIn_iff hm s now _ hbagged]
    constructor
    · rintro ⟨⟨u, hu, rfl⟩ | ⟨hnone, hold, hkept⟩, hbag⟩
      · exact ⟨u, (Tiddler.of_latest?_eq_some hu).1, stamped_synced hkind now u⟩
      · -- What was in the bag before and is not listed now is disowned.
        have htbagged : t.IsBagged := h.isBagged (hm.mem_tiddlers_iff.1 hold ▸ rfl)
        have hnot := Store.isListed_eq_false_of_latest? htbagged hnone
        simp [Server.disowns, Store.mayBeGone, hc, hbag, hnot] at hkept
    · rintro ⟨v, hv, rfl⟩
      rw [← stamped_synced hkind, key_stamped]
      refine ⟨.inl ⟨v, Tiddler.latest?_key (hs.nodup_listing hlisted) hv, rfl⟩, ?_⟩
      rw [Tiddler.bagName, bag_stamped]
      exact hlisted' v hv
  · rw [tiddlers, tiddlers, ← Keyed.values_filterValues, ← Keyed.values_filterValues,
      ← h.filterValues_setAll hm now hbagged hlisted', Tier.takeIn,
      (hm.setAll now listed).entries_without]
    refine congrArg Keyed.values (Keyed.ext_entries ?_)
    refine (List.filter_filter ..).trans (List.filter_congr fun e _ => ?_)
    by_cases hbag : e.2.bagName = some c.name
    · simp [hbag]
    · simp [Server.disowns, Store.mayBeGone, hc, hbag]

/-- A tier that takes in the listing of a recipe drops just what the server does not hold. -/
theorem AllBagged.hasTakenRecipe (h : m.AllBagged) (hm : m.Sound) (hkind : m.kind = .synced)
    (hs : s.Sound) (hnamed : s.bags.get? "" = none) (now : Instant) {c : Container}
    (hc : c.isRecipe = true) (hlisted : s.listing c = .ok listed) :
    HasTakenRecipe s now listed m (m.takeIn s now (.container c) listed) := by
  have hbagged : ∀ v ∈ listed, v.IsBagged :=
    fun v hv => (hs.backs_of_mem_listing hlisted hv).isBagged hnamed
  have hmem := fun t => h.mem_takeIn_iff (t := t) hm s now (.container c) hbagged
  refine ⟨fun t ht => ?_, fun t ht hnot => ?_, fun t ht => ?_⟩
  · refine get?_of_key ?_
    rw [h.get?_takeIn hm s now _ hbagged, Tiddler.latest?_key (hs.nodup_listing hlisted) ht,
      ← stamped_synced hkind]
    rfl
  · have htbagged : t.IsBagged := h.isBagged (hm.mem_tiddlers_iff.1 ht ▸ rfl)
    have hnone : Tiddler.latest? listed t.key = none := by
      rw [← Option.not_isSome_iff_eq_none, ← Store.isListed_iff_latest? htbagged, hnot]
      exact Bool.false_ne_true
    rw [hmem, hnone, Server.holds_iff_find? htbagged]
    simp [Server.disowns, Store.mayBeGone, hc, hnot, ht]
  · rcases (hmem t).1 ht with ⟨u, hu, rfl⟩ | ⟨-, hold, -⟩
    · exact .inr ⟨u, (Tiddler.of_latest?_eq_some hu).1, stamped_synced hkind now u⟩
    · exact .inl hold

end Tier

namespace Store

/-- Whatever a server and a tier have come to hold, refreshing a container that the server lists
makes the tier exact: of a bag it then holds just what the server does, and of a recipe all that is
listed, besides what the server still has of the rest. -/
theorem exact_after_refresh {incidents : List Server.Incident} {cache : Cache}
    {calls : List Tier.Call} {server : Server} {s : Store} {c : Container} {listed : List Tiddler}
    (hserver : server = .after incidents) (hsynced : s.synced = .after .synced cache calls)
    (hbagged : ∀ t ∈ s.synced.tiddlers, t.IsBagged) (hnamed : server.bags.get? "" = none)
    (hget : Operation.get ∉ server.failing) (hlisted : (server.answer (.list c)).1 = .ok listed) :
    ∃ stored s' rs, (refreshSource (.container c)).undisturbed s server =
        some (.ok stored, s', server.hearing rs) ∧
      (c.isRecipe = false → Tier.HasTakenBag server s.clock c.name s.synced s'.synced) ∧
      (c.isRecipe = true → Tier.HasTakenRecipe server s.clock listed s.synced s'.synced) := by
  have hsound : server.Sound := hserver ▸ Server.sound_after incidents
  have htier : s.synced.Sound := hsynced ▸ Tier.sound_after .synced cache calls
  have hkind : s.synced.kind = .synced := hsynced ▸ Tier.kind_after .synced cache calls
  have hall := htier.allBagged hbagged
  have hgiven : server.listingOf (.container c) = .ok listed := hlisted
  have hlisting := Server.listing_of_listingOf hgiven
  obtain ⟨rs, hrefreshed⟩ := undisturbed_refreshSource hget hgiven s
  refine ⟨_, _, rs, hrefreshed, fun hc => ?_, fun hc => ?_⟩ <;> rw [synced_takeIn]
  · exact hall.hasTakenBag htier hkind hsound hnamed s.clock hc hlisting
  · exact hall.hasTakenRecipe htier hkind hsound hnamed s.clock hc hlisting

/-- A copy in a bag, for runs on fixed inputs. -/
def copyOf (bag title : String) (revision : Nat) : Tiddler :=
  { title, revision := some revision, bag := some (.bag bag), lastSync := some ⟨0, 0⟩ }

/-- A title of two bags in a stack, one of which comes twice, is refreshed through the stack and
through the lower bag. What is in a bag that is left out of listings stays, as does what is in a bag
outside the stack, and what the server does not have goes. -/
theorem exact_after_refresh_of_stack :
    ∃ server s listed, (server.answer (.list (.recipe "stack"))).1 = .ok listed ∧
      (∃ stored s' rs, (refreshSource (.container (.recipe "stack"))).undisturbed s server =
          some (.ok stored, s', server.hearing rs) ∧
        Tier.HasTakenRecipe server s.clock listed s.synced s'.synced ∧
        copyOf "hidden" "B" 3 ∈ s'.synced.tiddlers ∧ copyOf "outside" "C" 4 ∈ s'.synced.tiddlers ∧
        copyOf "high" "D" 9 ∉ s'.synced.tiddlers) ∧
      ∃ stored s' rs, (refreshSource (.container (.bag "low"))).undisturbed s server =
          some (.ok stored, s', server.hearing rs) ∧
        Tier.HasTakenBag server s.clock "low" s.synced s'.synced := by
  let seeded (bag title : String) : Server.Incident := .seed { title, bag := some (.bag bag) }
  let server : Server := .after [seeded "low" "A", seeded "high" "A", seeded "hidden" "B",
    seeded "outside" "C", .defineRecipe "stack" ["low", "high", "hidden", "high"], .unlist "hidden"]
  let s : Store := { synced := .after .synced .none ([copyOf "low" "A" 0, copyOf "hidden" "B" 3,
    copyOf "outside" "C" 4, copyOf "high" "D" 9].map (.set ⟨0, 0⟩)) }
  have hbagged : ∀ t ∈ s.synced.tiddlers, t.IsBagged := by decide +kernel
  have hnamed : server.bags.get? "" = none := by decide +kernel
  have hget : Operation.get ∉ server.failing := List.not_mem_nil
  let rest := [copyOf "hidden" "B" 3, copyOf "outside" "C" 4, copyOf "high" "D" 9]
  have hthere : ∀ t ∈ rest, t ∈ s.synced.tiddlers := by decide +kernel
  obtain ⟨listed, hlisted, hnot⟩ : ∃ listed,
      (server.answer (.list (.recipe "stack"))).1 = .ok listed ∧
        ∀ t ∈ rest, isListed listed t = false :=
    ⟨_, rfl, by decide +kernel⟩
  obtain ⟨low, hlow⟩ : ∃ low, (server.answer (.list (.bag "low"))).1 = .ok low := ⟨_, rfl⟩
  obtain ⟨_, _, _, hstack, -, hrecipe⟩ :=
    exact_after_refresh rfl (s := s) rfl hbagged hnamed hget hlisted
  obtain ⟨_, _, _, hbag, htaken, -⟩ :=
    exact_after_refresh rfl (s := s) rfl hbagged hnamed hget hlow
  have hothers := fun t ht => (hrecipe rfl).others t (hthere t ht) (hnot t ht)
  refine ⟨server, s, listed, hlisted, ⟨_, _, _, hstack, hrecipe rfl, ?_, ?_, ?_⟩, _, _, _, hbag,
    htaken rfl⟩
  · exact (hothers _ (.head _)).2 ⟨"hidden", rfl, by decide +kernel⟩
  · exact (hothers _ (.tail _ (.head _))).2 ⟨"outside", rfl, by decide +kernel⟩
  · intro hkept
    obtain ⟨bag, hbag, hsome⟩ := (hothers _ (.tail _ (.tail _ (.head _)))).1 hkept
    obtain rfl : "high" = bag := Option.some.inj hbag
    exact absurd hsome (by decide +kernel)

end Store

end TiddlerShelf
