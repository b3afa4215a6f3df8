import TiddlerShelf.Proofs.Lookup
import TiddlerShelf.Proofs.Pruning

/-! # What a tier makes of listings

A tier that takes in the listing of a source files all that is listed and drops what the server
disowns. Under each key there is then the last copy that was listed under it, or what was there
before if the server does not disown that (`get?_takeIn`). A server gives no copy that any of its
listings would let it disown, so that this carries over to listings of several sources, whatever
they share (`get?_takeInAll`). -/

namespace TiddlerShelf

namespace Tiddler

/-- The last of some tiddlers that has a key. -/
def latest? (ts : List Tiddler) (k : String) : Option Tiddler :=
  ts.reverse.find? fun t => t.key = k

theorem latest?_append (ts us : List Tiddler) (k : String) :
    latest? (ts ++ us) k = (latest? us k).or (latest? ts k) := by
  unfold latest?
  rw [List.reverse_append, List.find?_append]

theorem latest?_cons (t : Tiddler) (ts : List Tiddler) (k : String) :
    latest? (t :: ts) k = (latest? ts k).or (if k = t.key then some t else none) := by
  have hsplit := latest?_append [t] ts k
  rw [List.singleton_append] at hsplit
  rw [hsplit]
  by_cases hk : k = t.key
  · simp [latest?, hk]
  · simp [latest?, hk, Ne.symm hk]

theorem of_latest?_eq_some {ts : List Tiddler} {k : String} {t : Tiddler}
    (h : latest? ts k = some t) : t ∈ ts ∧ t.key = k :=
  ⟨List.mem_reverse.1 (List.mem_of_find?_eq_some h), by simpa using List.find?_some h⟩

theorem latest?_eq_none_iff {ts : List Tiddler} {k : String} :
    latest? ts k = none ↔ ∀ t ∈ ts, t.key ≠ k := by
  simp [latest?]

end Tiddler

namespace Store

/-- A listing holds what has the bag and title of a tiddler that it holds. -/
theorem isListed_eq_true_iff {listed : List Tiddler} {t : Tiddler} :
    isListed listed t = true ↔ ∃ u ∈ listed, u.bagName = t.bagName ∧ u.title = t.title := by
  simp [isListed]

/-- A bagged tiddler is listed if a listed one has its key. -/
theorem isListed_iff_latest? {listed : List Tiddler} {t : Tiddler} (ht : t.IsBagged) :
    isListed listed t = true ↔ (Tiddler.latest? listed t.key).isSome := by
  rw [isListed_eq_true_iff, Option.isSome_iff_ne_none, Ne, Tiddler.latest?_eq_none_iff]
  push Not
  refine exists_congr fun u => and_congr_right fun _ => ?_
  exact Prod.mk.injEq .. ▸ ((ht.key_eq_iff_place.trans eq_comm).symm.trans eq_comm)

theorem isListed_eq_false_of_latest? {listed : List Tiddler} {t : Tiddler} (ht : t.IsBagged)
    (h : Tiddler.latest? listed t.key = none) : isListed listed t = false := by
  rw [Bool.eq_false_iff, Ne, isListed_iff_latest? ht, h]
  exact Bool.false_ne_true

end Store

namespace Server

variable {s : Server} {t u : Tiddler} {listed : List Tiddler} {source : Source}

/-- What a server gives for a source. -/
def listingOf (s : Server) : Source → Except RemoteError (List Tiddler)
  | .container c => (s.answer (.list c)).1
  | .search query _ => (s.answer (.search query)).1

/-- A request that is granted has been fulfilled. -/
theorem answer_eq_fulfil {r : Request} {reply : r.Reply} (h : (s.answer r).1 = .ok reply) :
    s.answer r = s.fulfil r := by
  refine answer_of_not_failing fun hop => ?_
  rw [answer, if_pos hop] at h
  contradiction

theorem listing_of_listingOf {c : Container} (h : s.listingOf (.container c) = .ok listed) :
    s.listing c = .ok listed := by
  have hanswer : (s.answer (.list c)).1 = .ok listed := h
  rwa [answer_eq_fulfil hanswer] at hanswer

/-- A server holds what it lists. -/
theorem Sound.backs_of_listed (h : s.Sound) (hlisted : s.listingOf source = .ok listed)
    (ht : t ∈ listed) : s.Backs t := by
  cases source with
  | container c => exact h.backs_of_mem_listing (listing_of_listingOf hlisted) ht
  | search query host =>
    have hanswer : (s.answer (.search query)).1 = .ok listed := hlisted
    rw [answer_eq_fulfil hanswer] at hanswer
    obtain rfl : s.found query = listed := Except.ok.inj hanswer
    exact h.backs_of_mem_found ht

/-- Whether a server disowns a confirmed copy that is not in the listing of a source: a bag's
listing has all that is in the bag, and what a recipe's listing lacks may still be got. -/
def disowns (s : Server) (listed : List Tiddler) (t : Tiddler) : Source → Bool
  | .container c =>
    Store.mayBeGone c t && !Store.isListed listed t && !(c.isRecipe && (s.find? t).isSome)
  | .search .. => false

/-- A server disowns a copy or not by its place alone. -/
theorem disowns_stamped (s : Server) (listed : List Tiddler) (source : Source) (m : Tier)
    (now : Instant) (t : Tiddler) :
    s.disowns listed (m.stamped now t) source = s.disowns listed t source := by
  unfold Tier.stamped
  cases m.kind <;> rfl

/-- What is listed is not disowned. -/
theorem disowns_of_isListed (h : Store.isListed listed t = true) :
    s.disowns listed t source = false := by
  cases source with
  | container c => simp [disowns, h]
  | search query host => rfl

/-- What a server disowns after its listing, it does not have. -/
theorem Sound.lacks_of_disowns (h : s.Sound) (hlisted : s.listingOf source = .ok listed)
    (ht : t.IsBagged) (hgone : s.disowns listed t source = true) : s.Lacks t := by
  cases source with
  | search query host => contradiction
  | container c =>
    simp only [disowns, Bool.and_eq_true, Bool.not_eq_true'] at hgone
    obtain ⟨⟨hmay, hnot⟩, hget⟩ := hgone
    cases hc : c.isRecipe with
    | true =>
      rw [hc, Bool.true_and] at hget
      exact lacks_of_not_found ht (Option.isSome_eq_false_iff.1 hget |> Option.isNone_iff_eq_none.1)
    | false =>
      have hbag : t.bagName = some c.name := by simpa [Store.mayBeGone, hc] using hmay
      exact h.lacks_of_not_listed (listing_of_listingOf hlisted) hc hbag hnot

/-- A server does not disown what it holds. -/
theorem Sound.disowns_of_backs (h : s.Sound) (hlisted : s.listingOf source = .ok listed)
    (ht : t.IsBagged) (hbacks : s.Backs t) : s.disowns listed t source = false := by
  rw [Bool.eq_false_iff]
  intro hgone
  obtain ⟨bag, hbag, hnone⟩ := h.lacks_of_disowns hlisted ht hgone
  obtain ⟨bag', v, hbag', hv, -⟩ := hbacks
  rw [hbag] at hbag'
  obtain rfl := Option.some.inj hbag'
  rw [hnone] at hv
  contradiction

/-- Whether a server disowns a confirmed copy after the listing of one of several sources. -/
def disownsAny (s : Server) (listings : List (Source × List Tiddler)) (t : Tiddler) : Bool :=
  listings.any fun e => s.disowns e.2 t e.1

theorem disownsAny_stamped (s : Server) (listings : List (Source × List Tiddler)) (m : Tier)
    (now : Instant) (t : Tiddler) :
    s.disownsAny listings (m.stamped now t) = s.disownsAny listings t := by
  unfold disownsAny
  simp only [disowns_stamped]

/-- Listings that a server gives for their sources, where no bag has the empty name. -/
structure Gives (s : Server) (listings : List (Source × List Tiddler)) : Prop where
  sound : s.Sound
  named : s.bags.get? "" = none
  listed : ∀ e ∈ listings, s.listingOf e.1 = .ok e.2

variable {listings : List (Source × List Tiddler)}

theorem Gives.of_cons {e : Source × List Tiddler} (h : s.Gives (e :: listings)) :
    s.Gives listings :=
  ⟨h.sound, h.named, fun e' he' => h.listed e' (List.mem_cons_of_mem e he')⟩

/-- A server holds all that it gives. -/
theorem Gives.backs (h : s.Gives listings) (ht : t ∈ listings.flatMap Prod.snd) : s.Backs t := by
  obtain ⟨e, he, ht⟩ := List.mem_flatMap.1 ht
  exact h.sound.backs_of_listed (h.listed e he) ht

theorem Gives.isBagged (h : s.Gives listings) (ht : t ∈ listings.flatMap Prod.snd) :
    t.IsBagged :=
  (h.backs ht).isBagged h.named

theorem Gives.isBagged_of_mem (h : s.Gives listings) {e : Source × List Tiddler}
    (he : e ∈ listings) (ht : t ∈ e.2) : t.IsBagged :=
  h.isBagged (List.mem_flatMap.2 ⟨e, he, ht⟩)

/-- What a server gives for one source it does not disown after the listing of another. -/
theorem Gives.disownsAny_eq_false (h : s.Gives listings) (ht : s.Backs t) :
    s.disownsAny listings t = false := by
  rw [Server.disownsAny, List.any_eq_false]
  intro e he
  rw [h.sound.disowns_of_backs (h.listed e he) (ht.isBagged h.named) ht]
  exact Bool.false_ne_true

end Server

namespace Tier

variable {m : Tier} {now : Instant} {t : Tiddler} {ts : List Tiddler}

/-- Where all is bagged, filing a bagged tiddler puts it in and does nothing else. -/
theorem AllBagged.entries_file (h : m.AllBagged) (ht : t.IsBagged) :
    (m.file t).entries = m.entries.insert t.key t := by
  obtain ⟨bag, hbag⟩ := Option.ne_none_iff_exists'.1 ht.bag_ne_none
  unfold Tier.file
  rw [hbag]
  show (m.entries.erase _).insert t.key t = _
  rw [Keyed.erase_of_get?_eq_none (h t.title)]

theorem isBagged_stamped (m : Tier) (now : Instant) :
    (m.stamped now t).IsBagged ↔ t.IsBagged := by
  unfold Tiddler.IsBagged Tiddler.bagName
  rw [bag_stamped]

theorem AllBagged.entries_set (h : m.AllBagged) (now : Instant) (ht : t.IsBagged) :
    (m.set now t).entries = m.entries.insert t.key (m.stamped now t) := by
  unfold set
  rw [h.entries_file ((m.isBagged_stamped now).2 ht), key_stamped]

theorem AllBagged.set (h : m.AllBagged) (now : Instant) (ht : t.IsBagged) :
    (m.set now t).AllBagged :=
  h.file ((m.isBagged_stamped now).2 ht)

theorem Sound.set (h : m.Sound) (now : Instant) (t : Tiddler) : (m.set now t).Sound :=
  h.file (isSynced_stamped _ _ _)

/-- What a tiddler is stamped with depends on the kind of the tier alone. -/
theorem stamped_of_kind_eq {n : Tier} (h : n.kind = m.kind) (now : Instant) (t : Tiddler) :
    n.stamped now t = m.stamped now t := by
  unfold stamped
  rw [h]

/-! ## Filing and dropping many -/

/-- Files confirmed copies one after the other. -/
def setAll (m : Tier) (now : Instant) (ts : List Tiddler) : Tier :=
  ts.foldl (fun m t => m.set now t) m

/-- Drops all tiddlers that pass a test. -/
def without (m : Tier) (p : Tiddler → Bool) : Tier := (m.tiddlers.filter p).foldl remove m

theorem kind_setAll (m : Tier) (now : Instant) (ts : List Tiddler) :
    (m.setAll now ts).kind = m.kind := by
  induction ts generalizing m with
  | nil => rfl
  | cons t ts ih => exact (ih (m.set now t)).trans (kind_file _ _)

theorem Sound.setAll (h : m.Sound) (now : Instant) (ts : List Tiddler) :
    (m.setAll now ts).Sound :=
  List.foldlRecOn ts _ h fun _ h t _ => h.set now t

theorem AllBagged.setAll (h : m.AllBagged) (now : Instant) (hts : ∀ t ∈ ts, t.IsBagged) :
    (m.setAll now ts).AllBagged :=
  List.foldlRecOn ts _ h fun _ h t ht => h.set now (hts t ht)

/-- Under each key there is the last copy filed under it, or what was there before. -/
theorem AllBagged.get?_setAll (h : m.AllBagged) (now : Instant) (hts : ∀ t ∈ ts, t.IsBagged)
    (k : String) : (m.setAll now ts).entries.get? k =
      ((Tiddler.latest? ts k).map (m.stamped now)).or (m.entries.get? k) := by
  induction ts generalizing m with
  | nil => rfl
  | cons t ts ih =>
    obtain ⟨ht, hts⟩ := List.forall_mem_cons.1 hts
    have hstamped : (m.set now t).stamped now = m.stamped now :=
      funext fun u => stamped_of_kind_eq (kind_file _ _) now u
    show ((m.set now t).setAll now ts).entries.get? k = _
    rw [ih (h.set now ht) hts, hstamped, h.entries_set now ht, Keyed.get?_insert,
      Tiddler.latest?_cons]
    cases Tiddler.latest? ts k with
    | some u => rfl
    | none => by_cases hk : k = t.key <;> simp [hk]

theorem entries_foldl_remove (m : Tier) (ts : List Tiddler) :
    (ts.foldl remove m).entries.entries =
      m.entries.entries.filter fun e => e.1 ∉ ts.map Tiddler.key := by
  induction ts generalizing m with
  | nil => simp
  | cons t ts ih =>
    have hremove : (m.remove t).entries.entries =
        m.entries.entries.filter fun e => e.1 ≠ t.key := rfl
    rw [List.foldl_cons, ih, hremove, List.filter_filter]
    refine List.filter_congr fun e _ => ?_
    simp [Bool.and_comm]

/-- What is dropped leaves gaps, and the rest stands as before. -/
theorem Sound.entries_without (h : m.Sound) (p : Tiddler → Bool) :
    (m.without p).entries = m.entries.filterValues fun t => !p t := by
  refine Keyed.ext_entries ?_
  rw [without, entries_foldl_remove]
  refine List.filter_congr fun e he => ?_
  have hget : m.entries.get? e.1 = some e.2 := Keyed.get?_eq_some_iff.2 he
  have hkey := h.keyed hget
  have hmem : e.1 ∈ (m.tiddlers.filter p).map Tiddler.key ↔ p e.2 = true := by
    rw [List.mem_map]
    constructor
    · rintro ⟨u, hu, huk⟩
      obtain ⟨humem, hp⟩ := List.mem_filter.1 hu
      have hentry := h.mem_tiddlers_iff.1 humem
      rw [huk, hget] at hentry
      exact Option.some.inj hentry ▸ hp
    · intro hp
      exact ⟨e.2, List.mem_filter.2 ⟨Keyed.mem_values_iff.2 ⟨_, hget⟩, hp⟩, hkey⟩
  cases hp : p e.2 <;> simp_all

theorem Sound.without (h : m.Sound) (p : Tiddler → Bool) : (m.without p).Sound :=
  List.foldlRecOn _ _ h fun _ h t _ => h.remove t

theorem AllBagged.without (h : m.AllBagged) (p : Tiddler → Bool) : (m.without p).AllBagged :=
  List.foldlRecOn _ _ h fun _ h t _ => h.remove t

theorem kind_without (m : Tier) (p : Tiddler → Bool) : (m.without p).kind = m.kind := by
  unfold without
  generalize m.tiddlers.filter p = ts
  induction ts generalizing m with
  | nil => rfl
  | cons t ts ih => exact ih (m.remove t)

/-! ## Taking in listings -/

/-- Files what the listing of a source holds and drops what the server disowns after it. -/
def takeIn (m : Tier) (s : Server) (now : Instant) (source : Source) (listed : List Tiddler) :
    Tier :=
  (m.setAll now listed).without (s.disowns listed · source)

/-- Takes in the listings of several sources, one after the other. -/
def takeInAll (m : Tier) (s : Server) (now : Instant)
    (listings : List (Source × List Tiddler)) : Tier :=
  listings.foldl (fun m e => m.takeIn s now e.1 e.2) m

variable {s : Server} {source : Source} {listed : List Tiddler}
  {listings : List (Source × List Tiddler)}

theorem kind_takeIn (m : Tier) (s : Server) (now : Instant) (source : Source)
    (listed : List Tiddler) : (m.takeIn s now source listed).kind = m.kind :=
  (kind_without _ _).trans (m.kind_setAll now listed)

theorem Sound.takeIn (h : m.Sound) (s : Server) (now : Instant) (source : Source)
    (listed : List Tiddler) : (m.takeIn s now source listed).Sound :=
  (h.setAll now listed).without _

theorem AllBagged.takeIn (h : m.AllBagged) (s : Server) (now : Instant) (source : Source)
    (hlisted : ∀ t ∈ listed, t.IsBagged) : (m.takeIn s now source listed).AllBagged :=
  (h.setAll now hlisted).without _

/-- Under each key there is the copy that was listed last, or else what was there before, if the
server does not disown that. -/
theorem AllBagged.get?_takeIn (h : m.AllBagged) (hm : m.Sound) (s : Server) (now : Instant)
    (source : Source) (hlisted : ∀ t ∈ listed, t.IsBagged) (k : String) :
    (m.takeIn s now source listed).entries.get? k =
      ((Tiddler.latest? listed k).map (m.stamped now)).or
        ((m.entries.get? k).filter fun t => !s.disowns listed t source) := by
  unfold Tier.takeIn
  rw [(hm.setAll now listed).entries_without, Keyed.get?_filterValues, h.get?_setAll now hlisted]
  cases hlatest : Tiddler.latest? listed k with
  | none => rfl
  | some u =>
    have hown : Store.isListed listed u = true :=
      Store.isListed_eq_true_iff.2 ⟨u, (Tiddler.of_latest?_eq_some hlatest).1, rfl, rfl⟩
    have hkept : s.disowns listed (m.stamped now u) source = false := by
      rw [Server.disowns_stamped, Server.disowns_of_isListed hown]
    simp [hkept]

theorem kind_takeInAll (m : Tier) (s : Server) (now : Instant)
    (listings : List (Source × List Tiddler)) : (m.takeInAll s now listings).kind = m.kind := by
  induction listings generalizing m with
  | nil => rfl
  | cons e listings ih => exact (ih (m.takeIn s now e.1 e.2)).trans (m.kind_takeIn s now e.1 e.2)

theorem Sound.takeInAll (h : m.Sound) (s : Server) (now : Instant)
    (listings : List (Source × List Tiddler)) : (m.takeInAll s now listings).Sound :=
  List.foldlRecOn listings _ h fun _ h e _ => h.takeIn s now e.1 e.2

theorem AllBagged.takeInAll (h : m.AllBagged) (hs : s.Gives listings) (now : Instant) :
    (m.takeInAll s now listings).AllBagged :=
  List.foldlRecOn listings _ h fun _ h e he =>
    h.takeIn s now e.1 fun _ => hs.isBagged_of_mem he

/-- Under each key there is the copy that was listed last for any source, or else what was there
before, if the server disowns that after none of the listings. -/
theorem AllBagged.get?_takeInAll (h : m.AllBagged) (hm : m.Sound) (hs : s.Gives listings)
    (now : Instant) (k : String) :
    (m.takeInAll s now listings).entries.get? k =
      ((Tiddler.latest? (listings.flatMap Prod.snd) k).map (m.stamped now)).or
        ((m.entries.get? k).filter fun t => !s.disownsAny listings t) := by
  induction listings generalizing m with
  | nil =>
    show m.entries.get? k = (m.entries.get? k).filter fun _ => true
    cases m.entries.get? k <;> rfl
  | cons e listings ih =>
    have hbagged : ∀ t ∈ e.2, t.IsBagged := fun t => hs.isBagged_of_mem List.mem_cons_self
    have hstamped : (m.takeIn s now e.1 e.2).stamped now = m.stamped now :=
      funext fun t => stamped_of_kind_eq (kind_takeIn m s now e.1 e.2) now t
    show ((m.takeIn s now e.1 e.2).takeInAll s now listings).entries.get? k = _
    rw [ih (h.takeIn s now e.1 hbagged) (hm.takeIn s now e.1 e.2) hs.of_cons, hstamped,
      h.get?_takeIn hm s now e.1 hbagged, List.flatMap_cons, Tiddler.latest?_append]
    cases Tiddler.latest? (listings.flatMap Prod.snd) k with
    | some t => rfl
    | none =>
      cases hlatest : Tiddler.latest? e.2 k with
      | some t =>
        -- What this source has given, no later pass drops.
        have ht : t ∈ (e :: listings).flatMap Prod.snd :=
          List.mem_append_left _ (Tiddler.of_latest?_eq_some hlatest).1
        have hkept := hs.of_cons.disownsAny_eq_false (hs.backs ht)
        simp [Server.disownsAny_stamped, hkept]
      | none =>
        cases m.entries.get? k with
        | none => rfl
        | some t =>
          cases s.disowns e.2 t e.1 <;> simp [Server.disownsAny]

end Tier

end TiddlerShelf
