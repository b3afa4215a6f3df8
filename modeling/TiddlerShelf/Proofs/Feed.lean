import TiddlerShelf.Proofs.Bagged
import TiddlerShelf.Proofs.Hearing
import TiddlerShelf.Proofs.Upkeep

/-! # Confirmed copies as a feed of changes

What is raised of the confirmed copies of a store is enough to follow them: whoever replays all of
it holds exactly the bagged titles of the synced tier with their revisions, after each copy that is
filed and each one that is dropped. Filing the same revision again raises nothing and changes
nothing for who follows, and neither does a copy without a bag. -/

namespace TiddlerShelf

open Program

namespace Keyed

variable {κ ι α β : Type} [DecidableEq κ] [DecidableEq ι]

/-- Putting in a value under another key of its own, where that key stands for the first. -/
theorem put_map {f : α → ι} {g : α → β} {k : κ} {a : α} {es : List (κ × α)}
    (h : ∀ e ∈ es, e.1 = k ↔ f e.2 = f a) :
    put (f a) (g a) (es.map fun e => (f e.2, g e.2)) =
      (put k a es).map fun e => (f e.2, g e.2) := by
  induction es with
  | nil => rfl
  | cons e es ih =>
    have hes := ih fun e' he' => h e' (List.mem_cons_of_mem e he')
    obtain ⟨k', b⟩ := e
    have hhead : k' = k ↔ f b = f a := h (k', b) List.mem_cons_self
    by_cases hk : k' = k
    · simp [put, hk, hhead.1 hk]
    · simp [put, hk, mt hhead.2 hk, hes]

/-- Overwriting a value with itself changes nothing. -/
theorem insert_eq_self {t : Keyed κ α} {k : κ} {a : α} (h : t.get? k = some a) :
    t.insert k a = t :=
  ext_entries (put_eq_self h)

end Keyed

namespace Tiddler

/-- Where a tiddler lives: its bag and its title. -/
def place (t : Tiddler) : Option String × String := (t.bagName, t.title)

theorem IsBagged.bagName_eq {t u : Tiddler} (ht : t.IsBagged) (h : u.key = t.key) :
    u.bagName = t.bagName := by
  have hname := (key_eq_iff.1 h).1
  unfold IsBagged at ht
  cases hu : u.bagName <;> cases hb : t.bagName <;> simp_all

/-- To a tiddler in a named bag, the place is as good as the key. -/
theorem IsBagged.key_eq_iff_place {t u : Tiddler} (ht : t.IsBagged) :
    t.key = u.key ↔ t.place = u.place := by
  constructor
  · intro h
    exact Prod.ext (ht.bagName_eq h.symm).symm (title_eq_of_key_eq h)
  · intro h
    obtain ⟨hbag, htitle⟩ := Prod.mk.inj h
    exact key_eq_iff.2 ⟨congrArg (·.getD "") hbag, htitle⟩

end Tiddler

/-! ## Replicas -/

/-- What a follower knows of a store: which titles live in which bags, with their revisions. -/
abbrev Replica := Keyed (Option String × String) (Option Nat)

namespace Replica

/-- Takes a change to heart. -/
def hear (r : Replica) : Change → Replica
  | .changed t => r.insert t.place t.revision
  | .deleted t => r.erase t.place
  | .container _ => r

/-- What changes come to from the start. -/
def replay (changes : List Change) : Replica := changes.foldl hear .empty

/-- What there is to know of a tier. -/
def entriesOf (tier : Tier) : List ((Option String × String) × Option Nat) :=
  (tier.tiddlers.filter (·.bag.isSome)).map fun t => (t.place, t.revision)

variable {r : Replica} {tier : Tier} {t : Tiddler}

theorem replay_append (cs ds : List Change) : replay (cs ++ ds) = ds.foldl hear (replay cs) :=
  List.foldl_append

theorem entriesOf_eq (tier : Tier) :
    entriesOf tier = tier.bagged.entries.map fun e => (e.2.place, e.2.revision) := by
  unfold entriesOf
  rw [Tier.tiddlers, ← Keyed.values_filterValues, Keyed.values, List.map_map]
  rfl

theorem insert_place (h : tier.Named) (hr : r.entries = entriesOf tier) (ht : t.IsBagged) :
    (r.insert t.place t.revision).entries = entriesOf (tier.file t) := by
  rw [entriesOf_eq, h.bagged_file_of_isBagged ht]
  show Keyed.put _ _ r.entries = (Keyed.put t.key t tier.bagged.entries).map _
  rw [hr, entriesOf_eq]
  refine Keyed.put_map (f := Tiddler.place) (g := Tiddler.revision) fun e he => ?_
  obtain ⟨hbagged, hkey⟩ := h.isBagged (Keyed.get?_eq_some_iff.2 he)
  rw [← hkey]
  exact hbagged.key_eq_iff_place

theorem erase_place (h : tier.Named) (hr : r.entries = entriesOf tier) (t : Tiddler) :
    (r.erase t.place).entries = entriesOf (tier.remove t) := by
  rw [entriesOf_eq, Tier.bagged_remove]
  show r.entries.filter _ = (tier.bagged.entries.filter _).map _
  rw [hr, entriesOf_eq, List.filter_map]
  congr 1
  refine List.filter_congr fun e he => ?_
  obtain ⟨hbagged, hkey⟩ := h.isBagged (Keyed.get?_eq_some_iff.2 he)
  rw [← hkey]
  exact decide_eq_decide.2 (not_congr hbagged.key_eq_iff_place.symm)

/-- What a follower knows of a tiddler in a named bag is the revision that the tier holds. -/
theorem get?_place (hr : r.entries = entriesOf tier) {u : Tiddler}
    (hu : tier.entries.get? u.key = some u) (hbag : u.bag.isSome) :
    r.get? u.place = some u.revision := by
  refine Keyed.get?_eq_some_iff.2 ?_
  rw [hr]
  refine List.mem_map.2 ⟨u, List.mem_filter.2 ⟨?_, hbag⟩, rfl⟩
  exact Keyed.mem_values_iff.2 ⟨u.key, hu⟩

end Replica

/-! ## Bags come first -/

namespace Change

/-- The bag that has come into view. -/
def container? : Change → Option Container
  | container bag => some bag
  | _ => none

/-- The bags that have come into view, in order. -/
def seenBags (changes : List Change) : List Container := changes.filterMap container?

/-- Whether every change of a tiddler in a named bag comes after that bag. -/
def InOrder (changes : List Change) : Prop :=
  ∀ before c after t name, changes = before ++ c :: after → c.tiddler? = some t →
    t.bagName = some name → name ≠ "" → name ∈ (seenBags before).map (·.name)

/-- One more change keeps the order if its bag has come into view by then. -/
theorem InOrder.concat {changes : List Change} (h : InOrder changes) {c : Change}
    (hc : ∀ t name, c.tiddler? = some t → t.bagName = some name → name ≠ "" →
      name ∈ (seenBags changes).map (·.name)) : InOrder (changes ++ [c]) := by
  intro before c' after t name hsplit
  rcases List.eq_nil_or_concat after with rfl | ⟨after', last, rfl⟩
  · obtain ⟨rfl, heq⟩ := List.append_inj' hsplit rfl
    obtain rfl := List.singleton_inj.1 heq
    exact hc t name
  · have hsplit' : changes ++ [c] = (before ++ c' :: after') ++ [last] := by
      rw [hsplit, List.concat_eq_append, List.append_assoc, List.cons_append]
    exact h before c' after' t name (List.append_inj' hsplit' rfl).1

/-- A bag that comes into view is about no tiddler. -/
theorem InOrder.container {changes : List Change} (h : InOrder changes) (bag : Option Container) :
    InOrder (changes ++ (bag.map Change.container).toList) := by
  cases bag with
  | none => rwa [Option.map_none, Option.toList_none, List.append_nil]
  | some bag => exact h.concat fun _ _ ht => nomatch ht

end Change

namespace Tier

variable {tier : Tier}

theorem Named.file (h : tier.Named) {t : Tiddler} (ht : t.IsPlaced)
    (hstamp : t.isSynced = (tier.kind == .synced)) : (tier.file t).Named := by
  refine ⟨h.toSound.file hstamp, fun {k u} hu => ?_⟩
  rcases of_get?_file hu with ⟨-, rfl⟩ | hu
  · exact ht
  · exact h.placed hu

theorem Named.remove (h : tier.Named) (t : Tiddler) : (tier.remove t).Named :=
  ⟨h.toSound.remove t, fun hu => h.placed (get?_of_get?_remove hu)⟩

@[simp] theorem bag_stamped (tier : Tier) (now : Instant) (t : Tiddler) :
    (tier.stamped now t).bag = t.bag := by
  unfold stamped
  cases tier.kind <;> rfl

@[simp] theorem key_stamped (tier : Tier) (now : Instant) (t : Tiddler) :
    (tier.stamped now t).key = t.key := by
  unfold stamped
  cases tier.kind <;> rfl

theorem hasSeen_iff {bag : Container} :
    tier.hasSeen bag = true ↔ bag.name ∈ tier.bags.map (·.name) := by
  simp only [hasSeen, List.any_eq_true, Container.sameAs, beq_iff_eq, List.mem_map]
  exact exists_congr fun _ => and_congr_right fun _ => eq_comm

/-- Filing a confirmed copy brings just the bag into view that is announced. -/
theorem bags_file_stamped (hkind : tier.kind = .synced) (now : Instant) (t : Tiddler) :
    (tier.file (tier.stamped now t)).bags = tier.bags ++ (tier.newBag? t).toList := by
  unfold file newBag?
  rw [bag_stamped, hkind]
  cases t.bag with
  | none => exact (List.append_nil _).symm
  | some bag =>
    show (if tier.hasSeen bag then tier.bags else tier.bags ++ [bag]) = _
    cases hseen : tier.hasSeen bag <;> simp [Option.filter, hseen]

/-- A confirmed copy in a bag that is filed without news has the revision of the one before. -/
theorem Sound.revision_of_silent (h : tier.Sound) (hkind : tier.kind = .synced) {now : Instant}
    {t : Tiddler} (hbag : t.bag.isSome) (hsilent : (tier.reconcile now t).notified = false) :
    ∃ old, tier.entries.get? t.key = some old ∧ old.revision = (tier.stamped now t).revision := by
  have hnews : isNews (tier.get? t) (tier.stamped now t) = false := by
    simpa [reconcile, hbag] using hsilent
  cases hold : tier.get? t with
  | none => rw [hold] at hnews; contradiction
  | some old =>
    obtain ⟨hentry, -, hkey⟩ := h.of_get? hold
    have hsynced : old.isSynced = true := by rw [h.stamped hentry, hkind]; rfl
    rw [hold, isNews, if_pos hsynced] at hnews
    exact ⟨old, hkey hbag ▸ hentry, by simpa using hnews⟩

end Tier

namespace Replica

theorem replay_container (changes : List Change) (bag : Option Container) :
    replay (changes ++ (bag.map Change.container).toList) = replay changes := by
  rw [replay_append]
  cases bag <;> rfl

theorem replay_changed (changes : List Change) (t : Tiddler) :
    replay (changes ++ [.changed t]) = (replay changes).insert t.place t.revision :=
  replay_append _ _

theorem replay_deleted (changes : List Change) (t : Tiddler) :
    replay (changes ++ [.deleted t]) = (replay changes).erase t.place :=
  replay_append _ _

end Replica

/-! ## What is raised -/

namespace Store

/-- The changes that filing a confirmed copy tells of: the bag if it has come into view, and the
copy if that is news. -/
theorem changes_reconcile (s : Store) (t : Tiddler) :
    (s.synced.reconcile s.clock t).events.map (·.change) =
      ((s.synced.newBag? t).map Change.container).toList ++
        if (s.synced.reconcile s.clock t).notified
        then [Change.changed (s.synced.stamped s.clock t)] else [] := by
  have hbag : (((s.synced.newBag? t).map Event.bagSeen).toList).map (·.change) =
      ((s.synced.newBag? t).map Change.container).toList := by
    cases s.synced.newBag? t <;> rfl
  show ((_ : List Event) ++ _).map _ = _
  rw [List.map_append, hbag, apply_ite (List.map _)]
  rfl

theorem raises_fileSynced (s : Store) (t : Tiddler) :
    s.audience.Raises (s.synced.reconcile s.clock t).events (s.fileSynced t).2.audience :=
  raises_announce _ _

/-- The events that dropping a confirmed copy raises: that it has gone, if it was there. -/
def lossOf (s : Store) (t : Tiddler) : List Event :=
  if s.synced.entries.contains t.key then [.deleted t] else []

theorem raises_dropGone (s : Store) (t : Tiddler) :
    s.audience.Raises (s.lossOf t) (s.dropGone t).audience := by
  unfold lossOf Store.dropGone
  split
  · exact raises_announce _ _
  · exact .nil

theorem synced_dropGone (s : Store) (t : Tiddler) :
    (s.dropGone t).synced = s.synced.remove t := by
  unfold Store.dropGone
  split <;> rfl

end Store

/-! ## What a store keeps up -/

/-- A store, and the events that have been raised of its confirmed copies so far. -/
structure Logged where
  raised : List Event
  store : Store

namespace Logged

/-- The changes that the events tell of. -/
def changes (x : Logged) : List Change := x.raised.map (·.change)

/-- What keeps a store fed. -/
structure Feeding (x : Logged) : Prop where
  named : x.store.synced.Named
  kind : x.store.synced.kind = .synced
  replica : (Replica.replay x.changes).entries = Replica.entriesOf x.store.synced
  bags : Change.seenBags x.changes = x.store.synced.bags
  once : (x.store.synced.bags.map (·.name)).Nodup
  nonempty : "" ∉ x.store.synced.bags.map (·.name)
  order : Change.InOrder x.changes

/-- What becomes of all that when a copy is filed. -/
def file (x : Logged) (t : Tiddler) : Logged where
  raised := x.raised ++ (x.store.synced.reconcile x.store.clock t).events
  store := (x.store.fileSynced t).2

/-- What becomes of it when a copy is dropped. -/
def drop (x : Logged) (t : Tiddler) : Logged where
  raised := x.raised ++ x.store.lossOf t
  store := x.store.dropGone t

variable {x : Logged} {t : Tiddler}

/-- Only the confirmed copies matter. -/
theorem Feeding.of_same (h : x.Feeding) {s : Store} (hsynced : s.synced = x.store.synced) :
    Feeding ⟨x.raised, s⟩ := by
  obtain ⟨hnamed, hkind, hreplica, hbags, honce, hnonempty, horder⟩ := h
  rw [← hsynced] at hnamed hkind hreplica hbags honce hnonempty
  exact ⟨hnamed, hkind, hreplica, hbags, honce, hnonempty, horder⟩

theorem changes_file (x : Logged) (t : Tiddler) :
    (x.file t).changes =
      x.changes ++ ((x.store.synced.newBag? t).map Change.container).toList ++
        if (x.store.synced.reconcile x.store.clock t).notified
        then [Change.changed (x.store.synced.stamped x.store.clock t)] else [] := by
  rw [List.append_assoc, ← Store.changes_reconcile]
  exact List.map_append

/-- Whoever replays the changes keeps up with a copy that is filed, whether that is news or not. -/
theorem Feeding.replica_file (h : x.Feeding) (ht : t.IsPlaced) :
    (Replica.replay (x.file t).changes).entries = Replica.entriesOf (x.file t).store.synced := by
  have hsynced : (x.file t).store.synced =
    x.store.synced.file (x.store.synced.stamped x.store.clock t) := rfl
  rw [hsynced, changes_file]
  generalize hstored : x.store.synced.stamped x.store.clock t = stored
  have hbag : stored.bag = t.bag := hstored ▸ Tier.bag_stamped _ _ _
  cases hsome : t.bag.isSome with
  | false =>
    have hnone : t.bag = none := Option.isSome_eq_false_iff.1 hsome |> Option.isNone_iff_eq_none.1
    have hsilent : (x.store.synced.reconcile x.store.clock t).notified = false := by
      simp [Tier.reconcile, hnone]
    rw [hsilent, Replica.entriesOf_eq, h.named.bagged_file_of_none (hbag.trans hnone),
      ← Replica.entriesOf_eq, if_neg Bool.false_ne_true, List.append_nil, Replica.replay_container]
    exact h.replica
  | true =>
    have hbagged : stored.IsBagged := (ht.of_bag_eq hbag).isBagged (hbag ▸ hsome)
    have hinsert := Replica.insert_place h.named h.replica hbagged
    cases hnotified : (x.store.synced.reconcile x.store.clock t).notified with
    | true =>
      rw [if_pos rfl, Replica.replay_changed, Replica.replay_container]
      exact hinsert
    | false =>
      -- The revision is known already, so that hearing of it again would change nothing.
      obtain ⟨old, hold, hrevision⟩ := h.named.revision_of_silent h.kind hsome hnotified
      have hkey : old.key = stored.key := by
        rw [h.named.keyed hold, ← hstored, Tier.key_stamped]
      have hplace := hbagged.key_eq_iff_place.1 hkey.symm
      have hsome' : old.bag.isSome := by
        have hname := hbagged.bagName_eq hkey
        rw [Tiddler.bagName, Tiddler.bagName, hbag] at hname
        simpa [hsome] using congrArg Option.isSome hname
      have hget := Replica.get?_place h.replica ((h.named.keyed hold).symm ▸ hold) hsome'
      rw [← hplace, hrevision, hstored] at hget
      rw [Keyed.insert_eq_self hget] at hinsert
      rw [if_neg Bool.false_ne_true, List.append_nil, Replica.replay_container]
      exact hinsert

/-- Filing a confirmed copy of a placed tiddler keeps a store fed. -/
theorem Feeding.file (h : x.Feeding) (ht : t.IsPlaced) : (x.file t).Feeding := by
  have hbags : (x.file t).store.synced.bags =
      x.store.synced.bags ++ (x.store.synced.newBag? t).toList :=
    Tier.bags_file_stamped h.kind x.store.clock t
  have hseen : Change.seenBags
      (x.changes ++ ((x.store.synced.newBag? t).map Change.container).toList) =
      (x.file t).store.synced.bags := by
    rw [hbags, ← h.bags, Change.seenBags, List.filterMap_append]
    cases x.store.synced.newBag? t <;> rfl
  have hstored : (x.store.synced.stamped x.store.clock t).IsPlaced :=
    ht.of_bag_eq (Tier.bag_stamped _ _ _)
  refine ⟨h.named.file hstored (Tier.isSynced_stamped _ _ _),
    (Tier.kind_file _ _).trans h.kind, h.replica_file ht, ?_, ?_, ?_, ?_⟩
  · rw [changes_file, Change.seenBags, List.filterMap_append, ← Change.seenBags, hseen]
    split <;> exact List.append_nil _
  · rw [hbags]
    cases hnew : x.store.synced.newBag? t with
    | none => simpa using h.once
    | some bag =>
      have hfresh : bag.name ∉ x.store.synced.bags.map (·.name) := by
        rw [← Tier.hasSeen_iff, (Tier.of_newBag? hnew).2.2]
        exact Bool.false_ne_true
      rw [Option.toList_some, List.map_append, List.nodup_append]
      refine ⟨h.once, List.pairwise_singleton _ _, fun a ha b hb heq => hfresh ?_⟩
      have hlast : b = bag.name := List.mem_singleton.1 hb
      rwa [← hlast, ← heq]
  · rw [hbags]
    cases hnew : x.store.synced.newBag? t with
    | none => simpa using h.nonempty
    | some bag =>
      rw [Option.toList_some, List.map_append, List.mem_append, not_or]
      refine ⟨h.nonempty, fun hmem => ht bag (Tier.of_newBag? hnew).1 ?_⟩
      exact (List.mem_singleton.1 hmem).symm
  · rw [changes_file]
    have horder := h.order.container (x.store.synced.newBag? t)
    split
    · refine horder.concat fun u held hu hname _ => ?_
      obtain rfl := Option.some.inj hu
      obtain ⟨bag, hbag, rfl⟩ := Option.map_eq_some_iff.1 hname
      rw [hseen, ← Tier.hasSeen_iff]
      exact Tier.hasSeen_file_self _ hbag
    · rwa [List.append_nil]

/-- Dropping a confirmed copy keeps a store fed. -/
theorem Feeding.drop (h : x.Feeding) (t : Tiddler) : (x.drop t).Feeding := by
  have hdropped : (x.drop t).store.synced = x.store.synced.remove t := x.store.synced_dropGone t
  have hchanges : (x.drop t).changes = x.changes ++ (x.store.lossOf t).map (·.change) :=
    List.map_append
  cases hthere : x.store.synced.entries.contains t.key with
  | true =>
    obtain ⟨u, hu⟩ := Option.isSome_iff_exists.1 hthere
    rw [Store.lossOf, hthere, if_pos rfl] at hchanges
    refine ⟨hdropped ▸ h.named.remove t, hdropped ▸ h.kind, ?_, ?_, hdropped ▸ h.once,
      hdropped ▸ h.nonempty, ?_⟩
    · rw [hdropped, hchanges]
      exact (congrArg _ (Replica.replay_deleted _ _)).trans
        (Replica.erase_place h.named h.replica t)
    · rw [hdropped, hchanges, Change.seenBags, List.filterMap_append]
      exact (List.append_nil _).trans h.bags
    · rw [hchanges]
      refine h.order.concat fun v held hv hname hne => ?_
      obtain rfl := Option.some.inj hv
      have hbagged : t.IsBagged := by rwa [Tiddler.IsBagged, hname]
      obtain ⟨bag, hbag, rfl⟩ : ∃ bag, u.bag = some bag ∧ bag.name = held :=
        Option.map_eq_some_iff.1 ((hbagged.bagName_eq (h.named.keyed hu)).trans hname)
      rw [h.bags, ← Tier.hasSeen_iff]
      exact h.named.seen hu hbag
  | false =>
    have hnone : x.store.synced.entries.get? t.key = none := by
      simpa [Keyed.contains] using hthere
    have hentries : (x.store.synced.remove t).entries = x.store.synced.entries :=
      Keyed.erase_of_get?_eq_none hnone
    rw [Store.lossOf, hthere, if_neg Bool.false_ne_true, List.map_nil, List.append_nil] at hchanges
    refine ⟨hdropped ▸ h.named.remove t, hdropped ▸ h.kind, ?_, ?_, hdropped ▸ h.once,
      hdropped ▸ h.nonempty, hchanges ▸ h.order⟩
    · rw [hdropped, hchanges, Replica.entriesOf, Tier.tiddlers, hentries]
      exact h.replica
    · rw [hdropped, hchanges]
      exact h.bags

end Logged

end TiddlerShelf
