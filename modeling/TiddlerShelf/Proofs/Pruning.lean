import TiddlerShelf.Proofs.Exchange
import TiddlerShelf.Proofs.Intake

/-! # What refreshes drop

A refresh drops a confirmed copy when the listing of its bag lacks it, or when it cannot be got. If
every bag has a name and getting does not fail, the server has nothing under its bag and title then.
Each stretch of a refresh leaves a title in a bag alone, or files what the server has just given
under it, or drops it and tells so just once (`Handling`), however the server and the other tasks go
on while the refresh waits. -/

namespace TiddlerShelf

open Program

namespace Event

/-- Whether an event tells that a title has gone from a bag. -/
def tellsGone (place : Option String × String) (e : Event) : Bool :=
  match e.kind, e.change with
  | .tiddler, .deleted t => e.name == some t.title && t.place == place
  | _, _ => false

theorem tellsGone_deleted (t : Tiddler) (place : Option String × String) :
    (deleted t).tellsGone place = (t.place == place) := by
  show (some t.title == some t.title && t.place == place) = _
  rw [beq_self_eq_true, Bool.true_and]

theorem tellsGone_eq_false {e : Event} (h : e.change.isDeleted = false)
    (place : Option String × String) : e.tellsGone place = false := by
  unfold tellsGone
  split
  · rename_i hchange
    rw [hchange] at h
    contradiction
  · rfl

end Event

namespace Tiddler

/-- A deletion is about a tiddler in a named bag exactly if it has its key. -/
theorem IsBagged.tellsGone_deleted {t : Tiddler} (ht : t.IsBagged) (u : Tiddler) :
    (Event.deleted u).tellsGone t.place = decide (t.key = u.key) := by
  rw [Event.tellsGone_deleted, beq_eq_decide]
  exact decide_eq_decide.2 (eq_comm.trans ht.key_eq_iff_place.symm)

theorem IsBagged.of_key_eq {t u : Tiddler} (ht : t.IsBagged) (h : u.key = t.key) : u.IsBagged :=
  (key_eq_iff.1 h).1.trans_ne ht

end Tiddler

namespace Tier

/-- Whether nothing stands in a tier where a title without a bag would. -/
def AllBagged (tier : Tier) : Prop := ∀ title, tier.entries.get? (Key.ofNames "" title) = none

variable {tier : Tier} {t u : Tiddler}

theorem Sound.allBagged (h : tier.Sound) (hall : ∀ t ∈ tier.tiddlers, t.IsBagged) :
    tier.AllBagged := by
  intro title
  cases hget : tier.entries.get? (Key.ofNames "" title) with
  | none => rfl
  | some t =>
    have hbagged := hall t (Keyed.mem_values_iff.2 ⟨_, hget⟩)
    exact absurd (h.keyed hget) (hbagged.key_ne title)

/-- What has the key of an entry is bagged. -/
theorem AllBagged.isBagged (h : tier.AllBagged) (ht : (tier.entries.get? t.key).isSome) :
    t.IsBagged := by
  intro hname
  rw [Tiddler.key, hname, h t.title] at ht
  exact Bool.false_ne_true ht

/-- Filing leaves other bagged titles alone. -/
theorem get?_file_of_ne (tier : Tier) (ht : t.IsBagged) (hne : t.key ≠ u.key) :
    (tier.file u).entries.get? t.key = tier.entries.get? t.key := by
  rw [get?_file, if_neg hne, if_neg fun h => ht.key_ne _ h.2]

theorem AllBagged.file (h : tier.AllBagged) (ht : t.IsBagged) : (tier.file t).AllBagged := by
  intro title
  rw [get?_file, if_neg (ht.key_ne title).symm]
  split
  · rfl
  · exact h title

theorem AllBagged.remove (h : tier.AllBagged) (t : Tiddler) : (tier.remove t).AllBagged := by
  intro title
  rw [get?_remove, h title, ite_self]

theorem countP_tellsGone_reconcile (tier : Tier) (now : Instant) (t u : Tiddler) :
    (tier.reconcile now u).events.countP (·.tellsGone t.place) = 0 := by
  rw [List.countP_eq_zero]
  intro e he
  rcases tier.mem_events_reconcile he with ⟨bag, -, rfl⟩ | rfl <;> exact Bool.false_ne_true

/-- What dropping a confirmed copy tells: that it has gone, if it was there. -/
def dropEvents (tier : Tier) (t : Tiddler) : List Event :=
  if tier.entries.contains t.key then [.deleted t] else []

end Tier

namespace Server

/-- Whether a server holds nothing under the bag and the title of a tiddler. -/
def Lacks (s : Server) (t : Tiddler) : Prop :=
  ∃ bag, t.bagName = some bag ∧ s.stored? bag t.title = none

variable {s : Server} {t u : Tiddler}

theorem answer_of_not_failing {r : Request} (h : r.operation ∉ s.failing) :
    s.answer r = s.fulfil r :=
  if_neg h

theorem answer_snd_of_fetches {r : Request} (h : r.Fetches) : (s.answer r).2 = s := by
  cases r with
  | get wanted render => exact s.answer_get_snd wanted render
  | list c =>
    unfold answer
    split <;> rfl
  | search query =>
    unfold answer
    split <;> rfl
  | _ => exact h.elim

theorem Lacks.of_key_eq (h : s.Lacks u) (ht : t.IsBagged) (hkey : u.key = t.key) : s.Lacks t := by
  obtain ⟨bag, hbag, hnone⟩ := h
  refine ⟨bag, (ht.bagName_eq hkey) ▸ hbag, ?_⟩
  rwa [← Tiddler.title_eq_of_key_eq hkey]

/-- Where no bag has the empty name, what a server holds is in a named bag. -/
theorem Backs.isBagged (h : s.Backs t) (hnamed : s.bags.get? "" = none) : t.IsBagged := by
  obtain ⟨bag, v, hbag, hv, -⟩ := h
  intro hempty
  rw [hbag] at hempty
  obtain rfl : bag = "" := hempty
  unfold stored? at hv
  rw [hnamed] at hv
  contradiction

/-- What the listing of a bag lacks is not in the bag. -/
theorem Sound.lacks_of_not_listed (h : s.Sound) {c : Container} {listed : List Tiddler}
    (hlisted : s.listing c = .ok listed) (hc : c.isRecipe = false) (hbag : t.bagName = some c.name)
    (hnot : Store.isListed listed t = false) : s.Lacks t := by
  refine ⟨c.name, hbag, ?_⟩
  obtain ⟨-, tiddlers, htiddlers, rfl⟩ | ⟨hrecipe, -⟩ := listing_cases hlisted
  · cases hv : s.stored? c.name t.title with
    | none => rfl
    | some v =>
      have hmem : v ∈ tiddlers.values :=
        Keyed.mem_values_iff.2 ⟨_, (stored?_eq_get? htiddlers t.title).symm.trans hv⟩
      have hfound : Store.isListed tiddlers.values t = true :=
        List.any_eq_true.2 ⟨v, hmem, by simp [h.bag hv, h.title hv, hbag]⟩
      rw [hnot] at hfound
      contradiction
  · rw [hc] at hrecipe
    contradiction

/-- What cannot be got from a bag is not in it, as long as getting does not fail. -/
theorem lacks_of_not_found (hbagged : t.IsBagged) (hnone : s.find? t = none) : s.Lacks t := by
  obtain ⟨bag, hbag⟩ := Option.ne_none_iff_exists'.1 hbagged.bag_ne_none
  have hname : t.bagName = some bag.name := by rw [Tiddler.bagName, hbag]; rfl
  refine ⟨bag.name, hname, ?_⟩
  unfold find? at hnone
  rwa [hname] at hnone

/-- What a server shows to have gone is not there. -/
theorem Sound.lacks_of_showsGone (h : s.Sound) (hget : Operation.get ∉ s.failing) {since : Store}
    {r : Request} (hgone : (Cause.answered since r (s.answer r).1).ShowsGone t)
    (ht : t.IsBagged) : s.Lacks t := by
  cases r with
  | get wanted render =>
    rw [answer_of_not_failing hget] at hgone
    simp only [fulfil] at hgone
    cases hfind : s.find? wanted with
    | some found =>
      rw [hfind] at hgone
      cases render <;> exact hgone.elim
    | none =>
      rw [hfind] at hgone
      cases render with
      | true => exact hgone.elim
      | false =>
        obtain rfl : t = wanted := hgone
        exact lacks_of_not_found ht hfind
  | list c =>
    by_cases hlist : Operation.list ∈ s.failing
    · rw [answer, if_pos (show (Request.list c).operation ∈ s.failing from hlist)] at hgone
      exact hgone.elim
    · rw [answer_of_not_failing (show (Request.list c).operation ∉ s.failing from hlist)] at hgone
      simp only [fulfil] at hgone
      cases hlisted : s.listing c with
      | error e =>
        rw [hlisted] at hgone
        exact hgone.elim
      | ok listed =>
        rw [hlisted] at hgone
        obtain ⟨hc, hbag, hnot⟩ := hgone
        exact h.lacks_of_not_listed hlisted hc hbag hnot
  | _ => exact hgone.elim

end Server

namespace Program

/-- Whether a stretch that an answer has set going has asked for tiddlers. -/
def Cause.Fetches : Cause → Prop
  | .answered _ r _ => r.Fetches
  | _ => True

/-- What the server gives, it does not show to have gone. -/
theorem Cause.ShowsGone.key_ne {k : Cause} {t u : Tiddler} (h : k.ShowsGone t) (hu : u ∈ k.given)
    (hbagged : u.IsBagged) : t.key ≠ u.key := by
  intro hkey
  cases k with
  | called => exact h
  | resolved result => exact h
  | answered since r answer =>
    cases r with
    | list c =>
      cases answer with
      | error e => exact h
      | ok listed =>
        have hlisted : Store.isListed listed t = true :=
          List.any_eq_true.2 ⟨u, hu, by
            simp [hbagged.bagName_eq hkey, Tiddler.title_eq_of_key_eq hkey]⟩
        rw [h.2.2] at hlisted
        contradiction
    | get wanted render =>
      cases answer with
      | ok found => cases render <;> exact h
      | error e => exact absurd hu List.not_mem_nil
    | _ => exact h

/-- What a stretch of a refresh makes of a title in a bag, and how often it tells that the title has
gone. The tier of confirmed copies has come from `m₀` to `m`. -/
inductive Handling (k : Cause) (m₀ m : Tier) (es : List Event) (t : Tiddler) : Prop
  | kept (hsame : m.entries.get? t.key = m₀.entries.get? t.key)
    (htold : es.countP (·.tellsGone t.place) = 0)
  | filed {u : Tiddler} (hu : u ∈ k.given) (hkey : u.key = t.key)
    (hthere : (m.entries.get? t.key).isSome) (htold : es.countP (·.tellsGone t.place) = 0)
  | dropped {u : Tiddler} (hgone : k.ShowsGone u) (hkey : u.key = t.key)
    (hthere : (m₀.entries.get? t.key).isSome) (hnone : m.entries.get? t.key = none)
    (htold : es.countP (·.tellsGone t.place) = 1)

section

variable {k : Cause} {m₀ m m' : Tier} {es es' : List Event} {t u : Tiddler}

/-- What does not touch a title does not change what has been made of it. -/
theorem Handling.of_same (h : Handling k m₀ m es t)
    (hsame : m'.entries.get? t.key = m.entries.get? t.key)
    (htold : es'.countP (·.tellsGone t.place) = es.countP (·.tellsGone t.place)) :
    Handling k m₀ m' es' t := by
  cases h with
  | kept hsame₀ htold₀ => exact .kept (hsame.trans hsame₀) (htold.trans htold₀)
  | filed hu hkey hthere htold₀ => exact .filed hu hkey (hsame ▸ hthere) (htold.trans htold₀)
  | dropped hgone hkey hthere hnone htold₀ =>
    exact .dropped hgone hkey hthere (hsame.trans hnone) (htold.trans htold₀)

theorem Handling.reconcile (h : Handling k m₀ m es t) (ht : t.IsBagged) (hu : u ∈ k.given)
    (hbagged : u.IsBagged) (now : Instant) :
    Handling k m₀ (m.reconcile now u).tier (es ++ (m.reconcile now u).events) t := by
  have htier : (m.reconcile now u).tier = m.file (m.stamped now u) := rfl
  have htold : (es ++ (m.reconcile now u).events).countP (·.tellsGone t.place) =
      es.countP (·.tellsGone t.place) := by
    rw [List.countP_append, Tier.countP_tellsGone_reconcile, Nat.add_zero]
  have hkey := m.key_stamped now u
  by_cases heq : t.key = u.key
  · have hthere : ((m.reconcile now u).tier.entries.get? t.key).isSome := by
      rw [htier, heq, ← hkey, Tier.get?_file_self]
      rfl
    cases h with
    | kept _ htold₀ => exact .filed hu heq.symm hthere (htold.trans htold₀)
    | filed _ _ _ htold₀ => exact .filed hu heq.symm hthere (htold.trans htold₀)
    | dropped hgone hkey' => exact absurd (hkey'.trans heq) (hgone.key_ne hu hbagged)
  · refine h.of_same ?_ htold
    rw [htier, Tier.get?_file_of_ne _ ht (hkey ▸ heq)]

theorem Handling.remove (h : Handling k m₀ m es t) (ht : t.IsBagged) (hu : k.ShowsGone u)
    (hgiven : ∀ v ∈ k.given, v.IsBagged) : Handling k m₀ (m.remove u) (es ++ m.dropEvents u) t := by
  have hget := m.get?_remove u t.key
  have hcount : (es ++ m.dropEvents u).countP (·.tellsGone t.place) =
      es.countP (·.tellsGone t.place) +
        if t.key = u.key ∧ m.entries.contains u.key then 1 else 0 := by
    rw [List.countP_append]
    unfold Tier.dropEvents
    split <;> simp_all [ht.tellsGone_deleted]
  by_cases heq : t.key = u.key
  · rw [if_pos heq] at hget
    rw [← heq] at hcount
    cases hthere : m.entries.get? t.key with
    | none =>
      have hmissing : m.entries.contains t.key = false := by simp [Keyed.contains, hthere]
      rw [hmissing] at hcount
      exact h.of_same (hget.trans hthere.symm) (by simpa using hcount)
    | some v =>
      have hcontains : m.entries.contains t.key = true := by simp [Keyed.contains, hthere]
      rw [hcontains, if_pos ⟨rfl, rfl⟩] at hcount
      -- What is there was there before the stretch, which files nothing that is shown to have gone.
      cases h with
      | kept hsame htold =>
        exact .dropped hu heq.symm (by rw [← hsame, hthere]; rfl) hget (by rw [hcount, htold])
      | filed hv hkey => exact absurd (heq.symm.trans hkey.symm) (hu.key_ne hv (hgiven _ hv))
      | dropped _ _ _ hnone => rw [hthere] at hnone; contradiction
  · rw [if_neg heq] at hget
    rw [if_neg fun h => heq h.1] at hcount
    exact h.of_same hget hcount

/-- What a stretch of a refresh comes to that tells some events. -/
structure Pruned (k : Cause) (m₀ m : Tier) (es : List Event) : Prop where
  allBagged : m.AllBagged
  handling : ∀ t, t.IsBagged → Handling k m₀ m es t
  deleted : ∀ e ∈ es, e.change.isDeleted → ∃ t : Tiddler, t.IsBagged ∧ e.tellsGone t.place

theorem Pruned.refl (k : Cause) (hm : m.AllBagged) : Pruned k m m [] :=
  ⟨hm, fun _ _ => .kept rfl rfl, fun _ he => absurd he List.not_mem_nil⟩

theorem Pruned.reconcile (h : Pruned k m₀ m es) (hu : u ∈ k.given) (hbagged : u.IsBagged)
    (now : Instant) :
    Pruned k m₀ (m.reconcile now u).tier (es ++ (m.reconcile now u).events) := by
  refine ⟨?_, fun t ht => (h.handling t ht).reconcile ht hu hbagged now, ?_⟩
  · refine h.allBagged.file ?_
    unfold Tiddler.IsBagged Tiddler.bagName
    rwa [Tier.bag_stamped]
  · intro e he hdeleted
    rcases List.mem_append.1 he with he | he
    · exact h.deleted e he hdeleted
    · rcases m.mem_events_reconcile he with ⟨bag, -, rfl⟩ | rfl <;> contradiction

theorem Pruned.remove (h : Pruned k m₀ m es) (hu : k.ShowsGone u)
    (hgiven : ∀ v ∈ k.given, v.IsBagged) : Pruned k m₀ (m.remove u) (es ++ m.dropEvents u) := by
  refine ⟨h.allBagged.remove u, fun t ht => (h.handling t ht).remove ht hu hgiven, ?_⟩
  intro e he hdeleted
  rcases List.mem_append.1 he with he | he
  · exact h.deleted e he hdeleted
  · unfold Tier.dropEvents at he
    split at he
    · rename_i hthere
      obtain rfl := List.mem_singleton.1 he
      have hbagged := h.allBagged.isBagged hthere
      exact ⟨u, hbagged, by rw [hbagged.tellsGone_deleted, decide_eq_true rfl]⟩
    · exact absurd he List.not_mem_nil

/-- Telling of something else than a deletion changes nothing about that. -/
theorem Pruned.tell (h : Pruned k m₀ m es) {e : Event} (he : e.change.isDeleted = false) :
    Pruned k m₀ m (es ++ [e]) := by
  refine ⟨h.allBagged, fun t ht => (h.handling t ht).of_same rfl ?_, ?_⟩
  · rw [List.countP_append, List.countP_singleton, Event.tellsGone_eq_false he]
    rfl
  · intro e' he' hdeleted
    rcases List.mem_append.1 he' with he' | he'
    · exact h.deleted e' he' hdeleted
    · rw [List.mem_singleton.1 he', he] at hdeleted
      contradiction

/-- What has been pruned away, the server has shown to have gone, and that was told once. -/
theorem Pruned.of_lost (h : Pruned k m₀ m es) (ht : t.IsBagged)
    (hthere : (m₀.entries.get? t.key).isSome) (hnone : m.entries.get? t.key = none) :
    (∃ u, k.ShowsGone u ∧ u.key = t.key) ∧ es.countP (·.tellsGone t.place) = 1 := by
  cases h.handling t ht with
  | kept hsame _ =>
    rw [← hsame, hnone] at hthere
    contradiction
  | filed _ _ hthere' _ =>
    rw [hnone] at hthere'
    contradiction
  | dropped hgone hkey _ _ htold => exact ⟨⟨_, hgone, hkey⟩, htold⟩

/-- What is told to have gone has been pruned away. -/
theorem Pruned.of_deleted (h : Pruned k m₀ m es) {e : Event} (he : e ∈ es)
    (hdeleted : e.change.isDeleted) : ∃ t : Tiddler, t.IsBagged ∧ e.tellsGone t.place ∧
      (m₀.entries.get? t.key).isSome ∧ m.entries.get? t.key = none := by
  obtain ⟨t, ht, htells⟩ := h.deleted e he hdeleted
  have hcount : 0 < es.countP (·.tellsGone t.place) := List.countP_pos_iff.2 ⟨e, he, htells⟩
  cases h.handling t ht with
  | kept _ htold => omega
  | filed _ _ _ htold => omega
  | dropped _ _ hthere hnone _ => exact ⟨t, ht, htells, hthere, hnone⟩

end

/-- Whether a stretch prunes the confirmed copies and does nothing else to them, if what the server
gives is bagged and so is all that was there. -/
def Prunes (k : Cause) (s₀ s : Store) : Prop :=
  k.Fetches ∧ ((∀ t ∈ k.given, t.IsBagged) → s₀.synced.AllBagged →
    ∃ es, s₀.audience.Raises es s.audience ∧ Pruned k s₀.synced s.synced es)

section

variable {k : Cause} {s₀ s s' : Store}

theorem Prunes.refl (hk : k.Fetches) (s : Store) : Prunes k s s :=
  ⟨hk, fun _ hs => ⟨[], .nil, .refl k hs⟩⟩

theorem Prunes.of_same (h : Prunes k s₀ s) (hsynced : s'.synced = s.synced)
    (haudience : s'.audience = s.audience) : Prunes k s₀ s' := by
  refine ⟨h.1, fun hgiven hs => ?_⟩
  rw [hsynced, haudience]
  exact h.2 hgiven hs

theorem Prunes.moveTo (h : Prunes k s₀ s) (place : Container) : Prunes k s₀ (s.moveTo place) := by
  unfold Store.moveTo
  split
  · exact h
  · refine ⟨h.1, fun hgiven hs => ?_⟩
    obtain ⟨es, hraises, hes⟩ := h.2 hgiven hs
    exact ⟨_, hraises.trans (Store.raises_announce _ _), hes.tell rfl⟩

theorem Prunes.fileSynced (h : Prunes k s₀ s) {t : Tiddler} (ht : t ∈ k.given) :
    Prunes k s₀ (s.fileSynced t).2 := by
  refine ⟨h.1, fun hgiven hs => ?_⟩
  obtain ⟨es, hraises, hes⟩ := h.2 hgiven hs
  exact ⟨_, hraises.trans (Store.raises_announce _ _), hes.reconcile ht (hgiven t ht) s.clock⟩

theorem Prunes.dropGone (h : Prunes k s₀ s) {t : Tiddler} (ht : k.ShowsGone t) :
    Prunes k s₀ (s.dropGone t) := by
  refine ⟨h.1, fun hgiven hs => ?_⟩
  obtain ⟨es, hraises, hes⟩ := h.2 hgiven hs
  have hdropped : (s.dropGone t).synced = s.synced.remove t ∧
      s.audience.Raises (s.synced.dropEvents t) (s.dropGone t).audience := by
    unfold Store.dropGone Tier.dropEvents
    split
    · exact ⟨rfl, Store.raises_announce _ _⟩
    · exact ⟨rfl, .nil⟩
  rw [hdropped.1]
  exact ⟨_, hraises.trans hdropped.2, hes.remove ht hgiven⟩

end

theorem reading_prunes : Reading Prunes fun _ => True where
  failed e s := .refl (k := .resolved (.error e)) trivial s
  found d s := (Prunes.refl (k := .resolved (.ok d)) trivial s).moveTo _
  moveTo h _ := h.moveTo _
  fetch _ := trivial
  fetched {r} hr since answer s := .refl (k := .answered since r answer) hr s
  register h _ _ := h.of_same rfl rfl
  fileSynced h ht := h.fileSynced ht
  dropGone h hgone := h.dropGone hgone

/-- Where the place is known, a refresh asks for the listing of its one source, a bag, at once, and
files it and drops what it lacks as soon as it has come. -/
theorem proceed_refresh {s : Store} {d : Defaults} {c : Container} (hd : s.resolver = .resolved d)
    (hc : c.isRecipe = false) (hsources : (s.moveTo d.pullFrom).sources.values = [.container c]) :
    ∃ next, Call.refresh.program.proceed s = (s.moveTo d.pullFrom, .asking (.list c) next) ∧
      ∀ listed s', ∃ outcome, (next (.ok listed)).proceed s' =
        (((s'.fileListing listed).2.gone c listed).foldl Store.dropGone (s'.fileListing listed).2,
          .ended outcome) := by
  have hplaced : Call.refresh.program.proceed s =
      (Call.Outcome.listed <$> Store.refreshSources (s.moveTo d.pullFrom).sources.values).proceed
        (s.moveTo d.pullFrom) :=
    (proceed_resolve hd).trans rfl
  obtain ⟨next, hasks, hdrops⟩ := proceed_refreshSource hc
  rw [hplaced, hsources]
  refine ⟨_, proceed_bind_of_asking (proceed_bind_of_asking (hasks _)), fun listed s' => ?_⟩
  exact ⟨_, (proceed_bind_of_ended
    ((proceed_bind_of_ended (hdrops listed s')).trans rfl)).trans rfl⟩

end Program

namespace Call

/-- The contracts of calls on what refreshes do to confirmed copies. -/
def Pruning : Call → Contract
  | refresh => within Prunes fun _ => True
  | _ => fun _ _ _ _ => True

theorem keeps_pruning (c : Call) (s : Store) : Keeps c.Pruning c.program .called s s := by
  cases c with
  | refresh => exact keeps_map.2 (reading_prunes.refresh.keeps (.refl (k := .called) trivial s))
  | _ => exact keeps_of_forall (fun _ _ _ _ => trivial) _ _ _ _

end Call

namespace Exchange

/-- The steps in which a task of a call goes on. What it has asked the server, if anything, the
server answers in the same moment. -/
inductive Goes (c : Call) (x : Exchange) : Exchange → Prop
  | answered {b : Activity} {id : TaskId} {r : Request} {since : Store}
    (h : Activity.Step x.activity (.go id c (.answered since r (x.server.answer r).1)) b) :
    Goes c x ⟨b, (x.server.answer r).2⟩
  | proceeds {b : Activity} {id : TaskId} {k : Cause} (h : Activity.Step x.activity (.go id c k) b)
    (hk : ∀ since r answer, k ≠ .answered since r answer) : Goes c x { x with activity := b }

variable {x y z : Exchange} {xs : List Exchange}

theorem Goes.step {c : Call} (h : Goes c x z) : ∃ ts, Step x ts z := by
  cases h with
  | answered h => exact ⟨_, .answered h⟩
  | proceeds h hk =>
    refine ⟨_, .proceeds h fun _ _ since r answer heq => ?_⟩
    obtain ⟨-, -, rfl⟩ := Move.go.inj heq
    exact hk since r answer rfl

/-- If the programs of all calls keep to contracts, so do all tasks of a run that begins without
any. -/
theorem Run.heeds {C : Call → Contract} (h : Run x xs y) (hx : x.activity.Heeds C)
    (hc : ∀ (c : Call) (s : Store), c.program.Keeps (C c) .called s s) : y.activity.Heeds C := by
  induction h with
  | refl => exact hx
  | step _ hstep ih =>
    cases hstep with
    | answered h => exact h.heeds ih fun _ c _ => hc c
    | proceeds h _ => exact h.heeds ih fun _ c _ => hc c
    | incident _ => exact ih

/-- In each step of a refresh the server stays as it is, and the confirmed copies are pruned by what
it shows. -/
theorem Goes.pruned (h : Goes .refresh x z) (hx : x.Sound)
    (hheeds : x.activity.Heeds Call.Pruning) (hnamed : x.server.bags.get? "" = none)
    (hget : Operation.get ∉ x.server.failing) (hall : x.synced.AllBagged) :
    z.server = x.server ∧ ∃ k es, x.activity.store.audience.Raises es z.activity.store.audience ∧
      Pruned k x.synced z.synced es ∧ ∀ u, k.ShowsGone u → u.IsBagged → x.server.Lacks u := by
  have hstretch : ∀ {id k b}, Activity.Step x.activity (.go id .refresh k) b →
      k.Fetches ∧ ((∀ t ∈ k.given, t.IsBagged) →
        ∃ es, x.activity.store.audience.Raises es b.store.audience ∧
          Pruned k x.synced b.store.synced es) := by
    intro id k b h
    obtain ⟨s₀, s, halt, ⟨hprunes, -⟩, ⟨resolver, rfl, -⟩, ⟨resolver', hafter, -⟩, -⟩ :=
      h.keeps hheeds (Call.keeps_pruning .refresh)
    rw [hafter]
    exact ⟨hprunes.1, fun hgiven => hprunes.2 hgiven hall⟩
  cases h with
  | @answered b id r since h =>
    obtain ⟨hfetches, hpruned⟩ := hstretch h
    have hserver : (x.server.answer r).2 = x.server := Server.answer_snd_of_fetches hfetches
    have hgiven : ∀ t ∈ (Cause.answered since r (x.server.answer r).1).given, t.IsBagged := by
      intro t ht
      have hbacks := hx.server.backs_of_given since r ht
      rw [hserver] at hbacks
      exact hbacks.isBagged hnamed
    obtain ⟨es, hraises, hes⟩ := hpruned hgiven
    exact ⟨hserver, _, es, hraises, hes,
      fun u hu hbagged => hx.server.lacks_of_showsGone hget hu hbagged⟩
  | @proceeds b id k h hk =>
    have hidle : k.given = [] ∧ ∀ u, ¬ k.ShowsGone u := by
      cases k with
      | answered since r answer => exact absurd rfl (hk since r answer)
      | called => exact ⟨rfl, fun _ => False.elim⟩
      | resolved result => exact ⟨rfl, fun _ => False.elim⟩
    obtain ⟨es, hraises, hes⟩ := (hstretch h).2 fun t ht => absurd (hidle.1 ▸ ht) List.not_mem_nil
    exact ⟨rfl, k, es, hraises, hes, fun u hu => absurd hu (hidle.2 u)⟩

/-- Where no bag on the server has ever had the empty name, all that the synced tier holds is in
named bags. -/
theorem Run.allBagged (h : Run x xs y) (hx : x.Sound) (hempty : x.synced.tiddlers = [])
    (hnamed : ∀ w ∈ xs, w.server.bags.get? "" = none) : y.synced.AllBagged := by
  refine (h.sound hx).synced.allBagged fun t ht => ?_
  obtain ⟨w, hw, hbacks⟩ := h.exists_backs hx
    (fun t ht => absurd (hempty ▸ ht) List.not_mem_nil) t ht
  exact hbacks.isBagged (hnamed w hw)

theorem Run.mem (h : Run x xs y) : y ∈ xs := by
  cases h with
  | refl => exact List.mem_singleton_self _
  | step _ _ => exact List.mem_append_right _ (List.mem_singleton_self _)

/-- A refresh is under way that has asked for the listing of its one source, a bag, and does what it
does with the answer of whatever server there is then. -/
theorem exists_refreshing (y : Exchange) {d : Defaults} {c : Container}
    (hd : y.activity.store.resolver = .resolved d) (hc : c.isRecipe = false)
    (hsources : (y.activity.store.moveTo d.pullFrom).sources.values = [.container c]) :
    ∃ a, Goes .refresh y { y with activity := a } ∧
      a.store = y.activity.store.moveTo d.pullFrom ∧
      ∀ (server : Server) listed, (server.answer (.list c)).1 = .ok listed →
        ∃ z, Goes .refresh ⟨a, server⟩ z ∧ z.server = server ∧
          z.activity.store = ((a.store.fileListing listed).2.gone c listed).foldl Store.dropGone
            (a.store.fileListing listed).2 := by
  obtain ⟨next, hasks, hdrops⟩ := proceed_refresh hd hc hsources
  have hcall : (y.activity.call .refresh).store = y.activity.store.moveTo d.pullFrom ∧
      (y.activity.call .refresh).tasks y.activity.fresh =
        some ⟨.refresh, .asking (.list c) (y.activity.store.moveTo d.pullFrom) next⟩ := by
    unfold Activity.call Activity.goOn
    rw [hasks]
    exact ⟨rfl, Function.update_self _ _ _⟩
  refine ⟨y.activity.call .refresh,
    .proceeds (Activity.step_call y.activity .refresh) fun _ _ _ => nofun, hcall.1, ?_⟩
  intro server listed hlisted
  refine ⟨_, .answered (Activity.Step.answer hcall.2 (server.answer (.list c)).1),
    Server.answer_snd_of_fetches (r := .list c) trivial, ?_⟩
  obtain ⟨outcome, hended⟩ := hdrops listed (y.activity.call .refresh).store
  show (Activity.goOn _ _ _ (next (server.answer (.list c)).1)).store = _
  unfold Activity.goOn
  rw [hlisted, hended]

/-- A run goes on when the one source of the store, a bag, is refreshed and the server answers at
once. -/
theorem Run.exists_refreshed (h : Run x xs y) {d : Defaults} {c : Container}
    (hd : y.activity.store.resolver = .resolved d) (hc : c.isRecipe = false)
    (hsources : (y.activity.store.moveTo d.pullFrom).sources.values = [.container c])
    {listed : List Tiddler} (hlisted : (y.server.answer (.list c)).1 = .ok listed) :
    ∃ ys z, Run x (xs ++ ys) z ∧ (∀ w ∈ ys, w.server = y.server) ∧ z.server = y.server ∧
      z.activity.store =
        (((y.activity.store.moveTo d.pullFrom).fileListing listed).2.gone c listed).foldl
          Store.dropGone ((y.activity.store.moveTo d.pullFrom).fileListing listed).2 := by
  obtain ⟨a, hasks, hstore, hgoes⟩ := exists_refreshing y hd hc hsources
  obtain ⟨z, hanswered, hserver, hfiled⟩ := hgoes y.server listed hlisted
  obtain ⟨_, hstep⟩ := hasks.step
  obtain ⟨_, hstep'⟩ := hanswered.step
  have hall := (h.step hstep).step hstep'
  rw [List.append_assoc] at hall
  exact ⟨_, z, hall, by simp [hserver], hserver, hstore ▸ hfiled⟩

/-- Whatever else goes on, each confirmed copy that a step of a refresh drops is of a title that the
server does not have in its bag at that time, and among the events that the step raises just one
tells that it has gone. Of nothing else it is told that it has gone. -/
theorem refresh_drops_only_gone {config : Config} {clock : Instant} {defaults : Option Defaults}
    {cache : Cache} {xs : List Exchange} {x z : Exchange}
    (hx : Run (start config clock defaults cache) xs x)
    (hnamed : ∀ w ∈ xs, w.server.bags.get? "" = none) (hget : Operation.get ∉ x.server.failing)
    (hz : Goes .refresh x z) :
    z.server = x.server ∧
    ∃ es, x.activity.store.audience.Raises es z.activity.store.audience ∧
      (∀ t ∈ x.synced.tiddlers, z.synced.entries.get? t.key = none →
        x.server.Lacks t ∧ es.countP (·.tellsGone t.place) = 1) ∧
      ∀ e ∈ es, e.change.isDeleted →
        ∃ t ∈ x.synced.tiddlers, z.synced.entries.get? t.key = none ∧ e.tellsGone t.place := by
  have hstart := sound_start config clock defaults cache
  have hsound := hx.sound hstart
  have hall := hx.allBagged hstart rfl hnamed
  have hheeds : x.activity.Heeds Call.Pruning :=
    hx.heeds (fun h => absurd h.symm (Option.some_ne_none _)) Call.keeps_pruning
  obtain ⟨hserver, k, es, hraises, hpruned, hlacks⟩ :=
    hz.pruned hsound hheeds (hnamed x hx.mem) hget hall
  refine ⟨hserver, es, hraises, ?_, ?_⟩
  · intro t ht hnone
    have hthere : (x.synced.entries.get? t.key).isSome := hsound.synced.mem_tiddlers_iff.1 ht ▸ rfl
    have hbagged := hall.isBagged hthere
    obtain ⟨⟨u, hgone, hkey⟩, honce⟩ := hpruned.of_lost hbagged hthere hnone
    exact ⟨(hlacks u hgone (hbagged.of_key_eq hkey)).of_key_eq hbagged hkey, honce⟩
  · intro e he hdeleted
    obtain ⟨t, hbagged, htells, hthere, hnone⟩ := hpruned.of_deleted he hdeleted
    obtain ⟨u, hu⟩ := Option.isSome_iff_exists.1 hthere
    have hkey := hsound.synced.keyed hu
    have hplace : t.place = u.place := hbagged.key_eq_iff_place.1 hkey.symm
    exact ⟨u, Keyed.mem_values_iff.2 ⟨_, hu⟩, hkey ▸ hnone, hplace ▸ htells⟩

/-- A bag is refreshed twice, and in between its only tiddler has gone, of which a follower hears
just once. -/
theorem copy_dropped_once :
    ∃ xs x z t, Run (start {} ⟨0, 0⟩ (some (.single (.bag "notes"))) .none) xs x ∧
      Goes .refresh x z ∧ x.synced.tiddlers = [t] ∧ z.synced.tiddlers = [] ∧ x.server.Lacks t ∧
      (∃ es, x.activity.store.audience.Raises es z.activity.store.audience ∧
        es.countP (·.tellsGone t.place) = 1) ∧
      z.activity.store.heardBy "feed" = x.activity.store.heardBy "feed" ++ [.deleted t] := by
  let place := Container.bag "notes"
  let draft := Tiddler.draft "notes" "one"
  let x₀ := start {} ⟨0, 0⟩ (some (.single place)) .none
  let server := ({} : Server).seed draft
  let copy : Tiddler := { draft with revision := some 1 }
  let held : Tiddler := { copy with lastSync := some ⟨0, 0⟩ }
  obtain ⟨s, hs⟩ : ∃ s, s = x₀.activity.store.followedBy "feed" := ⟨_, rfl⟩
  have hfollower : s.audience.HasFollower "feed" :=
    hs ▸ (Store.followedBy_of_empty rfl "feed").1
  obtain ⟨ws, hfollowed, hws⟩ :=
    (Run.refl.step (x := x₀) (.incident (.seed draft))).exists_followed "feed"
  rw [← hs] at hfollowed
  -- The first refresh files the copy and drops nothing.
  have hlisted : (server.answer (.list place)).1 = .ok [copy] := by decide +kernel
  obtain ⟨ys, y, hy, hys, hserver, hfiled⟩ := hfollowed.exists_refreshed (c := place)
    (by rw [hs]; rfl) rfl (by rw [hs]; decide +kernel) hlisted
  have hnone : ((s.moveTo place).fileListing [copy]).2.gone place [copy] = [] := by
    rw [hs]
    decide +kernel
  have hstore : y.activity.store = ((s.moveTo place).fileListing [copy]).2 :=
    hfiled.trans (congrArg (List.foldl Store.dropGone _) hnone)
  -- The second one has asked for the listing when the tiddler goes.
  obtain ⟨b, hasks, hmoved, hgoes⟩ := exists_refreshing (c := place) y
    (by rw [hstore, hs]; rfl) rfl (by rw [hstore, hs]; decide +kernel)
  rw [hstore] at hmoved
  obtain ⟨z, hz, -, hdropped⟩ := hgoes (server.drop "notes" "T") [] (by decide +kernel)
  obtain ⟨_, hstep⟩ := hasks.step
  have hx := (hy.step hstep).step (.incident (.drop "notes" "T"))
  have hincident : Server.Incident.on (.drop "notes" "T") y.server = server.drop "notes" "T" :=
    congrArg (·.drop "notes" "T") hserver
  rw [hincident] at hx
  have hempty : ({} : Server).bags.get? "" = none ∧ server.bags.get? "" = none ∧
      (server.drop "notes" "T").bags.get? "" = none := by decide +kernel
  obtain ⟨hempty, hempty', hempty''⟩ := hempty
  obtain ⟨-, es, hraises, hgone, -⟩ := refresh_drops_only_gone hx (fun w hw => by
    simp only [List.mem_append, List.mem_singleton] at hw
    rcases hw with (((((h | h) | h) | h) | h) | h)
    · exact h ▸ hempty
    · exact h ▸ hempty'
    · exact hws w h ▸ hempty'
    · exact hys w h ▸ hempty'
    · rw [h, hserver]
      exact hempty'
    · exact h ▸ hempty'')
    (show Operation.get ∉ (server.drop "notes" "T").failing from List.not_mem_nil) hz
  have hheld : b.store.synced.tiddlers = [held] := by
    rw [hmoved, hs]
    decide +kernel
  have hleft : z.synced.entries = .empty := by
    unfold synced
    rw [hdropped, hmoved, hs]
    decide +kernel
  obtain ⟨hlacks, honce⟩ := hgone held (hheld ▸ List.mem_singleton_self _) (by rw [hleft]; rfl)
  refine ⟨_, _, z, held, hx, hz, hheld, by rw [Tier.tiddlers, hleft]; rfl, hlacks,
    ⟨es, hraises, honce⟩, ?_⟩
  have hfollowing : b.store.audience.HasFollower "feed" := by
    have harrived := Store.hasFollower_moveTo hfollower place
    rw [hmoved]
    exact Store.hasFollower_moveTo (harrived.raises (Store.raises_fileSynced _ copy)).1 _
  have hmissing : b.store.gone place [] = [held] := by
    rw [hmoved, hs]
    decide +kernel
  have hlast : z.activity.store = b.store.dropGone held :=
    hdropped.trans (congrArg (List.foldl Store.dropGone b.store) hmissing)
  have hloss : b.store.lossOf held = [.deleted held] := by
    rw [hmoved, hs]
    exact if_pos (by decide +kernel)
  have hheard := (hfollowing.raises (Store.raises_dropGone b.store held)).2
  rw [hlast]
  rwa [hloss] at hheard

end Exchange

end TiddlerShelf
