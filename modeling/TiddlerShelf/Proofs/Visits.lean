import TiddlerShelf.Proofs.Arrival
import TiddlerShelf.Proofs.Hearing

/-! # Announcing the place once

Each time somebody is given the defaults, the store arrives at their container. What it raises then
is kept apart here from what it raises of tiddlers and of bags that come into view with them
(`Announces`), and what is raised is what listeners hear. In every run of a store only the first
arrival is announced, by one event that tells of the container, and the store reads from there for
good (`place_found_once`). -/

namespace TiddlerShelf

open Program

/-- An arrival: somebody is given the defaults, the store reads from their container, and some
events are raised. -/
structure Arrival where
  place : Container
  raised : List Event

/-- Whether an event has nothing to do with an arrival when a store changes: it tells of a tiddler,
or of a bag that has just come into view among the confirmed copies. -/
def Event.IsAside (e : Event) (s s' : Store) : Prop :=
  e.kind = .tiddler ∨
    ∃ bag, e = .bagSeen bag ∧ s.synced.hasSeen bag = false ∧ s'.synced.hasSeen bag = true

namespace Store

/-- Whether a store comes from another by a change that has nothing to do with an arrival. -/
structure Aside (s s' : Store) : Prop where
  location : s'.location = s.location
  raises : ∃ raised, s.audience.Raises raised s'.audience ∧ ∀ e ∈ raised, e.IsAside s s'

/-- How a store gets on with some arrivals, and with other changes in between. -/
inductive Announces (s : Store) : List Arrival → Store → Prop
  | refl : Announces s [] s
  | arrive {log : List Arrival} {m m' : Store} {place : Container} {raised : List Event}
    (h : Announces s log m) (hlocation : m'.location = some place)
    (hraises : m.audience.Raises raised m'.audience) : Announces s (log ++ [⟨place, raised⟩]) m'
  | aside {log : List Arrival} {m m' : Store} (h : Announces s log m) (haside : m.Aside m') :
    Announces s log m'

/-- Whether a store that has read from one place, or from nowhere, comes to read from another with
some arrivals, of which only the very first one is announced. -/
inductive Visits : Option Container → List Arrival → Option Container → Prop
  | never : Visits none [] none
  | first (place : Container) (later : Nat) :
    Visits none (⟨place, [.moved place]⟩ :: List.replicate later ⟨place, []⟩) (some place)
  | again (place : Container) (later : Nat) :
    Visits (some place) (List.replicate later ⟨place, []⟩) (some place)

variable {s s' m n : Store} {log log' : List Arrival}

theorem Announces.trans (h : Announces s log m) (h' : Announces m log' n) :
    Announces s (log ++ log') n := by
  induction h' with
  | refl => rwa [List.append_nil]
  | arrive _ hlocation hraises ih => exact List.append_assoc .. ▸ ih.arrive hlocation hraises
  | aside _ haside ih => exact ih.aside haside

theorem Visits.refl (place : Option Container) : Visits place [] place := by
  cases place with
  | none => exact .never
  | some place => exact .again place 0

theorem Visits.trans {x y z : Option Container} (h : Visits x log y) (h' : Visits y log' z) :
    Visits x (log ++ log') z := by
  cases h with
  | never => exact h'
  | first place later =>
    cases h' with
    | again _ later' =>
      rw [List.cons_append, List.replicate_append_replicate]
      exact .first place _
  | again place later =>
    cases h' with
    | again _ later' =>
      rw [List.replicate_append_replicate]
      exact .again place _

/-- Once a store reads from a container, it does so for good. -/
theorem Visits.stays {place : Container} {y : Option Container} (h : Visits (some place) log y) :
    y = some place := by
  cases h
  rfl

/-! ## Other changes -/

theorem aside_of_same (hlocation : s'.location = s.location)
    (haudience : s'.audience = s.audience) : s.Aside s' :=
  ⟨hlocation, [], haudience ▸ .nil, fun _ he => absurd he List.not_mem_nil⟩

/-- It makes no difference to that if something else has been changed before. -/
theorem Aside.after (h : m.Aside s') (hlocation : m.location = s.location)
    (haudience : m.audience = s.audience) (hbags : m.synced.bags = s.synced.bags) :
    s.Aside s' := by
  obtain ⟨raised, hraises, hraised⟩ := h.raises
  refine ⟨h.location.trans hlocation, raised, haudience ▸ hraises, fun e he => ?_⟩
  have hsame (bag : Container) : m.synced.hasSeen bag = s.synced.hasSeen bag := by
    rw [Tier.hasSeen, hbags, Tier.hasSeen]
  refine (hraised e he).imp_right fun ⟨bag, hbag, hnew, hseen⟩ => ⟨bag, hbag, ?_, hseen⟩
  rwa [← hsame]

/-- Telling of tiddlers is no arrival. -/
theorem aside_announce (s : Store) {events : List Event}
    (hevents : ∀ e ∈ events, e.kind = .tiddler) : s.Aside (s.announce events) :=
  ⟨rfl, events, raises_announce s events, fun e he => .inl (hevents e he)⟩

theorem aside_fileSynced (s : Store) (t : Tiddler) : s.Aside (s.fileSynced t).2 := by
  have hraises : s.audience.Raises (s.synced.reconcile s.clock t).events
      (s.fileSynced t).2.audience := raises_announce _ _
  refine ⟨rfl, _, hraises, fun e he => ?_⟩
  rcases s.synced.mem_events_reconcile he with ⟨bag, hbag, rfl⟩ | rfl
  · obtain ⟨hbag, -, hnew⟩ := Tier.of_newBag? hbag
    refine .inr ⟨bag, rfl, hnew, ?_⟩
    refine Tier.hasSeen_file_self _ (t := s.synced.stamped s.clock t) ?_
    unfold Tier.stamped
    split <;> exact hbag
  · exact .inl rfl

theorem aside_fileModified (h : s.Sound) (t : Tiddler) : s.Aside (s.fileModified t).2 := by
  have hraises : s.audience.Raises (s.modified.reconcile s.clock t).events
      (s.fileModified t).2.audience :=
    raises_announce { s with modified := (s.modified.reconcile s.clock t).tier } _
  refine ⟨rfl, _, hraises, fun e he => .inl ?_⟩
  rcases s.modified.mem_events_reconcile he with ⟨bag, hbag, rfl⟩ | rfl
  · have hkind := (Tier.of_newBag? hbag).2.1
    rw [h.kind_modified] at hkind
    contradiction
  · rfl

theorem aside_announce_deleted (s : Store) (t : Tiddler) : s.Aside (s.announce [.deleted t]) :=
  s.aside_announce fun _ he => List.mem_singleton.1 he ▸ rfl

theorem aside_dropGone (s : Store) (t : Tiddler) : s.Aside (s.dropGone t) := by
  unfold dropGone
  split
  · exact ((s.dropSynced t).aside_announce_deleted t).after rfl rfl rfl
  · exact aside_of_same rfl rfl

theorem aside_forget (s : Store) (t : Tiddler) : s.Aside (s.forget t) := by
  rw [forget_eq]
  refine (Store.aside_announce_deleted _ t).after ?_ ?_ ?_ <;> cases s.modifiedCopy? t <;> rfl

theorem aside_afterPut (h : s.Sound) (since : Store) (t : Tiddler)
    (answer : Except RemoteError Tiddler) : s.Aside (s.afterPut since t answer) := by
  cases answer with
  | ok response =>
    show s.Aside (s.acknowledge _ t response).2
    unfold acknowledge
    dsimp only
    split
    · rename_i current _
      split
      · exact ((s.dropModified current).aside_fileSynced response).after rfl rfl rfl
      · exact s.aside_fileSynced response
    · exact s.aside_fileSynced response
  | error cause =>
    show s.Aside (s.takeBack _ t)
    unfold takeBack
    split
    · exact aside_fileModified h t
    · exact aside_of_same rfl rfl

/-! ## Arrivals -/

/-- A store that is given the defaults that it knows arrives at their container, and announces that
only if it has read from nowhere. -/
theorem Placed.visits_moveTo (h : s.Placed) {d : Defaults} (hd : s.resolver = .resolved d) :
    ∃ raised, s.audience.Raises raised (s.moveTo d.pullFrom).audience ∧
      Visits s.location [⟨d.pullFrom, raised⟩] (some d.pullFrom) := by
  unfold Store.moveTo
  rcases h with h | ⟨d', hd', h⟩
  · rw [if_neg (by simp [h.location]), h.location]
    exact ⟨_, raises_announce _ _, .first d.pullFrom 0⟩
  · obtain rfl : d = d' := Resolver.resolved.inj (hd.symm.trans hd')
    have hthere : s.location.any d.pullFrom.sameAs = true := by
      rw [h.location]
      exact beq_self_eq_true d.pullFrom.name
    rw [if_pos hthere, h.location]
    exact ⟨[], .nil, .again d.pullFrom 1⟩

/-- Soundness is kept up by all that a store does. -/
theorem kept_sound : Kept (fun _ => True) Sound where
  sound h := h
  quiet h h' := h'.sound h
  withEdit h _ := h.withEdit _
  dropping h edit := h.dropping edit

end Store

namespace Call

/-- Whether a call begins by asking for the defaults. -/
def asksForDefaults : Call → Bool
  | getDefaults | refresh | search _ => true
  | _ => false

end Call

namespace Program

/-- The defaults that somebody is given in a stretch of a call, as far as one can tell from outside:
the stretch begins with them, or it is the first of its call, which begins by asking for the
defaults, and the store knows them. -/
def Cause.gives? (k : Cause) (c : Call) (s : Store) : Option Defaults :=
  match k with
  | .called => if c.asksForDefaults then s.defaults? else none
  | .resolved (.ok d) => some d
  | _ => none

/-- Whether a stretch begins in a store in order: the store is sound, it reads from nowhere or from
the container of its defaults, and if the stretch begins with defaults, the store knows them. -/
structure Cause.Opens (k : Cause) (s : Store) : Prop where
  sound : s.Sound
  placed : s.Placed
  known : ∀ d, k = .resolved (.ok d) → s.resolver = .resolved d

/-- What a stretch announces: it gets on with arrivals of which only the very first of all is
announced, and if somebody has been given defaults, the store has arrived at their container. -/
structure Logs (given : Option Defaults) (k : Cause) (s₀ s : Store) : Prop
    extends Arrives k s₀ s where
  sound : s₀.Sound → s.Sound
  log : k.Opens s₀ → ∃ log, s₀.Announces log s ∧ Store.Visits s₀.location log s.location ∧
    ∀ d ∈ given, d.pullFrom ∈ log.map (·.place)

section

variable {given given' : Option Defaults} {k : Cause} {s₀ s s' : Store} {d : Defaults}

theorem Logs.refl (k : Cause) (s : Store) : Logs none k s s :=
  ⟨.refl k s, id, fun _ => ⟨[], .refl, .refl _, fun _ hd => nomatch hd⟩⟩

theorem Logs.stays (h : Logs given k s₀ s) (h' : s.Stays s') (hsound : s.Sound → s'.Sound)
    (haside : s.Sound → s.Aside s') : Logs given k s₀ s' := by
  refine ⟨h.toArrives.stays h', hsound ∘ h.sound, fun hk => ?_⟩
  obtain ⟨log, hannounces, hvisits, hgiven⟩ := h.log hk
  exact ⟨log, hannounces.aside (haside (h.sound hk.sound)), h'.location ▸ hvisits, hgiven⟩

/-- Somebody is given the defaults. -/
theorem Logs.moveTo (h : Logs given k s₀ s) (hd : k.Knows s d)
    (hgiven : ∀ d' ∈ given', d' = d ∨ d' ∈ given) :
    Logs given' k s₀ (s.moveTo d.pullFrom) := by
  refine ⟨h.toArrives.moveTo hd, (Store.quiet_moveTo s _).sound ∘ h.sound, fun hk => ?_⟩
  obtain ⟨log, hannounces, hvisits, hbefore⟩ := h.log hk
  have hplaced := h.placed hk.placed hk.known
  have hknown := h.known hd hk.known
  have hlocation := (hplaced.at_moveTo hknown).location
  obtain ⟨raised, hraises, hvisit⟩ := hplaced.visits_moveTo hknown
  refine ⟨_, hannounces.arrive hlocation hraises, hlocation ▸ hvisits.trans hvisit, ?_⟩
  intro d' hd'
  rw [List.map_append, List.mem_append]
  rcases hgiven d' hd' with rfl | hd'
  · exact .inr List.mem_cons_self
  · exact .inl (hbefore d' hd')

theorem Logs.register (h : Logs given k s₀ (s.moveTo d.pullFrom)) (hd : k.Knows s d)
    (query : String) :
    Logs given k s₀ ((s.moveTo d.pullFrom).register (.search query d.pullFrom.host)) := by
  refine ⟨h.toArrives.register hd query, fun hs => (h.sound hs).of_tiers rfl rfl, fun hk => ?_⟩
  obtain ⟨log, hannounces, hvisits, hgiven⟩ := h.log hk
  exact ⟨log, hannounces.aside (Store.aside_of_same rfl rfl), hvisits, hgiven⟩

end

theorem upkeep_logs (c : Call) :
    Upkeep (fun k s₀ s => Logs (k.gives? c s₀) k s₀ s) fun _ => True where
  failed _ s := .refl _ s
  found _ s := (Logs.refl _ s).moveTo (.inr rfl) fun _ hd => .inl (Option.some.inj hd).symm
  moveTo h hd := h.moveTo hd fun _ => .inr
  fetch _ := trivial
  fetched _ _ _ s := .refl _ s
  register h hd query := h.register hd query
  fileSynced h _ := h.stays (Store.stays_fileSynced _ _) (Store.quiet_fileSynced _ _).sound
    fun _ => Store.aside_fileSynced _ _
  dropGone h _ := h.stays (Store.stays_dropGone _ _) (Store.quiet_dropGone _ _).sound
    fun _ => Store.aside_dropGone _ _
  put _ := trivial
  afterPut since t answer s := (Logs.refl _ s).stays (Store.stays_afterPut s since t answer)
    (fun hs => Store.kept_sound.afterPut hs since trivial answer)
    fun hs => Store.aside_afterPut hs since t answer
  delete _ := trivial
  deleted _ _ _ s := .refl _ s
  fileModified h t := h.stays (Store.stays_fileModified _ t) (fun hs => hs.fileModified t)
    fun hs => Store.aside_fileModified hs t
  forget h t := h.stays (Store.stays_forget _ t) (fun hs => Store.kept_sound.forget hs t)
    fun _ => Store.aside_forget _ t

/-- The contract of calls on what they announce. -/
def logging (c : Call) : Contract :=
  within (fun k s₀ s => Logs (k.gives? c s₀) k s₀ s) fun _ => True

end Program

/-- The first stretch of a call keeps to the contract, whether the defaults are known or not. -/
theorem Call.keeps_logging (c : Call) (s : Store) : c.program.Keeps (logging c) .called s s := by
  have hup := upkeep_logs c
  cases hasks : c.asksForDefaults with
  | false =>
    have hnone : Cause.called.gives? c s = none := by
      rw [Cause.gives?, hasks]
      rfl
    exact (c.within_program hup).keeps (hnone ▸ .refl .called s)
  | true =>
    have hgives : Cause.called.gives? c s = s.defaults? := by
      rw [Cause.gives?, hasks]
      rfl
    have hknown : ∀ d, s.resolver = .resolved d →
        Logs (Cause.called.gives? c s) .called s (s.moveTo d.pullFrom) := by
      intro d hd
      have hself : s.defaults? = some d := by
        rw [Store.defaults?, hd]
        rfl
      refine (Logs.refl .called s).moveTo (.inl hd) fun d' hd' => .inl ?_
      rw [hgives, hself] at hd'
      exact (Option.some.inj hd').symm
    have hunknown : (∀ d, s.resolver ≠ .resolved d) →
        Logs (Cause.called.gives? c s) .called s s := by
      intro hne
      have hnone : s.defaults? = none := by
        unfold Store.defaults?
        cases hd : s.resolver with
        | resolved d => exact absurd hd (hne d)
        | _ => rfl
      rw [hgives, hnone]
      exact .refl .called s
    cases c with
    | getDefaults =>
      have hmeets := hup.toPlacing.meets_getDefaults (R := fun _ => True)
        (f := fun found => pure (Call.Outcome.defaults found)) hknown hunknown
        (fun _ _ _ _ h _ => h) fun _ => .pure _
      exact hmeets.mono fun _ _ _ _ => within_over
    | refresh =>
      exact keeps_map.2 ((hup.toGetting.meets_refresh hknown hunknown).mono fun _ _ _ _ =>
        within_over)
    | search query =>
      exact keeps_map.2 ((hup.toReading.meets_search query hknown hunknown).mono fun _ _ _ _ =>
        within_over)
    | _ => contradiction

namespace Activity

variable {a b : Activity} {m : Move}

/-- Whether a log has the arrivals of a step. In a stretch of a task it has all that is announced of
places, and it has an arrival if somebody has been given the defaults. Nothing else that happens is
an arrival. -/
def Transition.Logs (tr : Transition) (log : List Arrival) : Prop :=
  match tr.move with
  | .go _ c k => tr.before.store.Announces log tr.after.store ∧
      ∀ d, k.gives? c tr.before.store = some d → d.pullFrom ∈ log.map (·.place)
  | _ => log = [] ∧ tr.after.store.location = tr.before.store.location

/-- What a stretch of a task announces, also when the defaults are found out with it. -/
theorem logs_goOn (id : TaskId) {c : Call} {p : Program Call.Outcome} {k : Cause}
    (hp : p.Keeps (logging c) k a.store a.store) (hk : k.Opens a.store) :
    ∃ log, a.store.Announces log (a.goOn id c p).store ∧
      Store.Visits a.store.location log (a.goOn id c p).store.location ∧
      ∀ d, k.gives? c a.store = some d → d.pullFrom ∈ log.map (·.place) := by
  obtain ⟨resolver, hstore⟩ := store_goOn a id c p
  obtain ⟨log, hannounces, hvisits, hgiven⟩ := hp.proceed.1.1.log hk
  rw [hstore]
  exact ⟨log, hannounces.aside (Store.aside_of_same rfl rfl), hvisits, hgiven⟩

/-- Each step has a log of its arrivals, of which only the very first one of all is announced. -/
theorem Step.logs (hstep : Step a m b) (hsound : a.Sound) (h : a.Placed fun _ => True)
    (ha : a.Heeds logging) : ∃ log, Transition.Logs ⟨a, m, b⟩ log ∧
      Store.Visits a.store.location log b.store.location := by
  have hopens {k : Cause} (hk : ∀ d, k = .resolved (.ok d) → a.store.resolver = .resolved d) :
      k.Opens a.store := ⟨hsound.store, h.store, hk⟩
  cases hstep with
  | @call id c hid =>
    obtain ⟨log, hannounces, hvisits, hgiven⟩ := logs_goOn (a := { a with fresh := id + 1 }) id
      (c.keeps_logging a.store) (hopens nofun)
    exact ⟨log, ⟨hannounces, hgiven⟩, hvisits⟩
  | answer ht answer =>
    obtain ⟨log, hannounces, hvisits, hgiven⟩ := logs_goOn _ (ha ht answer a.store) (hopens nofun)
    exact ⟨log, ⟨hannounces, hgiven⟩, hvisits⟩
  | @learn id c next ht _ result hresult =>
    have hinformed : (Cause.resolved result).Opens (a.inform result).store := by
      refine ⟨hsound.store.withResolver _, (h.inform ⟨c, next, ht⟩ result).store, fun d hd => ?_⟩
      cases hd
      rfl
    obtain ⟨log, hannounces, hvisits, hgiven⟩ := logs_goOn id (ha ht result _) hinformed
    have hsame : (Cause.resolved result).gives? c (a.inform result).store =
        (Cause.resolved result).gives? c a.store := by cases result <;> rfl
    have hbefore : a.store.Announces [] (a.inform result).store :=
      .aside .refl (Store.aside_of_same rfl rfl)
    exact ⟨log, ⟨hbefore.trans hannounces, hsame ▸ hgiven⟩, hvisits⟩
  | @informed id c result next ht =>
    obtain ⟨log, hannounces, hvisits, hgiven⟩ := logs_goOn id (ha ht a.store)
      (hopens fun d hd => by cases hd; exact h.told trivial ⟨c, next, ht⟩)
    exact ⟨log, ⟨hannounces, hgiven⟩, hvisits⟩
  | @retry id c d next ht hd =>
    obtain ⟨log, hannounces, hvisits, hgiven⟩ := logs_goOn id (ha ht (.ok d) a.store)
      (hopens fun d' hd' => by cases hd'; exact hd)
    exact ⟨log, ⟨hannounces, hgiven⟩, hvisits⟩
  | again ht hqueue hne =>
    obtain ⟨resolver, t, heq, -⟩ := goOn_resolve _ _ _ hne
    rw [heq]
    exact ⟨[], ⟨rfl, rfl⟩, .refl _⟩
  | drop ht => exact ⟨[], ⟨rfl, rfl⟩, .refl _⟩
  | deed d =>
    have hlocation := (d.stays_on a.store).location
    refine ⟨[], ⟨rfl, hlocation⟩, ?_⟩
    show Store.Visits _ _ (d.on a.store).location
    rw [hlocation]
    exact .refl _

theorem Run.logs {h : List Transition} (hrun : Run a h b) (hsound : a.Sound)
    (hplaced : a.Placed fun _ => True) (harriving : a.Heeds fun _ => arriving)
    (hlogging : a.Heeds logging) : ∃ logs, List.Forall₂ Transition.Logs h logs ∧
      Store.Visits a.store.location logs.flatten b.store.location := by
  induction hrun with
  | nil => exact ⟨[], .nil, .refl _⟩
  | cons hstep _ ih =>
    obtain ⟨log, hlog, hvisits⟩ := hstep.logs hsound hplaced hlogging
    obtain ⟨logs, hlogs, hrest⟩ := ih (hstep.sound hsound) (hstep.placed hplaced harriving)
      (hstep.heeds harriving fun _ c _ => c.keeps_arriving)
      (hstep.heeds hlogging fun _ c _ => c.keeps_logging)
    exact ⟨log :: logs, .cons hlog hlogs, hvisits.trans hrest⟩

theorem Reachable.heeds_logging (ha : a.Reachable) : a.Heeds logging := by
  obtain ⟨config, clock, defaults, cache, h, hrun⟩ := ha
  exact (hrun.throughout (I := fun a => a.Heeds logging) (fun hx => nomatch hx)
    fun tr _ hstep htr => hstep.heeds htr fun _ c _ => c.keeps_logging).1

/-- Once a store reads from a container, it does so for good. -/
theorem Run.location {place : Container} {h : List Transition} (hrun : Run a h b)
    (ha : a.Reachable) (hplace : a.store.location = some place) :
    b.store.location = some place := by
  obtain ⟨hplaced, harriving⟩ := ha.placed
  obtain ⟨_, -, hvisits⟩ := hrun.logs ha.sound hplaced harriving ha.heeds_logging
  rw [hplace] at hvisits
  exact hvisits.stays

/-- A run may begin with a listener that follows all events. -/
theorem Run.exists_followed {name : String} {h : List Transition}
    (hrun : Run { a with store := a.store.followedBy name } h b) : ∃ k, Run a (k ++ h) b :=
  ⟨[_, _, _], .cons (.deed (.act (.bind .recipe none name [] 0)))
    (.cons (.deed (.act (.bind .bag none name [] 0)))
      (.cons (.deed (.act (.bind .tiddler none name [] 0))) hrun))⟩

end Activity

end TiddlerShelf
