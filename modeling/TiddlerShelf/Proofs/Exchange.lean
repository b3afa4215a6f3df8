import TiddlerShelf.Proofs.Course
import TiddlerShelf.Proofs.Hearing
import TiddlerShelf.Proofs.Unheard

/-! # A store and its server

An exchange is a store at work with a server in memory. The server answers in the moment in which
the task that asked goes on, however long it has been held back, and all else may happen to both at
any time. The synced tier then holds copies that the server has held, and what it holds of a title
in a bag never has an earlier revision than before. -/

namespace TiddlerShelf

open Program

namespace Server

/-- What may happen to a server besides its client's requests. -/
inductive Incident
  | seed (t : Tiddler)
  | drop (bag title : String)
  | defineRecipe (name : String) (bags : List String)
  | unlist (bag : String)
  | discovery (found : Discovery)
  | fail (op : Operation)
  | recover (op : Operation)
  /-- A request comes in, which may have to wait. -/
  | receive (r : Request)
  /-- Another client's request is answered. -/
  | answer (r : Request)

def Incident.on : Incident → Server → Server
  | seed t, s => s.seed t
  | drop bag title, s => s.drop bag title
  | defineRecipe name bags, s => s.defineRecipe name bags
  | unlist bag, s => s.unlist bag
  | discovery found, s => { s with discovery := found }
  | fail op, s => s.fail op
  | recover op, s => s.recover op
  | receive r, s => s.receive r
  | answer r, s => (s.answer r).2

theorem Incident.evolves (i : Incident) (s : Server) : Evolves s (i.on s) := by
  cases i with
  | seed t => exact evolves_seed s t
  | drop bag title => exact evolves_drop s bag title
  | defineRecipe name bags => exact evolves_defineRecipe s name bags
  | answer r => exact evolves_answer s r
  | _ => exact ⟨Nat.le_refl _, .inl⟩

/-! ## Copies that fit a server -/

/-- Whether a copy is of a bag, and the server holds under its bag and title nothing older than it,
and nothing else of its revision. -/
structure Fits (s : Server) (t : Tiddler) : Prop where
  bag : t.bag.isSome
  revision : ∃ r, t.revision = some r ∧ r < s.nextRevision
  current : ∀ {bag v}, t.bagName = some bag → s.stored? bag t.title = some v →
    ∃ r r', t.revision = some r ∧ v.revision = some r' ∧ r ≤ r' ∧ (r = r' → v.AgreesWith t)

variable {s s' : Server} {t : Tiddler}

theorem Sound.fits_of_backs (h : s.Sound) (ht : s.Backs t) : s.Fits t := by
  have hsome := ht.bag_isSome
  obtain ⟨bag, v, hbag, hv, hagree⟩ := ht
  obtain ⟨r, hr, hlt⟩ := h.revision hv
  have htr : t.revision = some r := hagree.revision ▸ hr
  refine ⟨hsome, ⟨r, htr, hlt⟩, ?_⟩
  intro bag' v' hbag' hv'
  rw [hbag] at hbag'
  obtain rfl := Option.some.inj hbag'
  rw [hv] at hv'
  obtain rfl := Option.some.inj hv'
  exact ⟨r, r, htr, hr, Nat.le_refl r, fun _ => hagree⟩

theorem Fits.evolves (h : s.Fits t) (h' : Evolves s s') : s'.Fits t := by
  obtain ⟨r, hr, hlt⟩ := h.revision
  refine ⟨h.bag, ⟨r, hr, Nat.lt_of_lt_of_le hlt h'.next⟩, ?_⟩
  intro bag v hbag hv
  rcases h'.copies hv with hold | ⟨-, -, r', hr', hle, -⟩
  · exact h.current hbag hold
  · exact ⟨r, r', hr, hr', by omega, fun heq => by omega⟩

/-- A copy that the server holds now is not older than one that fits, and has its content if it has
its revision. -/
theorem Fits.le_of_backs (h : s.Fits t) {u : Tiddler} (hu : s.Backs u)
    (hbag : t.bagName = u.bagName) (htitle : t.title = u.title) :
    ∃ r r', t.revision = some r ∧ u.revision = some r' ∧ r ≤ r' ∧ (r = r' → t.AgreesWith u) := by
  obtain ⟨bag, v, hbag', hv, hagree⟩ := hu
  obtain ⟨r, r', hr, hr', hle, hsame⟩ := h.current (hbag.trans hbag') (htitle ▸ hv)
  exact ⟨r, r', hr, hagree.revision ▸ hr', hle, fun heq => (hsame heq).symm.trans hagree⟩

end Server

/-- A store at work, and the server it talks to. -/
structure Exchange where
  activity : Activity
  server : Server := {}

namespace Exchange

/-- The copies that the server has confirmed. -/
def synced (x : Exchange) : Tier := x.activity.store.synced

def clock (x : Exchange) : Instant := x.activity.store.clock

/-- The steps of an exchange, with the tiddlers that the server gives in them. -/
inductive Step : Exchange → List Tiddler → Exchange → Prop
  /-- The server answers a task. -/
  | answered {x : Exchange} {b : Activity} {id : TaskId} {c : Call} {r : Request} {since : Store}
    (h : Activity.Step x.activity (.go id c (.answered since r (x.server.answer r).1)) b) :
    Step x (Cause.answered since r (x.server.answer r).1).given ⟨b, (x.server.answer r).2⟩
  /-- Anything else happens to the store or its tasks. -/
  | proceeds {x : Exchange} {b : Activity} {m : Move} (h : Activity.Step x.activity m b)
    (hm : ∀ id c since r answer, m ≠ .go id c (.answered since r answer)) :
    Step x [] { x with activity := b }
  /-- Something happens to the server. -/
  | incident {x : Exchange} (i : Server.Incident) : Step x [] { x with server := i.on x.server }

/-- The runs of exchanges, with all exchanges that they go through. -/
inductive Run (x : Exchange) : List Exchange → Exchange → Prop
  | refl : Run x [x] x
  | step {y z : Exchange} {xs : List Exchange} {ts : List Tiddler} (hrun : Run x xs y)
    (hstep : Step y ts z) : Run x (xs ++ [z]) z

/-- Whether a run leads from one exchange to another. -/
def Leads (x y : Exchange) : Prop := ∃ xs, Run x xs y

theorem Leads.refl (x : Exchange) : Leads x x := ⟨_, .refl⟩

theorem Leads.step {x y z : Exchange} {ts : List Tiddler} (h : Leads x y) (hstep : Step y ts z) :
    Leads x z := by
  obtain ⟨xs, hrun⟩ := h
  exact ⟨_, hrun.step hstep⟩

theorem Leads.trans {x y z : Exchange} (h : Leads x y) (h' : Leads y z) : Leads x z := by
  obtain ⟨ys, hrun⟩ := h'
  induction hrun with
  | refl => exact h
  | step _ hstep ih => exact ih.step hstep

theorem leads_of_step {a b : Activity} {m : Move} (h : Activity.Step a m b)
    (hm : ∀ id c since r answer, m ≠ .go id c (.answered since r answer)) (server : Server) :
    Leads ⟨a, server⟩ ⟨b, server⟩ :=
  (Leads.refl _).step (.proceeds h hm)

/-- What happens to the store in a run of exchanges is a run of the activity. -/
theorem Leads.exists_run {x y : Exchange} (h : Leads x y) :
    ∃ ts, Activity.Run x.activity ts y.activity := by
  obtain ⟨xs, hrun⟩ := h
  induction hrun with
  | refl => exact ⟨[], .nil _⟩
  | step _ hstep ih =>
    obtain ⟨ts, hrun⟩ := ih
    cases hstep with
    | answered h => exact ⟨_, hrun.append (.cons h (.nil _))⟩
    | proceeds h _ => exact ⟨_, hrun.append (.cons h (.nil _))⟩
    | incident _ => exact ⟨ts, hrun⟩

/-- An exchange that begins with a store and a server that hold nothing yet. -/
def start (config : Config) (clock : Instant) (defaults : Option Defaults) (cache : Cache) :
    Exchange where
  activity := .start config clock defaults cache

/-- The rules that an exchange keeps to. -/
structure Sound (x : Exchange) : Prop where
  activity : x.activity.Sound
  receiving : x.activity.Heeds fun _ => receiving
  server : x.server.Sound
  fits : ∀ t ∈ x.synced.tiddlers, x.server.Fits t

theorem sound_start (config : Config) (clock : Instant) (defaults : Option Defaults)
    (cache : Cache) : (start config clock defaults cache).Sound :=
  ⟨Activity.sound_start config clock defaults cache,
    fun h => absurd h.symm (Option.some_ne_none _), Server.sound_empty,
    fun _ ht => absurd ht List.not_mem_nil⟩

section

variable {x y z : Exchange} {ts : List Tiddler} {xs ys : List Exchange}

theorem Sound.synced (h : x.Sound) : x.synced.Sound := h.activity.store.synced

theorem Sound.kind_synced (h : x.Sound) : x.synced.kind = .synced := h.activity.store.kind_synced

theorem Sound.stamped (h : x.Sound) (t : Tiddler) :
    x.synced.stamped x.clock t = { t with lastSync := some x.clock } :=
  Tier.stamped_synced h.kind_synced x.clock t

/-- In every step, what the server gives comes from a copy that it holds then, and the synced tier
gets on by filing some of that. -/
theorem Step.course (h : Step x ts z) (hx : x.Sound) :
    x.synced.Course x.clock ts z.synced ∧ (∀ t ∈ ts, z.server.Backs t) ∧
      Server.Evolves x.server z.server := by
  cases h with
  | answered h =>
    exact ⟨(h.course hx.receiving).2, fun t ht => hx.server.backs_of_given _ _ ht,
      Server.evolves_answer _ _⟩
  | @proceeds b m h hm =>
    refine ⟨?_, fun t ht => absurd ht List.not_mem_nil, .refl _⟩
    have hcourse := (h.course hx.receiving).2
    have hgiven : m.given = [] := by
      cases m with
      | go id c k =>
        cases k with
        | answered since r answer => exact absurd rfl (hm id c since r answer)
        | called => rfl
        | resolved result => rfl
      | _ => rfl
    rw [hgiven] at hcourse
    exact hcourse
  | incident i => exact ⟨.refl, fun t ht => absurd ht List.not_mem_nil, i.evolves _⟩

/-- A tiddler that the synced tier holds after a step was there before, or the server has just given
it. -/
theorem Step.mem_synced (h : Step x ts z) (hx : x.Sound) {m : Tier}
    (hm : x.synced.Course x.clock ts m) {t : Tiddler} (ht : t ∈ m.tiddlers) :
    t ∈ x.synced.tiddlers ∨ z.server.Backs t := by
  rcases hm.mem ht with ht | ⟨u, hu, rfl⟩
  · exact .inl ht
  · rw [hx.stamped]
    exact .inr (((h.course hx).2.1 u hu).agreesWith (u.agreesWith_stamped _))

theorem Step.server_sound (h : Step x ts z) (hx : x.Sound) : z.server.Sound :=
  hx.server.evolves (h.course hx).2.2

/-- All that the synced tier holds in the course of a step fits the server. -/
theorem Step.fits (h : Step x ts z) (hx : x.Sound) {m : Tier}
    (hm : x.synced.Course x.clock ts m) {t : Tiddler} (ht : t ∈ m.tiddlers) :
    z.server.Fits t := by
  rcases h.mem_synced hx hm ht with ht | hbacks
  · exact (hx.fits t ht).evolves (h.course hx).2.2
  · exact (h.server_sound hx).fits_of_backs hbacks

theorem Step.sound (h : Step x ts z) (hx : x.Sound) : z.Sound := by
  have hactivity : z.activity.Sound ∧ z.activity.Heeds fun _ => receiving := by
    cases h with
    | answered h =>
      exact ⟨h.sound hx.activity, h.heeds hx.receiving fun _ c _ => c.keeps_receiving⟩
    | proceeds h _ =>
      exact ⟨h.sound hx.activity, h.heeds hx.receiving fun _ c _ => c.keeps_receiving⟩
    | incident _ => exact ⟨hx.activity, hx.receiving⟩
  exact ⟨hactivity.1, hactivity.2, h.server_sound hx, fun t ht => h.fits hx (h.course hx).1 ht⟩

/-- A copy that is filed without news agrees with the one whose place it takes. -/
theorem Step.agreesWith_of_silent (h : Step x ts z) (hx : x.Sound) {m : Tier}
    (hm : x.synced.Course x.clock ts m) {u old : Tiddler} (hu : u ∈ ts)
    (hold : m.get? u = some old) (hsilent : (m.reconcile x.clock u).notified = false) :
    old.AgreesWith (m.reconcile x.clock u).stored := by
  have hsound : m.Sound := hm.sound hx.synced
  have hkind : m.kind = .synced := hm.kind.trans hx.kind_synced
  have hbacks := (h.course hx).2.1 u hu
  have hbag : u.bag.isSome := hbacks.bag_isSome
  obtain ⟨hentry, htitle, hkey⟩ := hsound.of_get? hold
  have hfits := h.fits hx hm (hsound.mem_tiddlers_iff.2 hentry)
  have hstored : (m.reconcile x.clock u).stored = { u with lastSync := some x.clock } :=
    Tier.stamped_synced hkind x.clock u
  have hrevision : old.revision = u.revision := by
    have hnews : ((m.reconcile x.clock u).stored.bag.isSome &&
        Tier.isNews (m.get? u) (m.reconcile x.clock u).stored) = false := hsilent
    have hsynced : old.isSynced = true := by
      rw [hsound.stamped hentry, hkind]
      rfl
    rw [hold, hstored, hbag, Bool.true_and, Tier.isNews, if_pos hsynced] at hnews
    simpa using hnews
  have hname : old.bagName = u.bagName :=
    Tiddler.bagName_eq_of_key_eq (hkey hbag) hfits.bag hbag
  obtain ⟨r, r', hr, hr', -, hsame⟩ := hfits.le_of_backs hbacks hname htitle
  rw [hr, hr'] at hrevision
  rw [hstored]
  exact (hsame (Option.some.inj hrevision)).trans (u.agreesWith_stamped _)

theorem Run.sound (h : Run x xs y) (hx : x.Sound) : y.Sound := by
  induction h with
  | refl => exact hx
  | step _ hstep ih => exact hstep.sound ih

theorem Run.evolves (h : Run x xs y) (hx : x.Sound) : Server.Evolves x.server y.server := by
  induction h with
  | refl => exact .refl _
  | step hrun hstep ih => exact ih.trans (hstep.course (hrun.sound hx)).2.2

/-- Whatever the synced tier comes to hold in a run agrees with a copy that the server has held, if
it did in the beginning. -/
theorem Run.exists_backs (h : Run x xs y) (hx : x.Sound)
    (hbacked : ∀ t ∈ x.synced.tiddlers, x.server.Backs t) :
    ∀ t ∈ y.synced.tiddlers, ∃ w ∈ xs, w.server.Backs t := by
  induction h with
  | refl => exact fun t ht => ⟨x, List.mem_singleton_self x, hbacked t ht⟩
  | @step y z xs ts hrun hstep ih =>
    intro t ht
    have hy := hrun.sound hx
    rcases hstep.mem_synced hy (hstep.course hy).1 ht with ht | hbacks
    · obtain ⟨w, hw, hbacks⟩ := ih t ht
      exact ⟨w, List.mem_append_left _ hw, hbacks⟩
    · exact ⟨z, List.mem_append_right _ (List.mem_singleton_self z), hbacks⟩

/-- What the synced tier comes to hold of a title in a bag has no earlier revision than a copy that
fitted the server in the beginning. -/
theorem Run.revision_le (h : Run x xs y) (hx : x.Sound) {t : Tiddler} (ht : t ∈ x.synced.tiddlers)
    {t' : Tiddler} (ht' : t' ∈ y.synced.tiddlers) (hbag : t.bagName = t'.bagName)
    (htitle : t.title = t'.title) :
    ∃ r r', t.revision = some r ∧ t'.revision = some r' ∧ r ≤ r' := by
  induction h generalizing t' with
  | refl =>
    obtain ⟨r, hr, -⟩ := (hx.fits t ht).revision
    have hkey : t'.key = t.key := Tiddler.key_eq_iff.2 ⟨by rw [hbag], htitle.symm⟩
    have hentry := hx.synced.mem_tiddlers_iff.1 ht'
    rw [hkey, hx.synced.mem_tiddlers_iff.1 ht] at hentry
    obtain rfl := Option.some.inj hentry
    exact ⟨r, r, hr, hr, Nat.le_refl r⟩
  | @step y z xs ts hrun hstep ih =>
    have hy := hrun.sound hx
    rcases hstep.mem_synced hy (hstep.course hy).1 ht' with ht' | hbacks
    · exact ih ht' hbag htitle
    · have hfits := (hx.fits t ht).evolves ((hrun.step hstep).evolves hx)
      obtain ⟨r, r', hr, hr', hle, -⟩ := hfits.le_of_backs hbacks hbag htitle
      exact ⟨r, r', hr, hr', hle⟩

end

/-- In every run the synced tier holds only copies that the server has held under their bag and
title, what it holds of a title in a bag never goes back to an earlier revision, and a copy that
takes the place of another without news agrees with it. -/
theorem synced_copies_genuine {config : Config} {clock : Instant} {defaults : Option Defaults}
    {cache : Cache} {xs ys : List Exchange} {x y : Exchange}
    (hx : Run (start config clock defaults cache) xs x) (hy : Run x ys y) :
    (∀ t ∈ x.synced.tiddlers, ∃ w ∈ xs, w.server.Backs t) ∧
    (∀ t ∈ x.synced.tiddlers, ∀ t' ∈ y.synced.tiddlers, t.bagName = t'.bagName →
      t.title = t'.title → ∃ r r', t.revision = some r ∧ t'.revision = some r' ∧ r ≤ r') ∧
    ∀ ts z, Step x ts z → x.synced.Course x.clock ts z.synced ∧
      ∀ m u old, x.synced.Course x.clock ts m → u ∈ ts → m.get? u = some old →
        (m.reconcile x.clock u).notified = false →
        old.AgreesWith (m.reconcile x.clock u).stored := by
  have hstart := sound_start config clock defaults cache
  have hsound := hx.sound hstart
  refine ⟨?_, ?_, ?_⟩
  · exact hx.exists_backs hstart fun t ht => absurd ht List.not_mem_nil
  · intro t ht t' ht' hbag htitle
    exact hy.revision_le hsound ht ht' hbag htitle
  · intro ts z hstep
    refine ⟨(hstep.course hsound).1, ?_⟩
    intro m u old hm hu hold hsilent
    exact hstep.agreesWith_of_silent hsound hm hu hold hsilent

/-- A run goes on when somebody registers for the events of every kind. -/
theorem Run.exists_followed {x y : Exchange} {xs : List Exchange} (h : Run x xs y) (name : String) :
    ∃ ys, Run x (xs ++ ys) { y with activity.store := y.activity.store.followedBy name } ∧
      ∀ w ∈ ys, w.server = y.server := by
  have hdeed (z : Exchange) (action : Action) :
      Step z [] { z with activity.store := (Deed.act action).on z.activity.store } :=
    .proceeds (.deed (.act action)) fun _ _ _ _ _ heq => by cases heq
  have hall := ((h.step (hdeed y (.bind .recipe none name [] 0))).step
    (hdeed _ (.bind .bag none name [] 0))).step (hdeed _ (.bind .tiddler none name [] 0))
  rw [List.append_assoc, List.append_assoc] at hall
  unfold Store.followedBy
  refine ⟨_, hall, ?_⟩
  simp

/-- A run goes on when a tiddler is got that is no edit: the server's copy is filed, where nobody
listens. -/
theorem Run.exists_got {x y : Exchange} {xs : List Exchange} (h : Run x xs y)
    (hs : y.activity.store.audience.Silent) (target : Tiddler.Target) (wanted v : Tiddler)
    (hedit : y.activity.store.modified.get? target.wanted = none)
    (hknown : (y.activity.store.known? target {}).filter Tiddler.hasContainer = some wanted)
    (hanswer : (y.server.answer (.get wanted false)).1 = .ok v) :
    ∃ ys z, Run x ys z ∧ z.server = y.server ∧
      z.activity.store =
        { y.activity.store with synced := (y.synced.reconcile y.clock v).tier } := by
  obtain ⟨b, hasks, hgets⟩ := Activity.exists_steps_got hs hedit hknown
  obtain ⟨c, hgot, hstore⟩ := hgets v
  rw [← hanswer] at hgot
  have hasked : Step y [] { y with activity := b } :=
    .proceeds hasks fun _ _ _ _ _ heq => by cases heq
  exact ⟨_, _, (h.step hasked).step (.answered hgot), y.server.answer_get_snd wanted false, hstore⟩

/-- Two copies of one tiddler are got one after the other, with a later one seeded in between. -/
theorem later_copy_follows :
    ∃ (xs ys : List Exchange) (x y : Exchange) (t t' : Tiddler),
      Run (start {} ⟨0, 0⟩ (some (.single (.bag "notes"))) .none) xs x ∧ Run x ys y ∧
      x.synced.tiddlers = [t] ∧ y.synced.tiddlers = [t'] ∧ t.text = "one" ∧ t'.text = "two" ∧
      (∃ w ∈ xs, w.server.Backs t) ∧
      ∃ r r', t.revision = some r ∧ t'.revision = some r' ∧ r ≤ r' := by
  let draft := Tiddler.draft "notes"
  let x₀ := start {} ⟨0, 0⟩ (some (.single (.bag "notes"))) .none
  let copy : Tiddler := { draft "one" with revision := some 1, lastSync := some ⟨0, 0⟩ }
  let copy' : Tiddler := { draft "two" with revision := some 2, lastSync := some ⟨0, 0⟩ }
  let server := ({} : Server).seed (draft "one")
  have hseeded : Run x₀ _ { x₀ with server } := Run.refl.step (.incident (.seed (draft "one")))
  obtain ⟨xs, x, hx, hserver, hstore⟩ := hseeded.exists_got Audience.silent_empty
    (.document (draft "one")) (draft "one") { draft "one" with revision := some 1 }
    (by decide +kernel) (by decide +kernel) (by rfl)
  have hsynced : x.synced.tiddlers = [copy] := by
    unfold synced
    rw [hstore]
    decide +kernel
  have hseeded' : Run x _ _ := Run.refl.step (.incident (.seed (draft "two")))
  obtain ⟨ys, y, hy, -, hstore'⟩ := hseeded'.exists_got (hstore ▸ Audience.silent_empty)
    (.document (draft "one")) copy { draft "two" with revision := some 2 }
    (by rw [hstore]; decide +kernel) (by rw [hstore]; decide +kernel)
    (by show ((x.server.seed _).answer _).1 = _; rw [hserver]; rfl)
  have hsynced' : y.synced.tiddlers = [copy'] := by
    unfold synced
    rw [hstore', synced, clock, hstore]
    decide +kernel
  have hcopy : copy ∈ x.synced.tiddlers := hsynced ▸ List.mem_singleton_self copy
  have hcopy' : copy' ∈ y.synced.tiddlers := hsynced' ▸ List.mem_singleton_self copy'
  obtain ⟨hheld, hlater, -⟩ := synced_copies_genuine hx hy
  exact ⟨xs, ys, x, y, copy, copy', hx, hy, hsynced, hsynced', rfl, rfl, hheld copy hcopy,
    hlater copy hcopy copy' hcopy' rfl rfl⟩

end Exchange

end TiddlerShelf
