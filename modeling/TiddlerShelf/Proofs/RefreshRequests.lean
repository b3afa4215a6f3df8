import TiddlerShelf.Proofs.Remembered
import TiddlerShelf.Proofs.Turns
import TiddlerShelf.Proofs.Visits

/-! # What a refresh asks for

A refresh takes the sources from the store once, when it goes on with the defaults at hand, and
fetches them one after the other. What others do to the store meanwhile, further searches among it,
makes no difference to that: which listings the rest of a program asks for is settled without the
store (`Program.Gathers`). So a refresh that gets all its listings has asked for the container and
for each query that was remembered when it began, in this order, and for no other listing
(`remembered_listings_fetched_once`). -/

namespace TiddlerShelf

open Program

namespace Request

/-- Whether a listing is asked for. -/
def isListing : Request → Bool
  | list _ | search _ => true
  | _ => false

end Request

namespace Source

/-- The request for a listing. -/
def request : Source → Request
  | container c => .list c
  | search query _ => .search query

end Source

namespace Program

variable {α β : Type}

/-- Whether a program asks for these listings, in this order and as long as it gets them, before it
comes to a result with the listings left that `Q` allows. It does not wait for the defaults. -/
def Gathers (Q : α → List Request → Prop) : Program α → List Request → Prop
  | done a, rs => Q a rs
  | look next, rs => ∀ s, (next s).Gathers Q rs
  | write _ next, rs => next.Gathers Q rs
  | ask r next, rs =>
    if r.isListing then ∃ rest, rs = r :: rest ∧ ∀ reply, (next (.ok reply)).Gathers Q rest
    else ∀ answer, (next answer).Gathers Q rs
  | resolve _, _ => False

/-- Whether a program asks for exactly these listings as long as it gets them. -/
def GathersAll : Program α → List Request → Prop := Gathers fun _ rest => rest = []

theorem gathers_bind {Q : β → List Request → Prop} {p : Program α} {f : α → Program β}
    {rs : List Request} :
    (p >>= f).Gathers Q rs ↔ p.Gathers (fun a rest => (f a).Gathers Q rest) rs := by
  show (p.bind f).Gathers Q rs ↔ _
  induction p generalizing rs with
  | done a => exact Iff.rfl
  | look next ih => exact forall_congr' fun s => ih s
  | write s next ih => exact ih
  | ask r next ih =>
    unfold Program.bind Gathers
    split
    · exact exists_congr fun rest => and_congr_right fun _ => forall_congr' fun reply => ih _
    · exact forall_congr' fun answer => ih answer
  | resolve next ih => exact Iff.rfl

theorem Gathers.mono {Q Q' : α → List Request → Prop} {p : Program α} {rs : List Request}
    (h : p.Gathers Q rs) (hQ : ∀ a rest, Q a rest → Q' a rest) : p.Gathers Q' rs := by
  induction p generalizing rs with
  | done a => exact hQ a rs h
  | look next ih => exact fun s => ih s (h s)
  | write s next ih => exact ih h
  | ask r next ih =>
    unfold Gathers at h ⊢
    by_cases hr : r.isListing = true
    · rw [if_pos hr] at h ⊢
      obtain ⟨rest, hrs, hrest⟩ := h
      exact ⟨rest, hrs, fun reply => ih _ (hrest reply)⟩
    · rw [if_neg hr] at h ⊢
      exact fun answer => ih answer (h answer)
  | resolve next ih => exact h

/-- Whether what comes after the end of a stretch asks for exactly these listings. -/
def Pause.GathersAll (rs : List Request) : Pause α → Prop
  | ended _ => rs = []
  | asking r next => (ask r next).GathersAll rs
  | resolving _ => False

theorem GathersAll.proceed {p : Program α} {rs : List Request} (h : p.GathersAll rs) (s : Store) :
    (p.proceed s).2.GathersAll rs := by
  induction p generalizing s with
  | done a => exact h
  | look next ih => exact ih s (h s) s
  | write s' next ih => exact ih h s'
  | ask r next ih => exact h
  | resolve next ih => exact h.elim

/-- Whether a stretch begins with a failure to get a listing or to find out the defaults. -/
def Cause.Fails : Cause → Prop
  | answered _ r (.error _) => r.isListing
  | resolved (.error _) => True
  | _ => False

end Program

namespace Store

/-- Dropping what has gone asks for no listing. -/
theorem gathers_dropAllGone (c : Container) (ts : List Tiddler) (rs : List Request) :
    (dropAllGone c ts).Gathers (fun _ rest => rest = rs) rs := by
  induction ts with
  | nil => rfl
  | cons t ts ih =>
    unfold dropAllGone
    cases c.isRecipe with
    | true =>
      intro answer
      cases answer with
      | ok u => exact ih
      | error e => exact fun s => ih
    | false => exact fun s => ih

/-- Refreshing a source asks for its listing first. -/
theorem gathers_refreshSource (source : Source) (rs : List Request) :
    (refreshSource source).Gathers (fun result rest => result.isOk ∧ rest = rs)
      (source.request :: rs) := by
  cases source with
  | container c =>
    have hdropped : ∀ (ts stored : List Tiddler), (do
        dropAllGone c ts
        return (.ok stored : Except StoreError (List Tiddler))).Gathers
        (fun result rest => Except.isOk result ∧ rest = rs) rs := fun ts stored =>
      gathers_bind.2 ((gathers_dropAllGone c ts rs).mono fun _ _ hrest => ⟨rfl, hrest⟩)
    exact ⟨rs, rfl, fun listed s s' => hdropped _ _⟩
  | search query host => exact ⟨rs, rfl, fun listed s => ⟨rfl, rfl⟩⟩

theorem gathersAll_refreshSources (sources : List Source) :
    (refreshSources sources).GathersAll (sources.map Source.request) := by
  induction sources with
  | nil => rfl
  | cons source sources ih =>
    refine gathers_bind.2 ((gathers_refreshSource source _).mono fun result rest => ?_)
    rintro ⟨hok, rfl⟩
    cases result with
    | error e => contradiction
    | ok stored => exact gathers_bind.2 (ih.mono fun _ _ hrest => hrest)

/-- A store that finds the place has its listing and the remembered searches to fetch. -/
theorem Placed.sources_moveTo {s : Store} (h : s.Placed) {d : Defaults}
    (hd : s.resolver = .resolved d) : (s.moveTo d.pullFrom).sources.values =
      .container d.pullFrom :: s.queries.map (.search · d.pullFrom.host) := by
  rw [(h.at_moveTo hd).sources_eq, h.queries_moveTo hd]

end Store

namespace Call

/-- How a refresh goes on when it is known what has become of the defaults. -/
def refreshing : Except StoreError Defaults → Program Outcome
  | .error e => .done (.listed (.error e))
  | .ok d => Outcome.listed <$> (do
      Program.change (·.moveTo d.pullFrom)
      Store.refreshAll)

theorem program_refresh : refresh.program = .resolve refreshing :=
  congrArg Program.resolve (funext fun result => by cases result <;> rfl)

/-- With the defaults at hand, a refresh finds the place and then has the container and all that is
remembered to ask for. -/
theorem proceed_refreshing {s : Store} (h : s.Placed) {d : Defaults}
    (hd : s.resolver = .resolved d) :
    ((refreshing (.ok d)).proceed s).1 = s.moveTo d.pullFrom ∧
      ((refreshing (.ok d)).proceed s).2.GathersAll
        (.list d.pullFrom :: s.queries.map .search) := by
  have hsources := h.sources_moveTo hd
  have hgathers : (Outcome.listed <$>
      Store.refreshSources (s.moveTo d.pullFrom).sources.values).GathersAll
      ((s.moveTo d.pullFrom).sources.values.map Source.request) :=
    gathers_bind.2 ((Store.gathersAll_refreshSources _).mono fun _ _ hrest => hrest)
  have hproceed := hgathers.proceed (s.moveTo d.pullFrom)
  have hmap : (s.moveTo d.pullFrom).sources.values.map Source.request =
      .list d.pullFrom :: s.queries.map .search := by
    rw [hsources, List.map_cons, List.map_map]
    rfl
  rw [hmap] at hproceed
  have hsame : (refreshing (.ok d)).proceed s = (Outcome.listed <$>
      Store.refreshSources (s.moveTo d.pullFrom).sources.values).proceed
        (s.moveTo d.pullFrom) := rfl
  rw [hsame]
  refine ⟨?_, hproceed⟩
  rw [hsources]
  rfl

end Call

namespace Activity

variable {a b : Activity} {id : TaskId} {rs : List Request}

/-- Whether a task waits for the defaults to refresh. -/
def Awaits (a : Activity) (id : TaskId) : Prop :=
  a.tasks id = some ⟨.refresh, .discovering Call.refreshing⟩ ∨
    a.tasks id = some ⟨.refresh, .queued Call.refreshing⟩ ∨
    ∃ result, a.tasks id = some ⟨.refresh, .informed result Call.refreshing⟩

/-- Whether a task that refreshes still has exactly these listings to get. -/
def Owes (a : Activity) (id : TaskId) (rs : List Request) : Prop :=
  a.tasks id = none ∧ rs = [] ∨ ∃ r since next,
    a.tasks id = some ⟨.refresh, .asking r since next⟩ ∧ (Program.ask r next).GathersAll rs

theorem owes_goOn {p : Program Call.Outcome} (h : (p.proceed a.store).2.GathersAll rs) :
    (a.goOn id .refresh p).Owes id rs := by
  have hself : ∀ t : Option Task, Function.update a.tasks id t id = t :=
    fun t => Function.update_self id t a.tasks
  unfold goOn
  split <;> rename_i heq <;> rw [heq] at h
  · exact .inl ⟨hself none, h⟩
  · exact .inr ⟨_, _, _, hself _, h⟩
  · exact h.elim

/-- Whether a refresh goes on in a step with these defaults at hand. -/
structure Transition.Begins (tr : Transition) (id : TaskId) (d : Defaults) : Prop where
  found : ∃ k, tr.move = .go id .refresh k ∧ k.found? tr.before.store = some d
  location : tr.after.store.location = some d.pullFrom

theorem goOn_refreshing (h : a.store.Placed) {d : Defaults} (hd : a.store.resolver = .resolved d) :
    (a.goOn id .refresh (Call.refreshing (.ok d))).store.location = some d.pullFrom ∧
      (a.goOn id .refresh (Call.refreshing (.ok d))).Owes id
        (.list d.pullFrom :: a.store.queries.map .search) := by
  obtain ⟨hmoved, hgathers⟩ := Call.proceed_refreshing h hd
  obtain ⟨resolver, hstore⟩ := store_goOn a id .refresh (Call.refreshing (.ok d))
  refine ⟨?_, owes_goOn hgathers⟩
  rw [hstore, hmoved]
  exact (h.at_moveTo hd).location

theorem awaits_goOn (hne : ∀ d, a.store.resolver ≠ .resolved d) :
    (a.goOn id .refresh (.resolve Call.refreshing)).Awaits id := by
  have hself : ∀ t : Option Task, Function.update a.tasks id t id = t :=
    fun t => Function.update_self id t a.tasks
  obtain ⟨resolver, t, heq, rfl | rfl⟩ := goOn_resolve id .refresh Call.refreshing hne
  · rw [heq]
    exact .inr (.inl (hself _))
  · rw [heq]
    exact .inl (hself _)

/-- The listing that a task has been answered about in a step. -/
def Transition.listing? (id : TaskId) (tr : Transition) : Option Request :=
  match tr.move with
  | .go x _ (.answered _ r _) => if x = id ∧ r.isListing then some r else none
  | _ => none

theorem Transition.listing?_of_answered {tr : Transition} {c : Call} {since : Store} {r : Request}
    {answer : Except RemoteError r.Reply} (h : tr.move = .go id c (.answered since r answer)) :
    tr.listing? id = if r.isListing then some r else none := by
  unfold listing?
  rw [h]
  simp only [true_and]

/-- The listings that a task has asked for, in order, as far as they have been answered. When a task
has come to its end, that is all of them. -/
def listings (id : TaskId) (h : List Transition) : List Request :=
  h.filterMap (Transition.listing? id)

theorem listings_concat (id : TaskId) (h : List Transition) (tr : Transition) :
    listings id (h ++ [tr]) = listings id h ++ (tr.listing? id).toList := by
  unfold listings
  rw [List.filterMap_append, List.filterMap_cons]
  cases tr.listing? id <;> rfl

/-! ## Steps -/

/-- A step of others leaves a task as it is, or tells it what has become of the defaults. -/
theorem Step.tasks_of_other {m : Move} (hstep : Step a m b) (hgo : ∀ c k, m ≠ .go id c k)
    (hagain : m ≠ .again id) (hdrop : m ≠ .drop id) : b.tasks id = a.tasks id ∨
      ∃ result, b.tasks id = (a.tasks id).map (Task.inform result) := by
  have hne : ∀ {x : TaskId} {c : Call} {k : Cause}, (∀ c' k', Move.go x c k ≠ .go id c' k') →
      id ≠ x := by
    rintro x c k hgo rfl
    exact hgo c k rfl
  cases hstep with
  | call hx => exact .inl (goOn_tasks_of_ne (hne hgo) _ _)
  | answer ht answer => exact .inl (goOn_tasks_of_ne (hne hgo) _ _)
  | @learn x c next ht _ result hresult =>
    rw [goOn_tasks_of_ne (hne hgo)]
    exact (inform_tasks a result id).imp_right fun heq => ⟨result, heq⟩
  | informed ht => exact .inl (goOn_tasks_of_ne (hne hgo) _ _)
  | retry ht hd => exact .inl (goOn_tasks_of_ne (hne hgo) _ _)
  | again ht _ _ =>
    refine .inl (goOn_tasks_of_ne ?_ _ _)
    rintro rfl
    exact hagain rfl
  | drop ht =>
    refine .inl (Function.update_of_ne ?_ _ _)
    rintro rfl
    exact hdrop rfl
  | deed d => exact .inl rfl

theorem Transition.listing?_of_other {tr : Transition} (h : ∀ c k, tr.move ≠ .go id c k) :
    tr.listing? id = none := by
  unfold listing?
  split
  · rename_i heq
    exact if_neg fun hid => h _ _ (hid.1 ▸ heq)
  · rfl

theorem Awaits.of_other (h : a.Awaits id) (htasks : b.tasks id = a.tasks id ∨
    ∃ result, b.tasks id = (a.tasks id).map (Task.inform result)) : b.Awaits id := by
  unfold Awaits at h ⊢
  rcases htasks with heq | ⟨result, heq⟩
  · rwa [heq]
  · rw [heq]
    rcases h with ht | ht | ⟨result', ht⟩ <;> rw [ht]
    · exact .inl rfl
    · exact .inr (.inr ⟨result, rfl⟩)
    · exact .inr (.inr ⟨result', rfl⟩)

theorem Owes.of_other (h : a.Owes id rs) (htasks : b.tasks id = a.tasks id ∨
    ∃ result, b.tasks id = (a.tasks id).map (Task.inform result)) : b.Owes id rs := by
  unfold Owes at h ⊢
  rcases htasks with heq | ⟨result, heq⟩
  · rwa [heq]
  · rw [heq]
    rcases h with ⟨ht, hrs⟩ | ⟨r, since, next, ht, hrs⟩ <;> rw [ht]
    · exact .inl ⟨rfl, hrs⟩
    · exact .inr ⟨r, since, next, rfl, hrs⟩

/-- A refresh that is called waits for the defaults, or has them at hand at once. -/
theorem Step.refreshes (hstep : Step a (.go id .refresh .called) b) (ha : a.Placed fun _ => True) :
    b.Awaits id ∨ ∃ d, Transition.Begins ⟨a, .go id .refresh .called, b⟩ id d ∧
      b.Owes id (.list d.pullFrom :: a.store.queries.map .search) := by
  cases hstep with
  | call hid =>
    rw [Call.program_refresh]
    by_cases hd : ∃ d, a.store.resolver = .resolved d
    · obtain ⟨d, hd⟩ := hd
      have hfound : Cause.called.found? a.store = some d := by
        rw [Cause.found?, Store.defaults?, hd]
        rfl
      rw [goOn_resolved (a := { a with fresh := id + 1 }) hd]
      obtain ⟨hplace, howes⟩ := goOn_refreshing (a := { a with fresh := id + 1 }) ha.store hd
      exact .inr ⟨d, ⟨⟨_, rfl, hfound⟩, hplace⟩, howes⟩
    · exact .inl (awaits_goOn fun d hd' => hd ⟨d, hd'⟩)

/-- Where a refresh waits for the defaults, no listing is asked for, until they are at hand. -/
theorem Step.awaits {m : Move} (hstep : Step a m b) (h : a.Awaits id)
    (ha : a.Placed fun _ => True) (hid : id < a.fresh) (hdrop : m ≠ .drop id)
    (hfails : ∀ c k, m = .go id c k → ¬k.Fails) :
    Transition.listing? id ⟨a, m, b⟩ = none ∧ (b.Awaits id ∨ ∃ d,
      Transition.Begins ⟨a, m, b⟩ id d ∧
        b.Owes id (.list d.pullFrom :: a.store.queries.map .search)) := by
  have hphase : ∀ {t : Task}, a.tasks id = some t → t = ⟨.refresh, .discovering Call.refreshing⟩ ∨
      t = ⟨.refresh, .queued Call.refreshing⟩ ∨
      ∃ result, t = ⟨.refresh, .informed result Call.refreshing⟩ := by
    intro t ht
    unfold Awaits at h
    rw [ht] at h
    simpa only [Option.some.injEq] using h
  by_cases hgo : ∃ c k, m = .go id c k
  · obtain ⟨c, k, rfl⟩ := hgo
    have hfine := hfails c k rfl
    cases hstep with
    | call hfresh => exact absurd hid (Nat.not_lt.2 hfresh)
    | answer ht answer => exact absurd (hphase ht) (by simp)
    | @learn _ _ next ht _ result hresult =>
      obtain ⟨rfl, rfl⟩ : c = .refresh ∧ next = Call.refreshing := by simpa using hphase ht
      cases result with
      | error e => exact absurd trivial hfine
      | ok d =>
        obtain ⟨hplace, howes⟩ := goOn_refreshing (ha.inform ⟨_, _, ht⟩ (.ok d)).store rfl
        exact ⟨rfl, .inr ⟨d, ⟨⟨_, rfl, rfl⟩, hplace⟩, howes⟩⟩
    | @informed _ _ result next ht =>
      obtain ⟨rfl, rfl⟩ : c = .refresh ∧ next = Call.refreshing := by simpa using hphase ht
      cases result with
      | error e => exact absurd trivial hfine
      | ok d =>
        obtain ⟨hplace, howes⟩ := goOn_refreshing ha.store (ha.told trivial ⟨_, _, ht⟩)
        exact ⟨rfl, .inr ⟨d, ⟨⟨_, rfl, rfl⟩, hplace⟩, howes⟩⟩
    | @retry _ _ d next ht hd =>
      obtain ⟨rfl, rfl⟩ : c = .refresh ∧ next = Call.refreshing := by simpa using hphase ht
      obtain ⟨hplace, howes⟩ := goOn_refreshing ha.store hd
      exact ⟨rfl, .inr ⟨d, ⟨⟨_, rfl, rfl⟩, hplace⟩, howes⟩⟩
  · have hgo : ∀ c k, m ≠ .go id c k := fun c k heq => hgo ⟨c, k, heq⟩
    refine ⟨Transition.listing?_of_other hgo, .inl ?_⟩
    by_cases hagain : m = .again id
    · subst hagain
      cases hstep with
      | @again _ c next ht _ hne =>
        obtain ⟨rfl, rfl⟩ : c = .refresh ∧ next = Call.refreshing := by simpa using hphase ht
        exact awaits_goOn hne
    · exact h.of_other (hstep.tasks_of_other hgo hagain hdrop)

/-- Where a refresh has listings to get, it gets the first one or asks for something else. -/
theorem Step.owes {m : Move} (hstep : Step a m b) (h : a.Owes id rs) (hid : id < a.fresh)
    (hdrop : m ≠ .drop id) (hfails : ∀ c k, m = .go id c k → ¬k.Fails) :
    ∃ rest, (Transition.listing? id ⟨a, m, b⟩).toList ++ rest = rs ∧ b.Owes id rest := by
  have hphase : ∀ {t : Task}, a.tasks id = some t → ∃ r since next,
      t = ⟨.refresh, .asking r since next⟩ ∧ (Program.ask r next).GathersAll rs := by
    intro t ht
    unfold Owes at h
    rw [ht] at h
    simpa using h
  by_cases hgo : ∃ c k, m = .go id c k
  · obtain ⟨c, k, rfl⟩ := hgo
    have hfine := hfails c k rfl
    cases hstep with
    | call hfresh => exact absurd hid (Nat.not_lt.2 hfresh)
    | @answer _ _ r since next ht answer =>
      obtain ⟨r', since', next', heq, hgathers⟩ := hphase ht
      cases heq
      unfold GathersAll Gathers at hgathers
      by_cases hr : r.isListing = true
      · rw [if_pos hr] at hgathers
        obtain ⟨rest, rfl, hrest⟩ := hgathers
        cases answer with
        | error e => exact absurd hr hfine
        | ok reply =>
          refine ⟨rest, ?_, owes_goOn (GathersAll.proceed (hrest reply) a.store)⟩
          rw [Transition.listing?_of_answered rfl, if_pos hr]
          rfl
      · rw [if_neg hr] at hgathers
        refine ⟨rs, ?_, owes_goOn (GathersAll.proceed (hgathers answer) a.store)⟩
        rw [Transition.listing?_of_answered rfl, if_neg hr]
        rfl
    | learn ht _ =>
      obtain ⟨r, since, next, heq, -⟩ := hphase ht
      cases heq
    | informed ht =>
      obtain ⟨r, since, next, heq, -⟩ := hphase ht
      cases heq
    | retry ht _ =>
      obtain ⟨r, since, next, heq, -⟩ := hphase ht
      cases heq
  · have hgo : ∀ c k, m ≠ .go id c k := fun c k heq => hgo ⟨c, k, heq⟩
    refine ⟨rs, by rw [Transition.listing?_of_other hgo]; rfl, ?_⟩
    by_cases hagain : m = .again id
    · subst hagain
      cases hstep with
      | again ht _ _ =>
        obtain ⟨r, since, next, heq, -⟩ := hphase ht
        cases heq
    · exact h.of_other (hstep.tasks_of_other hgo hagain hdrop)

/-! ## Runs -/

/-- What holds in the beginning of a run without steps, and is kept up when one more step is taken,
holds of every run with its steps. -/
theorem Run.concat_induction {P : List Transition → Activity → Prop} (hnil : P [] a)
    (hconcat : ∀ {h b m c}, Run a h b → Step b m c → P h b → P (h ++ [⟨b, m, c⟩]) c)
    {h : List Transition} (hrun : Run a h b) : P h b := by
  induction h using List.reverseRecOn generalizing b with
  | nil =>
    cases hrun
    exact hnil
  | append_singleton h tr ih =>
    obtain ⟨b', hfirst, hlast⟩ := hrun.split
    cases hlast with
    | cons hstep hrest =>
      cases hrest
      exact hconcat hfirst hstep (ih hfirst)

/-- A task that has moved has a lower number than any task to come. -/
theorem Step.lt_fresh {c : Call} {k : Cause} (hstep : Step a (.go id c k) b) (ha : a.Sound) :
    id < b.fresh := by
  have hkept : ∀ {t : Task}, a.tasks id = some t → id < b.fresh :=
    fun ht => Nat.lt_of_lt_of_le (ha.lt_fresh ht) hstep.fresh_le
  cases hstep with
  | call _ =>
    rw [fresh_goOn]
    exact Nat.lt_succ_self id
  | answer ht _ => exact hkept ht
  | learn ht _ => exact hkept ht
  | informed ht => exact hkept ht
  | retry ht _ => exact hkept ht

theorem Run.lt_fresh {h : List Transition} (hrun : Run a h b) (ha : a.Sound) {tr : Transition}
    (htr : tr ∈ h) {c : Call} {k : Cause} (hmove : tr.move = .go id c k) : id < b.fresh := by
  induction hrun with
  | nil => exact absurd htr List.not_mem_nil
  | cons hstep hrun ih =>
    rcases List.mem_cons.1 htr with rfl | htr
    · cases hmove
      exact (hrun.throughout (I := (id < ·.fresh)) (hstep.lt_fresh ha) fun _ _ hnext hlt =>
        Nat.lt_of_lt_of_le hlt hnext.fresh_le).1
    · exact ih (hstep.sound ha) htr

/-- A task that is yet to come has asked for nothing. -/
theorem Run.listings_eq_nil {h : List Transition} (hrun : Run a h b) (ha : a.Sound)
    (hid : b.fresh ≤ id) : listings id h = [] := by
  refine List.filterMap_eq_nil_iff.2 fun tr htr => Transition.listing?_of_other fun c k hmove => ?_
  exact absurd (hrun.lt_fresh ha htr hmove) (Nat.not_lt.2 hid)

/-- How far a refresh has come: it waits for the defaults and has asked for no listing, or it has
gone on with the defaults at hand, and what it has asked for since and what it still has to ask for
are together what was remembered then. -/
inductive Stage (id : TaskId) (h : List Transition) (b : Activity) : Prop
  | awaits (hawaits : b.Awaits id) (hnone : listings id h = [])
  | owes {before after : List Transition} {tr : Transition} {d : Defaults} {rs : List Request}
    (hsplit : h = before ++ tr :: after) (hbegins : tr.Begins id d) (howes : b.Owes id rs)
    (hlistings : listings id h ++ rs = .list d.pullFrom :: tr.before.store.queries.map .search)

/-- A refresh that goes on with the defaults at hand has all to ask for that is remembered then. -/
theorem Stage.begin {h : List Transition} {tr : Transition} {d : Defaults}
    (hbegins : tr.Begins id d) (hnone : listings id (h ++ [tr]) = [])
    (howes : b.Owes id (.list d.pullFrom :: tr.before.store.queries.map .search)) :
    Stage id (h ++ [tr]) b := by
  refine .owes rfl hbegins howes ?_
  rw [hnone]
  rfl

theorem Stage.step {c : Activity} {h : List Transition} {m : Move} (hstage : Stage id h b)
    (hstep : Step b m c) (hb : b.Placed fun _ => True) (hid : id < b.fresh) (hdrop : m ≠ .drop id)
    (hfails : ∀ c k, m = .go id c k → ¬k.Fails) : Stage id (h ++ [⟨b, m, c⟩]) c := by
  cases hstage with
  | awaits hawaits hnone =>
    obtain ⟨hlisting, hnext⟩ := hstep.awaits hawaits hb hid hdrop hfails
    have hnone' : listings id (h ++ [⟨b, m, c⟩]) = [] := by
      rw [listings_concat, hnone, hlisting]
      rfl
    rcases hnext with hawaits' | ⟨d, hbegins, howes⟩
    · exact .awaits hawaits' hnone'
    · exact .begin hbegins hnone' howes
  | owes hsplit hbegins howes hlistings =>
    obtain ⟨rest, hrest, howes'⟩ := hstep.owes howes hid hdrop hfails
    refine .owes (hsplit ▸ List.append_assoc _ _ _) hbegins howes' ?_
    rw [listings_concat, List.append_assoc, hrest]
    exact hlistings

/-- A refresh that has been called, that nobody has given up and that has not failed has come so far
in every run. -/
theorem Run.stage (ha : a.Reachable) {h : List Transition} (hrun : Run a h b)
    (hcalled : ∃ tr ∈ h, tr.move = .go id .refresh .called) (hdrop : ∀ tr ∈ h, tr.move ≠ .drop id)
    (hfails : ∀ tr ∈ h, ∀ c k, tr.move = .go id c k → ¬k.Fails) : Stage id h b := by
  revert hcalled hdrop hfails
  refine hrun.concat_induction (P := fun h b => (∃ tr ∈ h, tr.move = .go id .refresh .called) →
    (∀ tr ∈ h, tr.move ≠ .drop id) → (∀ tr ∈ h, ∀ c k, tr.move = .go id c k → ¬k.Fails) →
    Stage id h b) (fun hcalled _ _ => ?_) ?_
  · obtain ⟨tr, htr, -⟩ := hcalled
    exact absurd htr List.not_mem_nil
  · intro h b m c hrun hstep ih hcalled hdrop hfails
    have hb := (ha.run hrun).placed.1
    obtain ⟨hbefore, hlast⟩ := List.forall_mem_append.1 hdrop
    obtain ⟨hfine, hlastFine⟩ := List.forall_mem_append.1 hfails
    by_cases hearlier : ∃ tr ∈ h, tr.move = .go id .refresh .called
    · obtain ⟨tr, htr, hcall⟩ := hearlier
      exact (ih ⟨tr, htr, hcall⟩ hbefore hfine).step hstep hb (hrun.lt_fresh ha.sound htr hcall)
        (hlast _ List.mem_cons_self) (hlastFine _ List.mem_cons_self)
    · obtain ⟨tr, htr, hcall⟩ := hcalled
      have hm : m = .go id .refresh .called := by
        rcases List.mem_append.1 htr with htr | htr
        · exact absurd ⟨tr, htr, hcall⟩ hearlier
        · rw [List.mem_singleton.1 htr] at hcall
          exact hcall
      subst hm
      have hfresh : b.fresh ≤ id := by
        cases hstep with
        | call hfresh => exact hfresh
      have hnone : listings id (h ++ [⟨b, .go id .refresh .called, c⟩]) = [] := by
        rw [listings_concat, hrun.listings_eq_nil ha.sound hfresh]
        rfl
      rcases hstep.refreshes hb with hawaits | ⟨d, hbegins, howes⟩
      · exact .awaits hawaits hnone
      · exact .begin hbegins hnone howes

/-- In every run of a store, the sources that it remembers are none, with nothing searched for, or
the container that it reads from and then each query that has been searched for, once and in the
order in which they came first. A refresh that has come to its end, without being given up and with
no listing failing, has gone on with the defaults at hand at one step; the listings that it has
asked for are that of the container and then one for each query that was remembered then, in this
order. -/
theorem remembered_listings_fetched_once {config : Config} {clock : Instant}
    {defaults : Option Defaults} {cache : Cache} {h : List Transition}
    (hrun : Run (start config clock defaults cache) h b) :
    (b.store.sources.values = [] ∧ searched h = [] ∨
      ∃ d, b.store.defaults? = some d ∧ b.store.sources.values =
        .container d.pullFrom :: (searched h).eraseDups.map (.search · d.pullFrom.host)) ∧
    ∀ id, (∃ tr ∈ h, tr.move = .go id .refresh .called) → b.tasks id = none →
      (∀ tr ∈ h, tr.move ≠ .drop id) → (∀ tr ∈ h, ∀ c k, tr.move = .go id c k → ¬k.Fails) →
      ∃ before tr after place, h = before ++ tr :: after ∧
        (∃ k d, tr.move = .go id .refresh k ∧ k.found? tr.before.store = some d ∧
          d.pullFrom = place) ∧
        b.store.location = some place ∧ tr.before.store.queries = (searched before).eraseDups ∧
        listings id h = .list place :: (searched before).eraseDups.map .search := by
  have hstart := Reachable.start config clock defaults cache
  refine ⟨?_, fun id hcalled hover hdrop hfails => ?_⟩
  · rcases hrun.sources_eq.2 with hnone | ⟨d, hd, hsources⟩
    · exact .inl hnone
    · refine .inr ⟨d, ?_, hsources⟩
      rw [Store.defaults?, hd]
      rfl
  · cases hrun.stage hstart hcalled hdrop hfails with
    | awaits hawaits _ =>
      unfold Awaits at hawaits
      simp [hover] at hawaits
    | @owes before after tr d rs hsplit hbegins howes hlistings =>
      obtain rfl : rs = [] := by
        unfold Owes at howes
        simpa [hover] using howes
      obtain ⟨b', hfirst, hlast⟩ := (hsplit ▸ hrun).split
      cases hlast with
      | cons hstep hrest =>
        obtain ⟨⟨k, hmove, hfound⟩, hplace⟩ := hbegins
        have hqueries := hfirst.sources_eq.1
        refine ⟨before, _, after, d.pullFrom, hsplit, ⟨k, d, hmove, hfound, rfl⟩,
          hrest.location ((hstart.run hfirst).step hstep) hplace, hqueries, ?_⟩
        rw [← hqueries, ← hlistings, List.append_nil]

/-- A server that has nothing to list. -/
def emptyHanded : ∀ r : Request, Except RemoteError r.Reply
  | .list _ | .search _ => .ok []
  | _ => .error (.notFound "nothing here")

/-- The request that a task waits for which refreshes. -/
def asks? (a : Activity) (id : TaskId) : Option Request :=
  match a.tasks id with
  | some ⟨.refresh, .asking r _ _⟩ => some r
  | _ => none

theorem step_reply_of_asks {r : Request} (h : a.asks? id = some r)
    (server : ∀ r : Request, Except RemoteError r.Reply) : ∃ since,
    Step a (.go id .refresh (.answered since r (server r))) (a.reply id server) := by
  unfold asks? at h
  split at h
  · rename_i ht
    cases h
    exact ⟨_, step_reply ht server⟩
  · contradiction

/-- A store that reads from a bag is searched for one query, then for another and then for the first
one again, and is refreshed before any answer. The refresh asks for the bag and for both queries. -/
theorem second_search_is_remembered :
    ∃ (h : List Transition) (b : Activity),
      Run (start {} ⟨0, 0⟩ (some (.single (.bag "notes"))) .none) h b ∧
      (∃ tr ∈ h, tr.move = .go 3 .refresh .called) ∧ b.tasks 3 = none ∧
      (∀ tr ∈ h, tr.move ≠ .drop 3) ∧ (∀ tr ∈ h, ∀ c k, tr.move = .go 3 c k → ¬k.Fails) ∧
      searched h = ["cats", "dogs", "cats"] ∧
      b.store.sources.values =
        [.container (.bag "notes"), .search "cats" "/", .search "dogs" "/"] ∧
      (∃ before tr after, h = before ++ tr :: after ∧
        listings 3 h = .list (.bag "notes") :: (searched before).eraseDups.map .search) ∧
      listings 3 h = [.list (.bag "notes"), .search "cats", .search "dogs"] := by
  let a₀ := start {} ⟨0, 0⟩ (some (.single (.bag "notes"))) .none
  let a₁ := a₀.call (.search "cats")
  let a₂ := a₁.call (.search "dogs")
  let a₃ := a₂.call (.search "cats")
  let a₄ := a₃.call .refresh
  let a₅ := a₄.reply 3 emptyHanded
  let a₆ := a₅.reply 3 emptyHanded
  let a₇ := a₆.reply 3 emptyHanded
  have hbag : a₄.asks? 3 = some (.list (.bag "notes")) := by decide +kernel
  have hcats : a₅.asks? 3 = some (.search "cats") := by decide +kernel
  have hdogs : a₆.asks? 3 = some (.search "dogs") := by decide +kernel
  obtain ⟨since₄, hbag⟩ := step_reply_of_asks hbag emptyHanded
  obtain ⟨since₅, hcats⟩ := step_reply_of_asks hcats emptyHanded
  obtain ⟨since₆, hdogs⟩ := step_reply_of_asks hdogs emptyHanded
  let calls : List Transition := [⟨a₀, .go 0 (.search "cats") .called, a₁⟩,
    ⟨a₁, .go 1 (.search "dogs") .called, a₂⟩, ⟨a₂, .go 2 (.search "cats") .called, a₃⟩,
    ⟨a₃, .go 3 .refresh .called, a₄⟩]
  let replies : List Transition :=
    [⟨a₄, .go 3 .refresh (.answered since₄ (.list (.bag "notes")) (emptyHanded _)), a₅⟩,
      ⟨a₅, .go 3 .refresh (.answered since₅ (.search "cats") (emptyHanded _)), a₆⟩,
      ⟨a₆, .go 3 .refresh (.answered since₆ (.search "dogs") (emptyHanded _)), a₇⟩]
  have hrun : Run a₀ (calls ++ replies) a₇ :=
    .cons (step_call _ _) (.cons (step_call _ _) (.cons (step_call _ _) (.cons (step_call _ _)
      (.cons hbag (.cons hcats (.cons hdogs (.nil _)))))))
  have hsearched : searched (calls ++ replies) = ["cats", "dogs", "cats"] := by
    have hcalls : searched calls = ["cats", "dogs", "cats"] := by decide +kernel
    exact (List.filterMap_append ..).trans (congrArg (· ++ []) hcalls)
  have hcalled : ∃ tr ∈ calls ++ replies, tr.move = .go 3 .refresh .called :=
    ⟨⟨a₃, _, a₄⟩, .tail _ (.tail _ (.tail _ (.head _))), rfl⟩
  have hover : a₇.tasks 3 = none := Option.isNone_iff_eq_none.1 (by decide +kernel)
  have hdrop : ∀ tr ∈ calls ++ replies, tr.move ≠ .drop 3 := by simp [calls, replies]
  have hfails : ∀ tr ∈ calls ++ replies, ∀ c k, tr.move = .go 3 c k → ¬k.Fails := by
    simp [calls, replies, Cause.Fails, emptyHanded]
  obtain ⟨hsources, hrefreshed⟩ := remembered_listings_fetched_once hrun
  obtain ⟨before, tr, after, place, hsplit, -, hplace, -, hlistings⟩ :=
    hrefreshed 3 hcalled hover hdrop hfails
  have hnotes : a₇.store.location = some (.bag "notes") := by decide +kernel
  obtain rfl : Container.bag "notes" = place := Option.some.inj (hnotes.symm.trans hplace)
  refine ⟨_, _, hrun, hcalled, hover, hdrop, hfails, hsearched, ?_,
    ⟨before, tr, after, hsplit, hlistings⟩, rfl⟩
  rcases hsources with ⟨-, hnone⟩ | ⟨d, hd, hvalues⟩
  · exact absurd (hsearched.symm.trans hnone) (List.cons_ne_nil _ _)
  · have hdefaults : a₇.store.defaults? = some (.single (.bag "notes")) := by decide +kernel
    obtain rfl := Option.some.inj (hd.symm.trans hdefaults)
    rw [hvalues, hsearched]
    rfl

end Activity

end TiddlerShelf
