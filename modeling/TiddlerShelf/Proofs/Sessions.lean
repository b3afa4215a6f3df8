import TiddlerShelf.Proofs.Turns

/-! # Sessions are activities

Whatever happens in a session with one store, there is an activity that can come about and stands
where the session does, so that all that holds of the activities that can come about holds of the
sessions: `exists_follows` says so. If the server holds nothing at first and nothing happens to it
but its incidents, then a run of exchanges leads there, with the session's server in the end:
`exists_exchange`. -/

namespace TiddlerShelf

open Program

theorem Deed.resolver_on (d : Deed) {s : Store} (h : s.Sound) : (d.on s).resolver = s.resolver := by
  cases d with
  | remove target => exact (h.steady.remove target).resolver
  | reload => exact h.steady.retrieveCached.resolver
  | _ => rfl

namespace Session

/-- What may happen in a session with one store besides calls and changes of the server. -/
inductive Incident
  | hold (op : Operation)
  | release (op : Operation)
  | drop (id : TaskId)
  | deed (d : Deed)
  | takeEnded

def Incident.on : Incident → Session Call.Outcome → Session Call.Outcome
  | hold op, m => m.hold op
  | release op, m => m.release op
  | drop id, m => m.drop id
  | deed d, m => (m.onStore fun s => ((), d.on s)).2
  | takeEnded, m => m.takeEnded.2

/-- The sessions with one store that begin with a server and change it in some ways, with a bound on
the numbers of their tasks so far. Whatever happens, tasks go on until none is ready. -/
inductive Arises (server : Server) (Changes : (Server → Server) → Prop) :
    TaskId → Session Call.Outcome → Prop
  | fresh (config : Config) (clock : Instant) (defaults : Option Defaults) (cache : Cache) :
    Arises server Changes 0 { server, store := Store.fresh config clock defaults cache }
  | call {bound id : TaskId} {m : Session Call.Outcome} (h : Arises server Changes bound m)
    (hid : bound ≤ id) (c : Call) (background : Bool) :
    Arises server Changes (id + 1) (m.start id c.program background).settle
  | incident {bound : TaskId} {m : Session Call.Outcome} (h : Arises server Changes bound m)
    (i : Incident) : Arises server Changes bound (i.on m).settle
  | onServer {bound : TaskId} {m : Session Call.Outcome} (h : Arises server Changes bound m)
    {f : Server → Server} (hf : Changes f) : Arises server Changes bound (m.onServer f).settle

variable {server : Server} {Changes : (Server → Server) → Prop} {bound : TaskId}
  {m : Session Call.Outcome}

theorem Arises.ready_eq_nil (h : Arises server Changes bound m) : m.ready = [] := by
  cases h with
  | fresh => rfl
  | call _ _ _ _ => exact ready_settle _
  | incident _ _ => exact ready_settle _
  | onServer _ _ => exact ready_settle _

end Session

namespace Activity

variable {bound id : TaskId} {m : Session Call.Outcome} {a : Activity}

theorem sound_of_leads {b : Activity} {server server' : Server}
    (h : Exchange.Leads ⟨a, server⟩ ⟨b, server'⟩) (ha : a.Sound) : b.Sound := by
  obtain ⟨ts, hrun⟩ := h.exists_run
  exact hrun.sound ha

theorem Follows.settle (h : Follows bound m a) (ha : a.Sound) :
    ∃ b, Exchange.Leads ⟨a, m.server⟩ ⟨b, m.settle.server⟩ ∧ Follows bound m.settle b := by
  fun_induction Session.settle m generalizing a with
  | case1 m hready => exact ⟨a, .refl _, h⟩
  | case2 m id ids hready hid ih =>
    obtain ⟨b, hleads, hfollows⟩ := h.advance ha hid
    obtain ⟨b', hleads', hfollows'⟩ := ih hfollows (sound_of_leads hleads ha)
    exact ⟨b', hleads.trans hleads', hfollows'⟩

/-- Starting a task in a session where no task is ready is a call in the activity. -/
theorem Follows.call (h : Follows bound m a) (ha : a.Sound) (hready : m.ready = [])
    (hid : bound ≤ id) (c : Call) (background : Bool) :
    ∃ b, Exchange.Leads ⟨a, m.server⟩ ⟨b, (m.start id c.program background).settle.server⟩ ∧
      Follows (id + 1) (m.start id c.program background).settle b := by
  have hfresh : a.fresh ≤ id := Nat.le_trans h.bounded hid
  have hnone : m.waiting? id = none := by
    have halike := h.tasks id
    rw [ha.fresh hfresh] at halike
    generalize m.waiting? id = w at halike
    cases halike
    rfl
  have htidy := h.tidy.start hnone c.program background
  have hmem : id ∈ (m.start id c.program background).ready :=
    List.mem_append_right _ (List.mem_singleton_self id)
  have hwaits := m.waiting?_start_self id c.program background
  have hsame : ∀ {x}, x ≠ id → (m.start id c.program background).waiting? x = m.waiting? x :=
    fun hx => m.waiting?_start_of_ne hx c.program background
  have hworking : Working (id + 1) id m.store.resolver.queue
      ((m.start id c.program background).unready id) { a with fresh := id + 1 } := by
    refine ⟨h.store, ?_, h.results, Nat.le_refl _, htidy.unready id, htidy.unlisted hmem, ?_⟩
    · intro x hx
      show Alike ((m.start id c.program background).waiting? x) (a.tasks x)
      rw [hsame hx]
      exact h.tasks x
    · show (m.start id c.program background).waiting? id ≠ none
      rw [hwaits]
      exact Option.some_ne_none _
  have hs : m.store.Sound := h.store ▸ ha.store
  obtain ⟨b, hleads, hfollows⟩ := goesAlike c _ hworking hs (Call.keeps_steadily (c.keeps m.store))
  have hcalled : Step a (.go id c .called) _ := .call hfresh
  have hstarts := (Exchange.leads_of_step hcalled (fun _ _ _ _ _ heq => by cases heq)
    m.server).trans hleads
  obtain ⟨b', hleads', hfollows'⟩ := hfollows.settle (sound_of_leads hstarts ha)
  have hstarted : (m.start id c.program background).ready = [id] := by
    show m.ready ++ [id] = [id]
    rw [hready]
    rfl
  rw [Session.settle_of_ready hstarted, htidy.advance, hwaits]
  exact ⟨b', hstarts.trans hleads', hfollows'⟩

/-- What becomes of a session when a task is dismissed and the resolver notes that. -/
theorem Follows.dismiss (h : Follows bound m a) {t : Task} (ht : a.tasks id = some t)
    {ready : List TaskId}
    (htidy : ({ m.dismiss id with ready } : Session Call.Outcome).Tidy
      (t.phase.release id m.store.resolver).queue) :
    ∃ b, Exchange.Leads ⟨a, m.server⟩ ⟨b, m.server⟩ ∧
      Follows bound (({ m.dismiss id with ready } : Session Call.Outcome).setResolver
        (t.phase.release id m.store.resolver)) b := by
  have hdropped := Exchange.leads_of_step (.drop ht) (fun _ _ _ _ _ heq => by cases heq) m.server
  refine ⟨_, hdropped, ?_, ?_, h.results, h.bounded, ?_⟩
  · rw [h.store]
    rfl
  · intro x
    show Alike ((m.dismiss id).waiting? x) (Function.update a.tasks id none x)
    rw [Session.waiting?_dismiss]
    by_cases hx : x = id
    · rw [if_pos hx, hx, Function.update_self]
      exact .ended
    · rw [if_neg hx, Function.update_of_ne hx]
      exact h.tasks x
  · exact htidy.of_same_lists rfl rfl rfl fun _ => rfl

theorem Follows.drop (h : Follows bound m a) (id : TaskId) :
    ∃ b, Exchange.Leads ⟨a, m.server⟩ ⟨b, (m.drop id).server⟩ ∧ Follows bound (m.drop id) b := by
  have halike := h.tasks id
  unfold Session.drop
  cases htask : m.tasks.get? id with
  | none => exact ⟨a, .refl _, h⟩
  | some task =>
    have hwaits : m.waiting? id = some task.waiting := by
      unfold Session.waiting?
      rw [htask]
      rfl
    dsimp only
    split
    · have hsame := Session.waiting?_insert htask { task with abandoned := true } rfl
      refine ⟨a, .refl _, h.store, ?_, h.results, h.bounded,
        h.tidy.of_same_lists rfl rfl rfl hsame⟩
      intro x
      rw [hsame]
      exact h.tasks x
    · have hdismiss : (∀ next, task.waiting ≠ .queued next) →
          (m.dismiss id).Tidy m.store.resolver.queue := by
        intro hne
        apply h.tidy.dismiss_of_not_queues
        rintro ⟨next, hnext⟩
        rw [hwaits] at hnext
        exact hne next (Option.some.inj hnext)
      rw [(h.tidy.dismiss id).switchTo]
      rw [hwaits] at halike
      generalize task.waiting = w at halike hdismiss
      generalize ht : a.tasks id = t at halike
      cases halike with
      | asking =>
        apply h.dismiss ht
        apply hdismiss
        intro next hnext
        contradiction
      | discovering =>
        apply h.dismiss ht
        refine (hdismiss ?_).wake fun hx => hx
        intro next hnext
        contradiction
      | queued =>
        have htidy := h.tidy.dismiss id
        rw [← Resolver.queue_leave] at htidy
        exact h.dismiss ht htidy
      | informed =>
        apply h.dismiss ht
        apply hdismiss
        intro next hnext
        contradiction

/-- Whatever happens in a session happens in the exchange. -/
theorem Follows.incident (h : Follows bound m a) (ha : a.Sound) (i : Session.Incident) :
    ∃ b, Exchange.Leads ⟨a, m.server⟩ ⟨b, (i.on m).server⟩ ∧ Follows bound (i.on m) b := by
  cases i with
  | hold op => exact ⟨a, .refl _, h.store, h.tasks, h.results, h.bounded, h.tidy.hold op⟩
  | release op => exact ⟨a, .refl _, h.store, h.tasks, h.results, h.bounded, h.tidy.release op⟩
  | drop id => exact h.drop id
  | deed d =>
    have hstore : d.on a.store = d.on m.store := congrArg d.on h.store
    have hdone : Step a (.deed d) _ := .deed d
    refine ⟨_, Exchange.leads_of_step hdone (fun _ _ _ _ _ heq => by cases heq) m.server, hstore,
      h.tasks, h.results, h.bounded, ?_⟩
    show Session.Tidy _ (d.on m.store).resolver.queue
    rw [d.resolver_on (h.store ▸ ha.store)]
    exact h.tidy.of_same_lists rfl rfl rfl fun _ => rfl
  | takeEnded =>
    exact ⟨a, .refl _, h.store, h.tasks, List.nil_subset _, h.bounded,
      h.tidy.of_same_lists rfl rfl rfl fun _ => rfl⟩

theorem Follows.onServer (h : Follows bound m a) (f : Server → Server) :
    Follows bound (m.onServer f) a :=
  ⟨h.store, h.tasks, h.results, h.bounded, h.tidy.of_same_lists rfl rfl rfl fun _ => rfl⟩

theorem follows_start (server : Server) (config : Config) (clock : Instant)
    (defaults : Option Defaults) (cache : Cache) :
    Follows 0 { server, store := Store.fresh config clock defaults cache }
      (start config clock defaults cache) := by
  have hempty : (Store.fresh config clock defaults cache).resolver.queue = [] := by
    cases defaults <;> rfl
  have hgates : ∀ {op : Operation} {id : TaskId},
      id ∉ (Keyed.empty : Keyed Operation (List TaskId)).getD op [] :=
    fun {_ _} => List.not_mem_nil
  refine ⟨rfl, fun _ => .ended, List.Subset.refl _, Nat.le_refl _, rfl, ?_, ?_, ?_, ?_⟩
  · intro op id hid
    exact absurd hid hgates
  · intro op id _
    exact hgates
  · intro id hid
    exact absurd hid List.not_mem_nil
  · intro id hid
    rw [hempty] at hid
    exact absurd hid List.not_mem_nil

theorem Reachable.of_leads {b : Activity} {server server' : Server} (ha : a.Reachable)
    (h : Exchange.Leads ⟨a, server⟩ ⟨b, server'⟩) : b.Reachable := by
  obtain ⟨ts, hrun⟩ := h.exists_run
  exact ha.run hrun

variable {server : Server} {Changes : (Server → Server) → Prop}

/-- Every session with one store is followed by an activity that can come about, and a run of
exchanges leads there if all changes of the server are incidents. -/
theorem follows_of_arises (h : Session.Arises server Changes bound m) :
    ∃ a, a.Reachable ∧ Follows bound m a ∧
      ((∀ f, Changes f → ∃ i : Server.Incident, f = i.on) → ∃ config clock defaults cache,
        Exchange.Leads ⟨start config clock defaults cache, server⟩ ⟨a, m.server⟩) := by
  induction h with
  | fresh config clock defaults cache =>
    exact ⟨_, .start config clock defaults cache, follows_start server config clock defaults cache,
      fun _ => ⟨config, clock, defaults, cache, .refl _⟩⟩
  | call h hid c background ih =>
    obtain ⟨a, ha, hfollows, hfrom⟩ := ih
    obtain ⟨b, hleads, hfollows'⟩ := hfollows.call ha.sound h.ready_eq_nil hid c background
    refine ⟨b, ha.of_leads hleads, hfollows', fun hchanges => ?_⟩
    obtain ⟨config, clock, defaults, cache, hbefore⟩ := hfrom hchanges
    exact ⟨config, clock, defaults, cache, hbefore.trans hleads⟩
  | incident h i ih =>
    obtain ⟨a, ha, hfollows, hfrom⟩ := ih
    obtain ⟨b, hleads, hfollows'⟩ := hfollows.incident ha.sound i
    obtain ⟨b', hleads', hfollows''⟩ := hfollows'.settle (sound_of_leads hleads ha.sound)
    refine ⟨b', (ha.of_leads hleads).of_leads hleads', hfollows'', fun hchanges => ?_⟩
    obtain ⟨config, clock, defaults, cache, hbefore⟩ := hfrom hchanges
    exact ⟨config, clock, defaults, cache, (hbefore.trans hleads).trans hleads'⟩
  | onServer h hf ih =>
    obtain ⟨a, ha, hfollows, hfrom⟩ := ih
    obtain ⟨b, hleads, hfollows'⟩ := (hfollows.onServer _).settle ha.sound
    refine ⟨b, ha.of_leads hleads, hfollows', fun hchanges => ?_⟩
    obtain ⟨config, clock, defaults, cache, hbefore⟩ := hfrom hchanges
    obtain ⟨i, rfl⟩ := hchanges _ hf
    exact ⟨config, clock, defaults, cache, (hbefore.step (.incident i)).trans hleads⟩

/-- Every session with one store is followed by an activity that can come about. -/
theorem exists_follows (h : Session.Arises server Changes bound m) :
    ∃ a, a.Reachable ∧ Follows bound m a := by
  obtain ⟨a, ha, hfollows, -⟩ := follows_of_arises h
  exact ⟨a, ha, hfollows⟩

end Activity

/-- Every session with one store and a server that holds nothing at first, and to which nothing
happens but its incidents, stands where a run of exchanges leads. -/
theorem Exchange.exists_exchange {bound : TaskId} {m : Session Call.Outcome}
    (h : Session.Arises {} (fun f => ∃ i : Server.Incident, f = i.on) bound m) :
    ∃ config clock defaults cache xs x, Run (start config clock defaults cache) xs x ∧
      x.server = m.server ∧ Activity.Follows bound m x.activity := by
  obtain ⟨a, -, hfollows, hfrom⟩ := Activity.follows_of_arises h
  obtain ⟨config, clock, defaults, cache, xs, hrun⟩ := hfrom fun _ hf => hf
  exact ⟨config, clock, defaults, cache, xs, ⟨a, m.server⟩, hrun, rfl, hfollows⟩

end TiddlerShelf
