import TiddlerShelf.Proofs.Bookkeeping
import TiddlerShelf.Proofs.Exchange

/-! # Tasks of sessions at work

A session lets its tasks go on one after the other, and its server answers at once unless requests
are held. `Follows` says that an activity stands where a session does. Letting a task of the
session go on until it ends or has to wait is then a run of exchanges between the activity and the
server (`goesAlike`), through as many stretches of the call as the server answers at once. -/

namespace TiddlerShelf

open Program

/-- The contract of stretches that are steady. -/
def Program.steadily : Contract := fun _ s₀ s _ => s₀.Sound → s₀.Steady s

theorem Call.keeps_steadily {c : Call} {p : Program Call.Outcome} {k : Cause} {s₀ s : Store}
    (h : p.Keeps c.Edits k s₀ s) : p.Keeps steadily k s₀ s :=
  h.imp fun _ _ _ _ hedits => Call.steady_of_edits hedits

namespace Activity

/-- Whether a task of an activity stands where a task of a session does. -/
inductive Alike : Option (Session.Waiting Call.Outcome) → Option Task → Prop
  | ended : Alike none none
  | asking {c : Call} {r : Request} {since : Store}
    {next : Except RemoteError r.Reply → Program Call.Outcome} :
    Alike (some (.answer r next)) (some ⟨c, .asking r since next⟩)
  | discovering {c : Call} {next : Except StoreError Defaults → Program Call.Outcome} :
    Alike (some (.discovery next)) (some ⟨c, .discovering next⟩)
  | queued {c : Call} {next : Except StoreError Defaults → Program Call.Outcome} :
    Alike (some (.queued next)) (some ⟨c, .queued next⟩)
  | informed {c : Call} {result : Except StoreError Defaults}
    {next : Except StoreError Defaults → Program Call.Outcome} :
    Alike (some (.turn (next result))) (some ⟨c, .informed result next⟩)

/-- Whether an activity stands where a session does in which all tasks so far have lower numbers
than `bound`. -/
structure Follows (bound : TaskId) (m : Session Call.Outcome) (a : Activity) : Prop where
  store : a.store = m.store
  tasks : ∀ id, Alike (m.waiting? id) (a.tasks id)
  results : m.ended ⊆ a.ended
  bounded : a.fresh ≤ bound
  tidy : m.Tidy m.store.resolver.queue

/-- Whether an activity stands where a session does, but for a task that is going on. -/
structure Working (bound id : TaskId) (queue : List TaskId) (m : Session Call.Outcome)
    (a : Activity) : Prop where
  store : a.store = m.store
  tasks : ∀ {x}, x ≠ id → Alike (m.waiting? x) (a.tasks x)
  results : m.ended ⊆ a.ended
  bounded : a.fresh ≤ bound
  tidy : m.Tidy queue
  unlisted : m.Unlisted queue id
  present : m.waiting? id ≠ none

variable {bound id : TaskId} {queue : List TaskId} {m : Session Call.Outcome} {a : Activity}

/-- When the task that is going on has to wait, or ends, in both alike, the activity stands where
the session does. -/
theorem Working.follows (h : Working bound id queue m a) {n : Session Call.Outcome} {b : Activity}
    {u : Option Task} (hagree : Session.AgreeBut id m n) (htidy : n.Tidy n.store.resolver.queue)
    (hstore : b.store = n.store) (hresults : n.ended ⊆ b.ended) (hfresh : b.fresh = a.fresh)
    (htasks : b.tasks = Function.update a.tasks id u) (hu : Alike (n.waiting? id) u) :
    Follows bound n b := by
  refine ⟨hstore, ?_, hresults, ?_, htidy⟩
  · intro x
    rw [htasks]
    by_cases hx : x = id
    · rw [hx, Function.update_self]
      exact hu
    · rw [Function.update_of_ne hx, Session.waiting?_eq_of_agreeBut hagree hx]
      exact h.tasks hx
  · rw [hfresh]
    exact h.bounded

/-- What has changed on the server makes no difference. -/
theorem Working.onServer (h : Working bound id queue m a) (server : Server) :
    Working bound id queue { m with server } a :=
  ⟨h.store, h.tasks, h.results, h.bounded, h.tidy.of_same_lists rfl rfl rfl fun _ => rfl,
    ⟨h.unlisted.idle, h.unlisted.ungated, h.unlisted.unqueued⟩, h.present⟩

/-- Neither does what the program has come to so far. -/
theorem Working.onStore (h : Working bound id queue m a) (s : Store) :
    Working bound id queue { m with store := s } { a with store := s } :=
  ⟨rfl, h.tasks, h.results, h.bounded, h.tidy.of_same_lists rfl rfl rfl fun _ => rfl,
    ⟨h.unlisted.idle, h.unlisted.ungated, h.unlisted.unqueued⟩, h.present⟩

theorem Working.finish (h : Working bound id queue m a) (hqueue : m.store.resolver.queue = queue)
    (c : Call) (o : Call.Outcome) : Follows bound (m.finish id o) (a.goOn id c (.done o)) := by
  have hstore : (m.finish id o).store = m.store := by
    unfold Session.finish
    split <;> rfl
  have hended : (m.finish id o).ended ⊆ m.ended ++ [(id, o)] := by
    unfold Session.finish
    split
    · dsimp only
      split
      · exact List.subset_append_left _ _
      · exact List.Subset.refl _
    · exact List.subset_append_left _ _
  refine h.follows (Session.agreeBut_finish id m o) ?_ ?_ ?_ rfl rfl ?_
  · rw [hstore, hqueue]
    exact h.tidy.finish h.unlisted o
  · rw [hstore]
    exact h.store
  · intro e he
    rcases List.mem_append.1 (hended he) with hold | hnew
    · exact List.mem_append_left _ (h.results hold)
    · exact List.mem_append_right _ hnew
  · rw [Session.waiting?_finish]
    exact .ended

theorem Working.park (h : Working bound id queue m a) (hqueue : m.store.resolver.queue = queue)
    {op : Operation} {w : Session.Waiting Call.Outcome} (hw : w.gate? = some op) {t : Task}
    (halike : Alike (some w) (some t)) :
    Follows bound (m.park id op w) (a.setTask id (some t)) := by
  have hstore : (m.park id op w).store = m.store := Session.store_wait m id w
  have hended : (m.park id op w).ended = m.ended := Session.ended_wait m id w
  have hwaits : (m.park id op w).waiting? id = some w := Session.waiting?_wait h.present w
  refine h.follows (Session.agreeBut_park id m op w) ?_ ?_ ?_ rfl rfl ?_
  · rw [hstore, hqueue]
    exact h.tidy.park h.unlisted h.present hw
  · rw [hstore]
    exact h.store
  · rw [hended]
    exact h.results
  · rw [hwaits]
    exact halike

theorem Working.enqueue {ids : List TaskId} (h : Working bound id ids m a)
    (hqueue : m.store.resolver.queue = ids ++ [id])
    (next : Except StoreError Defaults → Program Call.Outcome) (c : Call) :
    Follows bound (m.wait id (.queued next)) (a.setTask id (some ⟨c, .queued next⟩)) := by
  refine h.follows (Session.agreeBut_wait id m _) ?_ ?_ ?_ rfl rfl ?_
  · rw [Session.store_wait, hqueue]
    exact h.tidy.enqueue h.unlisted h.present next
  · rw [Session.store_wait]
    exact h.store
  · rw [Session.ended_wait]
    exact h.results
  · rw [Session.waiting?_wait h.present]
    exact .queued

/-- How far finding out the defaults is makes no difference to a task that is going on. -/
theorem Working.setResolver (h : Working bound id queue m a) (resolver : Resolver) :
    Working bound id queue (m.setResolver resolver)
      { a with store := a.store.withResolver resolver } := by
  rw [h.store]
  exact h.onStore _

/-- Neither does where it waited. -/
theorem Working.setTask (h : Working bound id queue m a) (t : Option Task) :
    Working bound id queue m (a.setTask id t) := by
  refine ⟨h.store, ?_, h.results, h.bounded, h.tidy, h.unlisted, h.present⟩
  intro x hx
  have hupdate : (a.setTask id t).tasks x = a.tasks x := Function.update_of_ne hx _ _
  rw [hupdate]
  exact h.tasks hx

theorem goOn_resolved {a : Activity} {c : Call} {d : Defaults}
    (h : a.store.resolver = .resolved d)
    (next : Except StoreError Defaults → Program Call.Outcome) :
    a.goOn id c (.resolve next) = a.goOn id c (next (.ok d)) := by
  have hproceed : (Program.resolve next).proceed a.store = (next (.ok d)).proceed a.store := by
    simp only [Program.proceed, h]
  unfold goOn
  rw [hproceed]

/-- A task that waits for the defaults queues if another one finds them out. -/
theorem goOn_discovering {a : Activity} {c : Call} {ids : List TaskId}
    (h : a.store.resolver = .discovering ids)
    (next : Except StoreError Defaults → Program Call.Outcome) :
    a.goOn id c (.resolve next) =
      ({ a with store := a.store.withResolver (.discovering (ids ++ [id])) } : Activity).setTask id
        (some ⟨c, .queued next⟩) := by
  have hproceed : (Program.resolve next).proceed a.store = (a.store, .resolving next) := by
    simp only [Program.proceed, h]
  unfold goOn
  rw [hproceed]
  simp only [h, Resolver.enqueue, setTask]

/-- It has them found out if no other one does. -/
theorem goOn_unresolved {a : Activity} {c : Call} (h : a.store.resolver = .unresolved)
    (next : Except StoreError Defaults → Program Call.Outcome) :
    a.goOn id c (.resolve next) =
      ({ a with store := a.store.withResolver (.discovering []) } : Activity).setTask id
        (some ⟨c, .discovering next⟩) := by
  have hproceed : (Program.resolve next).proceed a.store = (a.store, .resolving next) := by
    simp only [Program.proceed, h]
  unfold goOn
  rw [hproceed]
  simp only [h, setTask]

/-- Where the defaults are found out at once, nobody queues for them. -/
theorem inform_of_queue_nil {a : Activity} (h : a.store.resolver.queue = [])
    (result : Except StoreError Defaults) :
    a.inform result = { a with store := a.store.withResolver (.ofResult result) } := by
  unfold inform
  rw [h]
  simp

/-- Finding out the defaults goes on in an exchange, and the server has answered. -/
theorem leads_learn {a b : Activity} {c : Call} {result : Except StoreError Defaults}
    (h : Step a (.go id c (.resolved result)) b) (server : Server) :
    Exchange.Leads ⟨a, server⟩ ⟨b, (server.answer .discover).2⟩ := by
  have hlearns := Exchange.leads_of_step h (fun _ _ _ _ _ heq => by cases heq) server
  exact hlearns.step (.incident (.answer .discover))

/-- Where the server says at once where the client is, the task that has asked goes on with that. -/
theorem Working.discover (h : Working bound id [] m a)
    (hunresolved : a.store.resolver = .unresolved) (c : Call)
    (next : Except StoreError Defaults → Program Call.Outcome) :
    ∃ b, Step (a.goOn id c (.resolve next)) (.go id c (.resolved m.discover.1))
        (b.goOn id c (next m.discover.1)) ∧ Working bound id [] m.discover.2 b := by
  rw [goOn_unresolved hunresolved]
  have htask : (({ a with store := a.store.withResolver (.discovering []) } : Activity).setTask id
      (some ⟨c, .discovering next⟩)).tasks id = some ⟨c, .discovering next⟩ :=
    Function.update_self _ _ _
  have hresult : Session.defaultsOf a.store.host (m.server.answer .discover).1 = m.discover.1 := by
    rw [h.store]
    rfl
  refine ⟨_, .learn htask hresult, ?_⟩
  rw [inform_of_queue_nil rfl]
  exact ((h.onServer _).setResolver _).setTask _

/-- Whether it is a run of exchanges when a task of a session goes on with a program until it ends
or has to wait. -/
def GoesAlike (bound id : TaskId) (c : Call) (p : Program Call.Outcome) : Prop :=
  ∀ {m : Session Call.Outcome} {a : Activity} {k : Cause} {s₀ : Store},
    Working bound id s₀.resolver.queue m a → s₀.Sound → p.Keeps steadily k s₀ m.store →
      ∃ b, Exchange.Leads ⟨a.goOn id c p, m.server⟩ ⟨b, (Session.run id p m).server⟩ ∧
        Follows bound (Session.run id p m) b

theorem goesAlike_done (c : Call) (o : Call.Outcome) : GoesAlike bound id c (.done o) := by
  intro m a k s₀ h hs₀ hp
  have hsteady : s₀.Steady m.store := hp hs₀
  have hserver : (m.finish id o).server = m.server := by
    unfold Session.finish
    split <;> rfl
  refine ⟨_, ?_, h.finish (congrArg Resolver.queue hsteady.resolver) c o⟩
  show Exchange.Leads _ ⟨_, (m.finish id o).server⟩
  rw [hserver]
  exact .refl _

/-- Whenever the task asks a server that answers at once, it goes on with the answer. -/
theorem goesAlike_ask {c : Call} {r : Request}
    {next : Except RemoteError r.Reply → Program Call.Outcome}
    (hnext : ∀ answer, GoesAlike bound id c (next answer)) :
    GoesAlike bound id c (.ask r next) := by
  intro m a k s₀ h hs₀ hp
  have hsteady : s₀.Steady m.store := hp.1 hs₀
  have hqueue := congrArg Resolver.queue hsteady.resolver
  have hreceived := h.onServer (m.server.receive r)
  have hgo : a.goOn id c (.ask r next) = a.setTask id (some ⟨c, .asking r a.store next⟩) := rfl
  rw [hgo]
  have hasked := (Exchange.Leads.refl ⟨a.setTask id (some ⟨c, .asking r a.store next⟩),
    m.server⟩).step (.incident (.receive r))
  simp only [Session.run]
  split
  · refine ⟨_, ?_, hreceived.park (t := ⟨c, .asking r a.store next⟩) hqueue rfl .asking⟩
    show Exchange.Leads _ ⟨_, (Session.wait _ id _).server⟩
    rw [Session.server_wait]
    exact hasked
  · have htask : (a.setTask id (some ⟨c, .asking r a.store next⟩)).tasks id =
        some ⟨c, .asking r a.store next⟩ := Function.update_self _ _ _
    have hanswered := (h.setTask (some ⟨c, .asking r a.store next⟩)).onServer
      ((m.server.receive r).answer r).2
    rw [← hqueue] at hanswered
    obtain ⟨b, hleads, hfollows⟩ :=
      hnext ((m.server.receive r).answer r).1 hanswered hsteady.sound (hp.2 _ _)
    exact ⟨b, (hasked.step (.answered (.answer htask _))).trans hleads, hfollows⟩

/-- Where nobody finds out the defaults yet, the task has them found out. -/
theorem Working.exists_leads_of_unresolved {s₀ : Store}
    (h : Working bound id s₀.resolver.queue m a) (hsteady : s₀.Steady m.store)
    (hresolver : m.store.resolver = .unresolved) {c : Call}
    {next : Except StoreError Defaults → Program Call.Outcome}
    (hgo : ∀ result, GoesAlike bound id c (next result))
    (hnext : ∀ result s', (next result).Keeps steadily (.resolved result) s' s') :
    ∃ b, Exchange.Leads ⟨a.goOn id c (.resolve next), m.server⟩
        ⟨b, (Session.run id (.resolve next) m).server⟩ ∧
      Follows bound (Session.run id (.resolve next) m) b := by
  have hqueue : s₀.resolver.queue = [] := by
    rw [← hsteady.resolver, hresolver]
    rfl
  rw [hqueue] at h
  have hreceived := h.onServer (m.server.receive .discover)
  have hasked := (Exchange.Leads.refl ⟨a.goOn id c (.resolve next), m.server⟩).step
    (.incident (.receive .discover))
  simp only [Session.run, hresolver]
  split
  · rw [goOn_unresolved (h.store ▸ hresolver)] at hasked ⊢
    have hparked := (hreceived.setResolver (.discovering [])).park
      (t := ⟨c, .discovering next⟩) rfl rfl .discovering
    refine ⟨_, ?_, hparked⟩
    show Exchange.Leads _ ⟨_, (Session.wait _ id _).server⟩
    rw [Session.server_wait]
    exact hasked
  · obtain ⟨b, hstep, hworking⟩ := hreceived.discover (h.store ▸ hresolver) c next
    have hsound : (({ m with server := m.server.receive .discover } :
        Session Call.Outcome).discover.2.store).Sound := hsteady.sound.withResolver _
    have hempty : (({ m with server := m.server.receive .discover } :
        Session Call.Outcome).discover.2.store).resolver.queue = [] := Resolver.queue_ofResult _
    rw [← hempty] at hworking
    obtain ⟨b', hleads, hfollows⟩ := hgo _ hworking hsound (hnext _ _)
    exact ⟨b', (hasked.trans (leads_learn hstep _)).trans hleads, hfollows⟩

theorem goesAlike_resolve {c : Call} {next : Except StoreError Defaults → Program Call.Outcome}
    (hnext : ∀ result, GoesAlike bound id c (next result)) :
    GoesAlike bound id c (.resolve next) := by
  intro m a k s₀ h hs₀ hp
  cases hresolver : m.store.resolver with
  | resolved d =>
    have hrun : Session.run id (.resolve next) m = Session.run id (next (.ok d)) m := by
      simp only [Session.run, hresolver]
    rw [goOn_resolved (h.store ▸ hresolver), hrun]
    exact hnext (.ok d) h hs₀ ((keeps_resolve_of_known hresolver).1 hp)
  | discovering ids =>
    have hrun : Session.run id (.resolve next) m =
        (m.setResolver (.discovering (ids ++ [id]))).wait id (.queued next) := by
      simp only [Session.run, hresolver, Resolver.enqueue]
    obtain ⟨hsteady, -⟩ := (keeps_resolve_of_unknown (by simp [hresolver])).1 hp
    have hqueue : s₀.resolver.queue = ids := by
      rw [← (hsteady hs₀).resolver, hresolver]
      rfl
    rw [goOn_discovering (h.store ▸ hresolver), hrun]
    rw [hqueue] at h
    refine ⟨_, ?_, (h.setResolver _).enqueue rfl next c⟩
    rw [Session.server_wait]
    exact .refl _
  | unresolved =>
    obtain ⟨hsteady, hkeeps⟩ := (keeps_resolve_of_unknown (by simp [hresolver])).1 hp
    exact h.exists_leads_of_unresolved (hsteady hs₀) hresolver hnext hkeeps

/-- Letting a task go on in a session until it ends or has to wait is a run of exchanges. -/
theorem goesAlike (c : Call) (p : Program Call.Outcome) : GoesAlike bound id c p := by
  induction p with
  | done o => exact goesAlike_done c o
  | look next ih =>
    intro m a k s₀ h hs₀ hp
    have hgo : a.goOn id c (.look next) = a.goOn id c (next m.store) := by
      rw [← h.store]
      rfl
    rw [hgo]
    exact ih m.store h hs₀ hp
  | write s next ih =>
    intro m a k s₀ h hs₀ hp
    exact ih (m := { m with store := s }) (a := { a with store := s }) (h.onStore s) hs₀ hp
  | ask r next ih => exact goesAlike_ask ih
  | resolve next ih => exact goesAlike_resolve ih

/-- A ready task that is about to go on. -/
theorem Follows.working (h : Follows bound m a) (hid : id ∈ m.ready) (hm : m.waiting? id ≠ none) :
    Working bound id m.store.resolver.queue (m.unready id) a :=
  ⟨h.store, fun {x} _ => h.tasks x, h.results, h.bounded, h.tidy.unready id,
    h.tidy.unlisted hid, hm⟩

theorem Alike.inform {w : Option (Session.Waiting Call.Outcome)} {t : Option Task} (h : Alike w t)
    (result : Except StoreError Defaults) :
    Alike (w.map (Session.Waiting.deliver result)) (t.map (Task.inform result)) := by
  cases h with
  | ended => exact .ended
  | asking => exact .asking
  | discovering => exact .discovering
  | queued => exact .informed
  | informed => exact .informed

/-- What has become of finding out the defaults is given to the same tasks. -/
theorem Working.conclude (h : Working bound id m.store.resolver.queue m a) :
    Working bound id [] m.conclude.2 (a.inform m.conclude.1) := by
  refine ⟨?_, ?_, ?_, h.bounded, h.tidy.conclude, ⟨?_, ?_, List.not_mem_nil⟩, ?_⟩
  · show a.store.withResolver _ = (List.foldl _ _ _ : Session Call.Outcome).store
    rw [Session.store_foldl_deliver, h.store]
    rfl
  · intro x hx
    show Alike ((List.foldl _ _ _ : Session Call.Outcome).waiting? x)
      (if x ∈ a.store.resolver.queue then (a.tasks x).map (Task.inform _) else a.tasks x)
    rw [Session.waiting?_foldl_deliver, h.store]
    split
    · exact (h.tasks hx).inform _
    · exact h.tasks hx
  · show (List.foldl _ _ _ : Session Call.Outcome).ended ⊆ _
    rw [Session.ended_foldl_deliver]
    exact h.results
  · intro hid
    rcases Session.mem_ready_of_foldl_deliver hid with hready | hqueue
    · exact h.unlisted.idle hready
    · exact h.unlisted.unqueued hqueue
  · intro op
    show id ∉ (List.foldl _ _ _ : Session Call.Outcome).gates.getD op []
    rw [Session.gates_foldl_deliver]
    exact h.unlisted.ungated op
  · show (List.foldl _ _ _ : Session Call.Outcome).waiting? id ≠ none
    rw [Session.waiting?_foldl_deliver, if_neg h.unlisted.unqueued]
    exact h.present

/-- Letting a ready task of a session go on is a run of exchanges. -/
theorem Follows.advance (h : Follows bound m a) (ha : a.Sound) (hid : id ∈ m.ready) :
    ∃ b, Exchange.Leads ⟨a, m.server⟩ ⟨b, (m.advance id).server⟩ ∧
      Follows bound (m.advance id) b := by
  have hs : m.store.Sound := h.store ▸ ha.store
  have halike := h.tasks id
  have hadvance := h.tidy.advance id
  generalize hw : m.waiting? id = w at halike hadvance
  generalize ht : a.tasks id = t at halike
  rw [hadvance]
  cases halike with
  | ended =>
    refine ⟨a, .refl _, h.store, ?_, h.results, h.bounded, h.tidy.unready id⟩
    intro x
    exact h.tasks x
  | @asking c r since next =>
    have hworking := (h.working hid (hw ▸ Option.some_ne_none _)).onServer (m.server.answer r).2
    have hkeeps := (ha.tasks ht).2 (m.server.answer r).1 m.store
    obtain ⟨b, hleads, hfollows⟩ := goesAlike c _ hworking hs (Call.keeps_steadily hkeeps)
    have hanswered : Exchange.Step ⟨a, m.server⟩ _ _ := .answered (.answer ht _)
    exact ⟨b, ((Exchange.Leads.refl _).step hanswered).trans hleads, hfollows⟩
  | @discovering c next =>
    have hworking := (h.working hid (hw ▸ Option.some_ne_none _)).conclude (m := m.unready id)
    have hresult : Session.defaultsOf a.store.host (m.server.answer .discover).1 =
        (m.unready id).conclude.1 := by
      rw [h.store]
      rfl
    have hstore : (m.unready id).conclude.2.store = (a.inform (m.unready id).conclude.1).store :=
      hworking.store.symm
    have hsound : (m.unready id).conclude.2.store.Sound := by
      rw [hstore]
      exact ha.store.withResolver _
    have hempty : (m.unready id).conclude.2.store.resolver.queue = [] := by
      rw [hstore]
      exact Resolver.queue_ofResult _
    rw [← hempty] at hworking
    have hkeeps := ha.tasks ht (m.unready id).conclude.1 (m.unready id).conclude.2.store
    obtain ⟨b, hleads, hfollows⟩ := goesAlike c _ hworking hsound (Call.keeps_steadily hkeeps)
    have hserver : (m.unready id).conclude.2.server = (m.server.answer .discover).2 :=
      Session.server_foldl_deliver _ _ _
    rw [hserver] at hleads
    exact ⟨b, (leads_learn (.learn ht hresult) m.server).trans hleads, hfollows⟩
  | @queued c next =>
    have hworking := h.working hid (hw ▸ Option.some_ne_none _)
    by_cases hresolved : ∃ d, m.store.resolver = .resolved d
    · obtain ⟨d, hd⟩ := hresolved
      have hgo : Session.run id (.resolve next) (m.unready id) =
          Session.run id (next (.ok d)) (m.unready id) := by
        have hresolver : (m.unready id).store.resolver = .resolved d := hd
        simp only [Session.run, hresolver]
      have hkeeps := ha.tasks ht (.ok d) m.store
      obtain ⟨b, hleads, hfollows⟩ := goesAlike c _ hworking hs (Call.keeps_steadily hkeeps)
      have hretried := Exchange.leads_of_step (.retry ht (h.store ▸ hd))
        (fun _ _ _ _ _ heq => by cases heq) m.server
      rw [← hgo] at hleads hfollows
      exact ⟨b, hretried.trans hleads, hfollows⟩
    · have hne : ∀ d, m.store.resolver ≠ .resolved d := fun d hd => hresolved ⟨d, hd⟩
      have hkeeps : (Program.resolve next).Keeps steadily (.resolved (.error .empty)) m.store
          m.store :=
        (keeps_resolve_of_unknown hne).2
          ⟨Store.Sound.steady, fun result s' => Call.keeps_steadily (ha.tasks ht result s')⟩
      obtain ⟨b, hleads, hfollows⟩ := goesAlike c _ hworking hs hkeeps
      have hqueue : id ∉ a.store.resolver.queue := by
        rw [h.store]
        exact h.tidy.due hid
      have hagain := Exchange.leads_of_step (.again ht hqueue (h.store ▸ hne))
        (fun _ _ _ _ _ heq => by cases heq) m.server
      exact ⟨b, hagain.trans hleads, hfollows⟩
  | @informed c result next =>
    have hworking := h.working hid (hw ▸ Option.some_ne_none _)
    have hkeeps := ha.tasks ht m.store
    obtain ⟨b, hleads, hfollows⟩ := goesAlike c _ hworking hs (Call.keeps_steadily hkeeps)
    have hinformed := Exchange.leads_of_step (.informed ht)
      (fun _ _ _ _ _ heq => by cases heq) m.server
    exact ⟨b, hinformed.trans hleads, hfollows⟩

end Activity

end TiddlerShelf
