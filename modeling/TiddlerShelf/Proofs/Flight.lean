import TiddlerShelf.Proofs.Bookkeeping
import TiddlerShelf.Proofs.Calls

/-! # One discovery at a time

Tasks that need the defaults leave it to the session to find them out: while one of them asks the
server, the others queue. `Flight` says what then holds of the tasks that wait, and it holds
whatever happens in a session with one store, in any order: tasks start, go on and are dropped,
requests are held and released, and the server changes its mind. -/

namespace TiddlerShelf

open Program

/-! ## Programs that leave the defaults to the session -/

/-- The contract of stretches that leave it to the session to find out the defaults: they leave the
resolver as it is and never ask where the client is. -/
def Program.aloof : Contract := within (fun _ s₀ s => s.resolver = s₀.resolver) (· ≠ .discover)

/-- Whether all stretches of a program leave it to the session to find out the defaults. -/
def Program.Aloof {α : Type} (p : Program α) : Prop := ∀ k s, p.Keeps aloof k s s

namespace Program

variable {α : Type}

theorem Within.aloof {p : Program α}
    (h : Within (fun _ s₀ s => s.resolver = s₀.resolver) (· ≠ .discover) p) : p.Aloof :=
  fun _ _ => h.keeps rfl

/-- What has set a stretch going makes no difference to whether it leaves the defaults alone. -/
theorem Keeps.aloof_cause {p : Program α} {k : Cause} {s₀ s : Store} (h : p.Keeps aloof k s₀ s)
    (k' : Cause) : p.Keeps aloof k' s₀ s := by
  induction p generalizing s with
  | done a => exact h
  | look next ih => exact ih s h
  | write s next ih => exact ih h
  | ask r next ih => exact h
  | resolve next ih =>
    by_cases hknown : ∃ d, s.resolver = .resolved d
    · obtain ⟨d, hd⟩ := hknown
      rw [keeps_resolve_of_known hd] at h ⊢
      exact ih _ h
    · have hne : ∀ d, s.resolver ≠ .resolved d := fun d hd => hknown ⟨d, hd⟩
      rw [keeps_resolve_of_unknown hne] at h ⊢
      exact h

theorem aloof_of_forall {p : Program α} (h : ∀ s, ∃ k, p.Keeps aloof k s s) : p.Aloof := by
  intro k s
  obtain ⟨k', hk⟩ := h s
  exact hk.aloof_cause k

theorem aloof_resolve {next : Except StoreError Defaults → Program α}
    (h : ∀ result, (next result).Aloof) : (resolve next).Aloof := by
  intro k s
  unfold Keeps Meets
  split
  · exact h _ k s
  · exact ⟨within_waits rfl, fun result s' => h result _ s'⟩

theorem aloof_resolved : resolved.Aloof :=
  aloof_resolve fun result => Within.aloof (.pure result)

/-- Everything that a store does leaves it to the session to find out the defaults. -/
theorem upkeep_aloof : Upkeep (fun _ s₀ s => s.resolver = s₀.resolver) (· ≠ .discover) where
  failed _ _ := rfl
  found _ _ := (Store.quiet_moveTo _ _).resolver
  moveTo h _ := (Store.quiet_moveTo _ _).resolver.trans h
  fetch h := fun heq => by subst heq; exact h
  fetched _ _ _ _ := rfl
  register h _ _ := h
  fileSynced h _ := (Store.quiet_fileSynced _ _).resolver.trans h
  dropGone h _ := (Store.quiet_dropGone _ _).resolver.trans h
  put _ := Request.noConfusion
  afterPut since t answer s := by
    cases answer with
    | ok response =>
      refine (Store.quiet_acknowledge s _ t response).resolver.trans ?_
      cases s.acknowledged? (since.modifiedCopy? t) t <;> rfl
    | error cause =>
      show (s.takeBack _ t).resolver = _
      unfold Store.takeBack
      split <;> rfl
  delete _ := Request.noConfusion
  deleted _ _ _ _ := rfl
  fileModified h _ := h
  forget {_ _ s} h t := by
    refine (Store.quiet_forget s t).resolver.trans (Eq.trans ?_ h)
    cases s.modifiedCopy? t <;> rfl

end Program

/-- Every call leaves it to the session to find out the defaults. -/
theorem Call.aloof (c : Call) : c.program.Aloof := (c.within_program upkeep_aloof).aloof

namespace Session

variable {α : Type}

/-- Whether a task will leave it to the session to find out the defaults when it goes on. -/
def Waiting.Aloof : Waiting α → Prop
  | turn p => p.Aloof
  | answer _ next => ∀ answer, (next answer).Aloof
  | discovery next | queued next => ∀ result, (next result).Aloof

theorem isDiscovering_iff {m : Session α} {id : TaskId} :
    m.isDiscovering id = true ↔ ∃ next, m.waiting? id = some (.discovery next) := by
  unfold isDiscovering waiting?
  rw [Option.any_eq_true]
  constructor
  · rintro ⟨task, htask, hw⟩
    rw [htask, Option.map_some]
    cases hwaiting : task.waiting with
    | discovery next => exact ⟨next, rfl⟩
    | _ =>
      rw [hwaiting] at hw
      exact absurd hw Bool.false_ne_true
  · rintro ⟨next, hnext⟩
    obtain ⟨task, htask, hw⟩ := Option.map_eq_some_iff.1 hnext
    exact ⟨task, htask, by rw [hw]; rfl⟩

/-! ## What holds of the tasks that wait -/

/-- What holds in a session, at a state of the resolver, of the tasks that find out the defaults or
wait for them. Only the tasks that `rests` holds of are looked at. -/
structure Flight (m : Session α) (resolver : Resolver) (rests : TaskId → Prop) : Prop where
  tidy : m.Tidy resolver.queue
  single : ∀ {x y}, rests x → rests y → m.isDiscovering x = true → m.isDiscovering y = true → x = y
  underway : resolver.isDiscovering = true ↔ ∃ x, rests x ∧ m.isDiscovering x = true
  nodup : resolver.queue.Nodup
  heeded : ∀ {x}, rests x → m.Queues x → x ∈ resolver.queue ∨ x ∈ m.ready
  due : ∀ {x p}, rests x → m.waiting? x = some (.turn p) → x ∈ m.ready
  aloof : ∀ {x w}, rests x → m.waiting? x = some w → w.Aloof

/-- How a task that has gone on comes to rest, and what that makes of the resolver. -/
inductive Lands (id : TaskId) (resolver : Resolver) : Option (Waiting α) → Resolver → Prop
  | ended : Lands id resolver none resolver
  | asks {r : Request} {next : Except RemoteError r.Reply → Program α}
    (h : ∀ answer, (next answer).Aloof) : Lands id resolver (some (.answer r next)) resolver
  | queues {queue : List TaskId} {next : Except StoreError Defaults → Program α}
    (hr : resolver = .discovering queue) (h : ∀ result, (next result).Aloof) :
    Lands id resolver (some (.queued next)) (.discovering (queue ++ [id]))
  | discovers {next : Except StoreError Defaults → Program α} (hr : resolver = .unresolved)
    (h : ∀ result, (next result).Aloof) :
    Lands id resolver (some (.discovery next)) (.discovering [])

/-- All tasks but one. -/
abbrev AllBut (id : TaskId) : TaskId → Prop := fun x => x ≠ id

/-- All tasks. -/
abbrev Everyone : TaskId → Prop := fun _ => True

section

variable {m n : Session α} {resolver resolver' : Resolver} {id : TaskId} {w : Option (Waiting α)}

theorem Lands.mem_queue (h : Lands id resolver w resolver') {x : TaskId}
    (hx : x ∈ resolver.queue) : x ∈ resolver'.queue := by
  cases h with
  | ended => exact hx
  | asks _ => exact hx
  | queues hr _ => exact List.mem_append_left _ (hr ▸ hx :)
  | discovers hr _ => exact absurd (hr ▸ hx :) List.not_mem_nil

theorem Lands.nodup (h : Lands id resolver w resolver') (hnodup : resolver.queue.Nodup)
    (hid : id ∉ resolver.queue) : resolver'.queue.Nodup := by
  cases h with
  | ended => exact hnodup
  | asks _ => exact hnodup
  | queues hr _ =>
    subst hr
    exact List.perm_append_comm.nodup_iff.2 (List.nodup_cons.2 ⟨hid, hnodup⟩)
  | discovers _ _ => exact .nil

/-- A task that comes to queue is in the queue. -/
theorem Lands.queued {next : Except StoreError Defaults → Program α}
    (h : Lands id resolver (some (.queued next)) resolver') : id ∈ resolver'.queue := by
  cases h with
  | queues _ _ => exact List.mem_append_right _ (List.mem_singleton_self id)

theorem Lands.not_turn {p : Program α} (h : Lands id resolver (some (.turn p)) resolver') :
    False := by
  cases h

theorem Lands.aloof {v : Waiting α} (h : Lands id resolver (some v) resolver') : v.Aloof := by
  cases h with
  | asks h => exact h
  | queues _ h => exact h
  | discovers _ h => exact h

/-- A task comes to find out the defaults only where none does. -/
theorem Lands.unresolved {next : Except StoreError Defaults → Program α}
    (h : Lands id resolver (some (.discovery next)) resolver') : resolver = .unresolved := by
  cases h with
  | discovers hr _ => exact hr

theorem Lands.isDiscovering (h : Lands id resolver w resolver') :
    resolver'.isDiscovering = true ↔
      (∃ next, w = some (.discovery next)) ∨ resolver.isDiscovering = true := by
  cases h with
  | ended => simp
  | asks _ => simp
  | queues hr _ => simp [hr, Resolver.isDiscovering]
  | discovers _ _ => simp [Resolver.isDiscovering]

/-- When the one task that was going on has come to rest, all are at rest. -/
theorem Flight.lands (h : m.Flight resolver (AllBut id)) (hid : id ∉ resolver.queue)
    (hagree : AgreeBut id m n) (htidy : n.Tidy resolver'.queue)
    (hlands : Lands id resolver (n.waiting? id) resolver') : n.Flight resolver' Everyone := by
  have hold : ∀ {x}, x ≠ id → n.waiting? x = m.waiting? x :=
    fun hx => waiting?_eq_of_agreeBut hagree hx
  have hdiscovering : ∀ {x}, x ≠ id → (n.isDiscovering x = true ↔ m.isDiscovering x = true) := by
    intro x hx
    rw [isDiscovering_iff, isDiscovering_iff, hold hx]
  -- Where the task itself has begun to find out the defaults, no other one does.
  have hself : ∀ {x}, n.isDiscovering id = true → n.isDiscovering x = true → x = id := by
    intro x hid hx
    by_contra hne
    obtain ⟨next, hnext⟩ := isDiscovering_iff.1 hid
    rw [hnext] at hlands
    have hunderway := h.underway.2 ⟨x, hne, (hdiscovering hne).1 hx⟩
    rw [hlands.unresolved] at hunderway
    contradiction
  refine ⟨htidy, ?_, ?_, hlands.nodup h.nodup hid, ?_, ?_, ?_⟩
  · intro x y _ _ hx hy
    by_cases hxid : x = id
    · subst hxid
      exact (hself hx hy).symm
    · by_cases hyid : y = id
      · subst hyid
        exact hself hy hx
      · exact h.single hxid hyid ((hdiscovering hxid).1 hx) ((hdiscovering hyid).1 hy)
  · rw [hlands.isDiscovering, ← isDiscovering_iff, h.underway]
    constructor
    · rintro (hx | ⟨x, hxid, hx⟩)
      · exact ⟨id, trivial, hx⟩
      · exact ⟨x, trivial, (hdiscovering hxid).2 hx⟩
    · rintro ⟨x, -, hx⟩
      by_cases hxid : x = id
      · exact .inl (hxid ▸ hx)
      · exact .inr ⟨x, hxid, (hdiscovering hxid).1 hx⟩
  · rintro x - ⟨next, hnext⟩
    by_cases hx : x = id
    · subst hx
      rw [hnext] at hlands
      exact .inl hlands.queued
    · rw [hold hx] at hnext
      rw [hagree.1]
      exact (h.heeded hx ⟨next, hnext⟩).imp_left hlands.mem_queue
  · intro x p _ hp
    by_cases hx : x = id
    · subst hx
      rw [hp] at hlands
      exact hlands.not_turn.elim
    · rw [hold hx] at hp
      rw [hagree.1]
      exact h.due hx hp
  · intro x w _ hw
    by_cases hx : x = id
    · subst hx
      rw [hw] at hlands
      exact hlands.aloof
    · rw [hold hx] at hw
      exact h.aloof hx hw

/-- What leaves alone all tasks that are looked at keeps up what holds of them, if those in the
queue stay there or can go on, and the resolver still says whether one of them is discovering. -/
theorem Flight.change {rests rests' : TaskId → Prop} (h : m.Flight resolver rests)
    (htidy : n.Tidy resolver'.queue)
    (hunderway : resolver'.isDiscovering = true ↔ ∃ x, rests' x ∧ m.isDiscovering x = true)
    (hnodup : resolver'.queue.Nodup)
    (hqueue : ∀ {x}, rests' x → x ∈ resolver.queue → x ∈ resolver'.queue ∨ x ∈ n.ready)
    (hready : ∀ {x}, rests' x → x ∈ m.ready → x ∈ n.ready)
    (hsame : ∀ {x}, rests' x → rests x ∧ n.waiting? x = m.waiting? x) :
    n.Flight resolver' rests' := by
  have hdiscovering : ∀ {x}, rests' x → (n.isDiscovering x = true ↔ m.isDiscovering x = true) := by
    intro x hx
    rw [isDiscovering_iff, isDiscovering_iff, (hsame hx).2]
  refine ⟨htidy, ?_, ?_, hnodup, ?_, ?_, ?_⟩
  · intro x y hx hy hdx hdy
    exact h.single (hsame hx).1 (hsame hy).1 ((hdiscovering hx).1 hdx) ((hdiscovering hy).1 hdy)
  · rw [hunderway]
    exact exists_congr fun x => and_congr_right fun hx => (hdiscovering hx).symm
  · rintro x hx ⟨next, hnext⟩
    rw [(hsame hx).2] at hnext
    rcases h.heeded (hsame hx).1 ⟨next, hnext⟩ with hmem | hmem
    · exact hqueue hx hmem
    · exact .inr (hready hx hmem)
  · intro x p hx hp
    rw [(hsame hx).2] at hp
    exact hready hx (h.due (hsame hx).1 hp)
  · intro x w hx hw
    rw [(hsame hx).2] at hw
    exact h.aloof (hsame hx).1 hw

/-- Where the tasks are the same and the resolver is no further, the same holds. -/
theorem Flight.of_same {rests : TaskId → Prop} (h : m.Flight resolver rests)
    (htidy : n.Tidy resolver'.queue) (hqueue : resolver'.queue = resolver.queue)
    (hdiscovering : resolver'.isDiscovering = resolver.isDiscovering) (hready : m.ready ⊆ n.ready)
    (hsame : ∀ x, n.waiting? x = m.waiting? x) : n.Flight resolver' rests := by
  refine h.change htidy ?_ (hqueue ▸ h.nodup) ?_ (fun _ hx => hready hx) fun hx => ⟨hx, hsame _⟩
  · rw [hdiscovering]
    exact h.underway
  · intro x _ hx
    rw [hqueue]
    exact .inl hx

/-- A task that has ended is not to be looked at. -/
theorem Flight.everyone (h : m.Flight resolver (AllBut id)) (hid : id ∉ resolver.queue)
    (hnone : m.waiting? id = none) : m.Flight resolver Everyone :=
  h.lands hid (.refl id m) h.tidy (hnone ▸ .ended)

end

/-! ## One task goes on -/

theorem calls_receive {s : Server} {r : Request} (hr : r ≠ .discover) :
    (s.receive r).calls .discover = s.calls .discover := by
  have hcount : [r].countP (fun r => r.operation == .discover) = 0 := by
    cases r with
    | discover => exact absurd rfl hr
    | _ => rfl
  unfold Server.calls Server.receive
  rw [List.countP_append, hcount, Nat.add_zero]

theorem received_answer (s : Server) (r : Request) : (s.answer r).2.received = s.received := by
  have hdrop : ∀ bag title, (s.drop bag title).received = s.received := by
    intro bag title
    unfold Server.drop
    split <;> rfl
  unfold Server.answer
  split
  · rfl
  · cases r with
    | get wanted render =>
      simp only [Server.fulfil]
      split <;> rfl
    | put t =>
      simp only [Server.fulfil]
      split <;> rfl
    | delete t =>
      simp only [Server.fulfil]
      split
      · split
        · exact hdrop _ _
        · rfl
      · rfl
    | _ => rfl

theorem calls_answer (s : Server) (r : Request) (op : Operation) :
    (s.answer r).2.calls op = s.calls op := by
  unfold Server.calls
  rw [received_answer]

/-- What holds in a session, at a state of the resolver, while a task is going on. -/
structure Underway (m : Session α) (resolver : Resolver) (id : TaskId) : Prop where
  flight : m.Flight resolver (AllBut id)
  unlisted : m.Unlisted resolver.queue id
  present : m.waiting? id ≠ none

section

variable {m n : Session α} {resolver resolver' : Resolver} {id : TaskId}

/-- What has changed besides the tasks and their lists makes no difference. -/
theorem Underway.of_same (h : m.Underway resolver id) (hothers : n.others = m.others)
    (hgates : n.gates = m.gates) (hready : n.ready = m.ready) (htasks : n.tasks = m.tasks)
    (hqueue : resolver'.queue = resolver.queue)
    (hdiscovering : resolver'.isDiscovering = resolver.isDiscovering) :
    n.Underway resolver' id := by
  have hwaiting : ∀ x, n.waiting? x = m.waiting? x := by
    intro x
    unfold waiting?
    rw [htasks]
  have htidy := h.flight.tidy.of_same_lists hothers hgates hready hwaiting
  refine ⟨h.flight.of_same (hqueue ▸ htidy) hqueue hdiscovering (fun _ hx => hready ▸ hx) hwaiting,
    ⟨?_, ?_, ?_⟩, ?_⟩
  · rw [hready]
    exact h.unlisted.idle
  · rw [hgates]
    exact h.unlisted.ungated
  · rw [hqueue]
    exact h.unlisted.unqueued
  · rw [hwaiting]
    exact h.present

/-- The session after a task has come to rest at the gate of a kind of request. -/
theorem Underway.park (h : m.Underway resolver id) (hresolver : m.store.resolver = resolver')
    (hqueue : resolver'.queue = resolver.queue) {op : Operation} {w : Waiting α}
    (hw : w.gate? = some op) (hlands : Lands id resolver (some w) resolver') :
    (m.park id op w).Flight (m.park id op w).store.resolver Everyone := by
  have hstore : (m.park id op w).store = m.store := store_wait m id w
  have hwaits : (m.park id op w).waiting? id = some w := waiting?_wait h.present w
  rw [hstore, hresolver]
  refine h.flight.lands h.unlisted.unqueued (agreeBut_park id m op w) ?_ (hwaits ▸ hlands)
  rw [hqueue]
  exact h.flight.tidy.park h.unlisted h.present hw

theorem Underway.enqueue {queue : List TaskId} (h : m.Underway (.discovering queue) id)
    (hresolver : m.store.resolver = .discovering (queue ++ [id]))
    {next : Except StoreError Defaults → Program α} (hnext : ∀ result, (next result).Aloof) :
    (m.wait id (.queued next)).Flight (m.wait id (.queued next)).store.resolver Everyone := by
  rw [store_wait, hresolver]
  refine h.flight.lands h.unlisted.unqueued (agreeBut_wait id m _) ?_ ?_
  · exact h.flight.tidy.enqueue h.unlisted h.present next
  · rw [waiting?_wait h.present]
    exact .queues rfl hnext

theorem Underway.finish (h : m.Underway resolver id) (hresolver : m.store.resolver = resolver)
    (a : α) : (m.finish id a).Flight (m.finish id a).store.resolver Everyone := by
  have hstore : (m.finish id a).store = m.store := by
    unfold Session.finish
    split <;> rfl
  rw [hstore, hresolver]
  refine h.flight.lands h.unlisted.unqueued (agreeBut_finish id m a)
    (h.flight.tidy.finish h.unlisted a) ?_
  rw [waiting?_finish]
  exact .ended

/-- Letting a task go on brings it to rest. -/
theorem Underway.run {p : Program α} {k : Cause} {s₀ : Store} (h : m.Underway s₀.resolver id)
    (hp : p.Keeps Program.aloof k s₀ m.store) :
    (Session.run id p m).Flight (Session.run id p m).store.resolver Everyone := by
  induction p generalizing m k s₀ with
  | done a => exact h.finish hp.1 a
  | look next ih => exact ih m.store h hp
  | write s next ih =>
    exact ih (m := { m with store := s }) (h.of_same rfl rfl rfl rfl rfl rfl) hp
  | ask r next ih =>
    obtain ⟨⟨hresolver, -⟩, hnext⟩ := hp
    have hasked : ∀ server, ({ m with server } : Session α).Underway m.store.resolver id := by
      intro server
      rw [hresolver]
      exact h.of_same rfl rfl rfl rfl rfl rfl
    simp only [Session.run]
    split
    · apply (hasked (m.server.receive r)).park (w := .answer r next) rfl rfl rfl
      exact .asks fun answer => aloof_of_forall fun s => ⟨_, hnext answer s⟩
    · exact ih _ (hasked _) (hnext _ _)
  | resolve next ih =>
    unfold Keeps Meets at hp
    simp only [Session.run]
    split
    · rename_i d hd
      rw [hd] at hp
      exact ih _ h hp
    · rename_i queue hqueue
      rw [hqueue] at hp
      obtain ⟨⟨hresolver, -⟩, hnext⟩ := hp
      rw [← hresolver, hqueue] at h
      rw [hqueue]
      have hqueued : (m.setResolver (.discovering (queue ++ [id]))).Underway
          (.discovering queue) id := h.of_same rfl rfl rfl rfl rfl rfl
      exact hqueued.enqueue rfl fun result => aloof_of_forall fun s => ⟨_, hnext result s⟩
    · rename_i hunresolved
      rw [hunresolved] at hp
      obtain ⟨⟨hresolver, -⟩, hnext⟩ := hp
      rw [← hresolver, hunresolved] at h
      have hasked : ({ m with server := m.server.receive .discover } : Session α).Underway
          .unresolved id := h.of_same rfl rfl rfl rfl rfl rfl
      split
      · have hbegun : (({ m with server := m.server.receive .discover } : Session α).setResolver
            (.discovering [])).Underway .unresolved id := hasked.of_same rfl rfl rfl rfl rfl rfl
        apply hbegun.park (w := .discovery next) rfl rfl rfl
        exact .discovers rfl fun result => aloof_of_forall fun s => ⟨_, hnext result s⟩
      · have hfound : ∀ server (result : Except StoreError Defaults),
            (({ m with server } : Session α).setResolver (.ofResult result)).Underway
              (.ofResult result) id := fun _ result =>
          h.of_same rfl rfl rfl rfl (Resolver.queue_ofResult result)
            (Resolver.isDiscovering_ofResult result)
        refine ih _ ?_ (hnext _ _)
        exact hfound _ _

end

/-- Where the defaults are known, they stay so while a task goes on, and the server is not asked
where the client is. -/
theorem resolved_run {m : Session α} {id : TaskId} {p : Program α} {k : Cause} {s₀ : Store}
    {d : Defaults} (hd : s₀.resolver = .resolved d) (hp : p.Keeps Program.aloof k s₀ m.store) :
    (Session.run id p m).store.resolver = .resolved d ∧
      (Session.run id p m).server.calls .discover = m.server.calls .discover := by
  induction p generalizing m k s₀ with
  | done a =>
    have hfinish : (m.finish id a).store = m.store ∧ (m.finish id a).server = m.server := by
      unfold finish
      split <;> exact ⟨rfl, rfl⟩
    show (m.finish id a).store.resolver = _ ∧ (m.finish id a).server.calls _ = _
    rw [hfinish.1, hfinish.2]
    exact ⟨hp.1.trans hd, rfl⟩
  | look next ih => exact ih m.store hd hp
  | write s next ih => exact ih (m := { m with store := s }) hd hp
  | ask r next ih =>
    obtain ⟨⟨hresolver, hr⟩, hnext⟩ := hp
    have hcalls : (m.server.receive r).calls .discover = m.server.calls .discover :=
      calls_receive (hr r rfl)
    simp only [Session.run]
    split
    · refine ⟨?_, ?_⟩
      · show (wait _ id _).store.resolver = _
        rw [store_wait]
        exact hresolver.trans hd
      · show (wait _ id _).server.calls _ = _
        rw [server_wait]
        exact hcalls
    · obtain ⟨hknown, hsame⟩ := ih ((m.server.receive r).answer r).1
        (m := { m with server := ((m.server.receive r).answer r).2 }) (hresolver.trans hd)
        (hnext _ _)
      refine ⟨hknown, hsame.trans ?_⟩
      rw [calls_answer, hcalls]
  | resolve next ih =>
    unfold Keeps Meets at hp
    cases hresolver : m.store.resolver with
    | resolved d' =>
      simp only [Session.run, hresolver] at hp ⊢
      exact ih (.ok d') hd hp
    | discovering queue =>
      rw [hresolver] at hp
      have hsame : m.store.resolver = s₀.resolver := hp.1.1
      rw [hd, hresolver] at hsame
      contradiction
    | unresolved =>
      rw [hresolver] at hp
      have hsame : m.store.resolver = s₀.resolver := hp.1.1
      rw [hd, hresolver] at hsame
      contradiction

/-- Every queued task is handed what has become of finding out the defaults, in the order of the
queue. -/
theorem ready_foldl_deliver {m : Session α} {queue : List TaskId} (hnodup : queue.Nodup)
    (hqueue : ∀ {x}, x ∈ queue → m.Queues x) (result : Except StoreError Defaults) :
    (queue.foldl (deliver result) m).ready = m.ready ++ queue := by
  induction queue generalizing m with
  | nil => exact (List.append_nil _).symm
  | cons id queue ih =>
    obtain ⟨hid, hnodup⟩ := List.nodup_cons.1 hnodup
    obtain ⟨next, hnext⟩ := hqueue List.mem_cons_self
    have hready : (deliver result m id).ready = m.ready ++ [id] := by
      unfold deliver
      split
      · rfl
      · rename_i hne
        exact absurd hnext (hne next)
    rw [List.foldl_cons, ih hnodup, hready, List.append_assoc]
    · rfl
    · intro x hx
      have hne : x ≠ id := by
        rintro rfl
        exact hid hx
      obtain ⟨next, hnext⟩ := hqueue (List.mem_cons_of_mem id hx)
      refine ⟨next, ?_⟩
      rw [waiting?_deliver, if_neg hne]
      exact hnext

/-! ## The defaults have been found out -/

section

variable {m : Session α} {resolver : Resolver} {id : TaskId}

theorem resolver_conclude (m : Session α) : m.conclude.2.store.resolver = .ofResult m.conclude.1 :=
  congrArg Store.resolver (store_foldl_deliver _ _ _)

theorem waiting?_conclude {x : TaskId} (hx : x ∉ m.store.resolver.queue) :
    m.conclude.2.waiting? x = m.waiting? x := by
  refine (waiting?_foldl_deliver _ _ _ x).trans ?_
  rw [if_neg hx]
  rfl

/-- What has become of finding out the defaults is handed to every task in the queue. -/
theorem Tidy.delivered (h : m.Tidy m.store.resolver.queue) {x : TaskId}
    (hx : x ∈ m.store.resolver.queue) : ∃ go, m.waiting? x = some (.queued go) ∧
      m.conclude.2.waiting? x = some (.turn (go m.conclude.1)) := by
  obtain ⟨go, hgo⟩ := h.queued hx
  refine ⟨go, hgo, (waiting?_foldl_deliver _ _ _ x).trans ?_⟩
  rw [if_pos hx]
  exact congrArg (Option.map (Waiting.deliver _)) hgo

/-- A task that waits then has been handed the result, or it waits as before and is not in the
queue. -/
theorem Tidy.of_conclude (h : m.Tidy m.store.resolver.queue) {x : TaskId} {w : Waiting α}
    (hw : m.conclude.2.waiting? x = some w) :
    (∃ go, m.waiting? x = some (.queued go) ∧ w = .turn (go m.conclude.1)) ∧
        x ∈ m.store.resolver.queue ∨
      m.waiting? x = some w ∧ x ∉ m.store.resolver.queue := by
  by_cases hx : x ∈ m.store.resolver.queue
  · obtain ⟨go, hgo, hturn⟩ := h.delivered hx
    rw [hturn] at hw
    exact .inl ⟨⟨go, hgo, (Option.some.inj hw).symm⟩, hx⟩
  · exact .inr ⟨(waiting?_conclude hx).symm.trans hw, hx⟩

theorem ready_conclude (h : m.Tidy m.store.resolver.queue) (hnodup : m.store.resolver.queue.Nodup) :
    m.conclude.2.ready = m.ready ++ m.store.resolver.queue :=
  ready_foldl_deliver (m := m.discover.2) hnodup h.queued _

/-- A task that does not find out the defaults makes no difference to whether one does. -/
theorem Flight.underway_but (h : m.Flight resolver Everyone) (hnot : m.isDiscovering id ≠ true) :
    resolver.isDiscovering = true ↔ ∃ x, AllBut id x ∧ m.isDiscovering x = true := by
  rw [h.underway]
  constructor
  · rintro ⟨x, -, hx⟩
    exact ⟨x, fun heq => hnot (heq ▸ hx), hx⟩
  · rintro ⟨x, -, hx⟩
    exact ⟨x, trivial, hx⟩

theorem not_isDiscovering_of_none (hid : m.waiting? id = none) : m.isDiscovering id ≠ true := by
  intro hdiscovering
  obtain ⟨next, hnext⟩ := isDiscovering_iff.1 hdiscovering
  rw [hid] at hnext
  contradiction

/-- A task that is about to go on need not be looked at, unless it finds out the defaults: the
resolver still says that a task does. -/
theorem Flight.unready (h : m.Flight resolver Everyone) (hnot : m.isDiscovering id ≠ true) :
    (m.unready id).Flight resolver (AllBut id) := by
  refine h.change (h.tidy.unready id) (h.underway_but hnot) h.nodup (fun _ hx => .inl hx) ?_
    fun _ => ⟨trivial, rfl⟩
  intro x hx hmem
  exact List.mem_filter.2 ⟨hmem, decide_eq_true hx⟩

/-- Having found out the defaults, a task goes on while all others are at rest. -/
theorem Flight.conclude (h : m.Flight m.store.resolver Everyone) (hid : id ∈ m.ready)
    (hdiscovering : m.isDiscovering id = true) :
    (m.unready id).conclude.2.Underway (.ofResult (m.unready id).conclude.1) id := by
  have htidy := h.tidy.unready id
  have hready := ready_conclude htidy h.nodup
  have hunqueued : id ∉ m.store.resolver.queue := h.tidy.due hid
  have hkept : ∀ {x}, x ≠ id → x ∈ m.ready → x ∈ (m.unready id).conclude.2.ready := by
    intro x hx hmem
    rw [hready]
    exact List.mem_append_left _ (List.mem_filter.2 ⟨hmem, decide_eq_true hx⟩)
  have hnone : ∀ {x}, x ≠ id → (m.unready id).conclude.2.isDiscovering x ≠ true := by
    intro x hx hdx
    obtain ⟨next, hnext⟩ := isDiscovering_iff.1 hdx
    rcases htidy.of_conclude hnext with ⟨⟨go, -, hturn⟩, -⟩ | ⟨hsame, -⟩
    · contradiction
    · exact hx (h.single trivial trivial (isDiscovering_iff.2 ⟨next, hsame⟩) hdiscovering)
  refine ⟨⟨?_, ?_, ?_, ?_, ?_, ?_, ?_⟩, ⟨?_, ?_, ?_⟩, ?_⟩
  · rw [Resolver.queue_ofResult]
    exact htidy.conclude
  · intro x y hx _ hdx
    exact absurd hdx (hnone hx)
  · rw [Resolver.isDiscovering_ofResult]
    exact iff_of_false Bool.false_ne_true fun ⟨x, hx, hdx⟩ => hnone hx hdx
  · rw [Resolver.queue_ofResult]
    exact .nil
  · rintro x hx ⟨next, hnext⟩
    rcases htidy.of_conclude hnext with ⟨⟨go, -, hturn⟩, -⟩ | ⟨hsame, hnot⟩
    · contradiction
    · exact .inr (hkept hx ((h.heeded trivial ⟨next, hsame⟩).resolve_left hnot))
  · intro x p hx hp
    rcases htidy.of_conclude hp with ⟨-, hqueue⟩ | ⟨hsame, -⟩
    · rw [hready]
      exact List.mem_append_right _ hqueue
    · exact hkept hx (h.due trivial hsame)
  · intro x w _ hw
    rcases htidy.of_conclude hw with ⟨⟨go, hgo, rfl⟩, -⟩ | ⟨hsame, -⟩
    · exact h.aloof trivial hgo _
    · exact h.aloof trivial hsame
  · rw [hready]
    intro hmem
    rcases List.mem_append.1 hmem with hmem | hmem
    · exact (h.tidy.unlisted hid).idle hmem
    · exact hunqueued hmem
  · intro op
    show id ∉ (List.foldl _ _ _ : Session α).gates.getD op []
    rw [gates_foldl_deliver]
    exact h.tidy.apart hid
  · rw [Resolver.queue_ofResult]
    exact List.not_mem_nil
  · obtain ⟨next, hnext⟩ := isDiscovering_iff.1 hdiscovering
    have hsame := waiting?_conclude (m := m.unready id) hunqueued
    rw [hsame.trans hnext]
    exact Option.some_ne_none _

/-- Letting a ready task go on keeps up what holds of the tasks that wait. -/
theorem Flight.advance (h : m.Flight m.store.resolver Everyone) (hid : id ∈ m.ready) :
    (m.advance id).Flight (m.advance id).store.resolver Everyone := by
  rw [h.tidy.advance]
  cases hw : m.waiting? id with
  | none =>
    exact (h.unready (not_isDiscovering_of_none hw)).everyone (h.tidy.due hid) hw
  | some w =>
    have haloof := h.aloof trivial hw
    have hworking : (∀ next, w ≠ .discovery next) →
        (m.unready id).Underway m.store.resolver id := by
      intro hne
      refine ⟨h.unready fun hid => ?_, h.tidy.unlisted hid, hw ▸ Option.some_ne_none w⟩
      obtain ⟨next, hnext⟩ := isDiscovering_iff.1 hid
      rw [hw] at hnext
      exact hne next (Option.some.inj hnext)
    cases w with
    | turn p => exact (hworking nofun).run (haloof .called m.store)
    | answer r next =>
      have hanswered : ({ m.unready id with server := (m.server.answer r).2 } :
          Session α).Underway m.store.resolver id :=
        (hworking nofun).of_same rfl rfl rfl rfl rfl rfl
      exact hanswered.run (haloof (m.server.answer r).1 .called m.store)
    | discovery next =>
      have hconcluded := h.conclude hid (isDiscovering_iff.2 ⟨next, hw⟩)
      rw [← resolver_conclude] at hconcluded
      exact hconcluded.run (haloof _ .called _)
    | queued next => exact (hworking nofun).run (aloof_resolve haloof .called m.store)

end

end Session

end TiddlerShelf
