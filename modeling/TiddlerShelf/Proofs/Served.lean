import TiddlerShelf.Proofs.Turns
import TiddlerShelf.Proofs.Undisturbed

/-! # Calls that any remote serves

Where a task has a store to itself, what a program comes to follows from the answers that it gets
(`served`), whoever gives them, and all that has been asked and answered is written down. With the
server in memory for a remote this is what the program comes to undisturbed. With any remote it is
what a task of an activity comes to in a run in which nothing else moves (`run_of_served`). -/

namespace TiddlerShelf

/-- Something that answers requests, from a state of its own. -/
abbrev Remote (σ : Type) := (r : Request) → σ → Except RemoteError r.Reply × σ

/-- The server in memory as something that answers requests. -/
def Server.remote : Remote Server := fun r server => (server.receive r).answer r

/-- A request with the answer that it has got. -/
structure Exchanged where
  request : Request
  answer : Except RemoteError request.Reply

/-- Whether a request has been fulfilled. -/
def Exchanged.Succeeds (e : Exchanged) : Prop := e.answer.isOk

namespace Program

/-- What a program has come to: its result, what has become of the store and of the remote, and what
has been exchanged, in order. -/
structure Upshot (α σ : Type) where
  result : α
  store : Store
  remote : σ
  exchanged : List Exchanged

variable {α β σ : Type}

/-- What a program has come to if other things had been exchanged before. -/
def Upshot.after (before : List Exchanged) (u : Upshot α σ) : Upshot α σ :=
  { u with exchanged := before ++ u.exchanged }

theorem Upshot.after_after (first second : List Exchanged) (u : Upshot α σ) :
    (u.after second).after first = u.after (first ++ second) := by
  unfold after
  rw [List.append_assoc]

/-- What a program comes to that has a store to itself and is served by a remote. It comes to
nothing if another task is finding out the defaults. -/
def served (remote : Remote σ) : Program α → Store → σ → Option (Upshot α σ)
  | done a, s, w => some ⟨a, s, w, []⟩
  | look next, s, w => (next s).served remote s w
  | write s next, _, w => next.served remote s w
  | ask r next, s, w =>
    let (answer, w) := remote r w
    ((next answer).served remote s w).map (Upshot.after [⟨r, answer⟩])
  | resolve next, s, w =>
    match s.resolver with
    | .resolved d => (next (.ok d)).served remote s w
    | .discovering _ => none
    | .unresolved =>
      let (answer, w) := remote .discover w
      let result := Session.defaultsOf s.host answer
      ((next result).served remote (s.withResolver (.ofResult result)) w).map
        (Upshot.after [⟨.discover, answer⟩])

section

variable (remote : Remote σ)

/-- A program that goes on with another comes to what the second comes to after the first, and what
the two have exchanged is put together. -/
theorem served_bind (p : Program α) (f : α → Program β) (s : Store) (w : σ) :
    (p >>= f).served remote s w = (p.served remote s w).bind fun u =>
      ((f u.result).served remote u.store u.remote).map (Upshot.after u.exchanged) := by
  have hmore : ∀ (before : List Exchanged) (x : Option (Upshot α σ)),
      (x.bind fun u => ((f u.result).served remote u.store u.remote).map
        (Upshot.after u.exchanged)).map (Upshot.after before) =
      (x.map (Upshot.after before)).bind fun u =>
        ((f u.result).served remote u.store u.remote).map (Upshot.after u.exchanged) := by
    intro before x
    cases x with
    | none => rfl
    | some u =>
      show (((f u.result).served remote u.store u.remote).map _).map _ = Option.map _ _
      rw [Option.map_map]
      exact congrArg₂ _ (funext fun v => v.after_after before u.exchanged) rfl
  show (p.bind f).served remote s w = _
  induction p generalizing s w with
  | done a => exact (congrFun Option.map_id ((f a).served remote s w)).symm
  | look next ih => exact ih s s w
  | write s' next ih => exact ih s' w
  | ask r next ih =>
    simp only [bind, served]
    rw [ih, hmore]
  | resolve next ih =>
    simp only [bind, served]
    split
    · exact ih _ s w
    · rfl
    · rw [ih, hmore]

theorem served_map (f : α → β) (p : Program α) (s : Store) (w : σ) :
    (f <$> p).served remote s w =
      (p.served remote s w).map fun u => ⟨f u.result, u.store, u.remote, u.exchanged⟩ := by
  show (p >>= fun a => done (f a)).served remote s w = _
  rw [served_bind]
  cases p.served remote s w with
  | none => rfl
  | some u =>
    show some (Upshot.after u.exchanged ⟨f u.result, u.store, u.remote, []⟩) = _
    simp [Upshot.after]

theorem served_store (f : Store → Program α) (s : Store) (w : σ) :
    (store >>= f).served remote s w = (f s).served remote s w := rfl

theorem served_request (r : Request) (f : Except RemoteError r.Reply → Program α) (s : Store)
    (w : σ) : (request r >>= f).served remote s w =
      ((f (remote r w).1).served remote s (remote r w).2).map
        (Upshot.after [⟨r, (remote r w).1⟩]) := rfl

end

/-- All that has been exchanged has been answered by the remote. -/
theorem answered_of_served {remote : Remote σ} {p : Program α} {s : Store} {w : σ}
    {u : Upshot α σ} (hu : p.served remote s w = some u) :
    ∀ e ∈ u.exchanged, ∃ w', (remote e.request w').1 = e.answer := by
  induction p generalizing s w u with
  | done a =>
    cases hu
    exact fun e he => absurd he List.not_mem_nil
  | look next ih => exact ih s hu
  | write s' next ih => exact ih hu
  | ask r next ih =>
    obtain ⟨v, hv, rfl⟩ := Option.map_eq_some_iff.1 hu
    exact List.forall_mem_cons.2 ⟨⟨w, rfl⟩, ih _ hv⟩
  | resolve next ih =>
    cases hd : s.resolver with
    | resolved d =>
      simp only [served, hd] at hu
      exact ih _ hu
    | discovering queue =>
      simp only [served, hd] at hu
      contradiction
    | unresolved =>
      simp only [served, hd] at hu
      obtain ⟨v, hv, rfl⟩ := Option.map_eq_some_iff.1 hu
      exact List.forall_mem_cons.2 ⟨⟨w, rfl⟩, ih _ hv⟩

/-- A program that the server in memory serves comes to what it comes to undisturbed. -/
theorem undisturbed_eq_served (p : Program α) (s : Store) (server : Server) :
    p.undisturbed s server =
      (p.served Server.remote s server).map fun u => (u.result, u.store, u.remote) := by
  induction p generalizing s server with
  | done a => rfl
  | look next ih => exact ih s s server
  | write s' next ih => exact ih s' server
  | ask r next ih =>
    simp only [undisturbed, served, Option.map_map]
    exact ih _ s _
  | resolve next ih =>
    cases hd : s.resolver with
    | resolved d =>
      simp only [undisturbed, served, hd]
      exact ih _ s server
    | discovering queue => simp only [undisturbed, served, hd, Option.map_none]
    | unresolved =>
      simp only [undisturbed, served, hd, Option.map_map]
      exact ih _ _ _

end Program

namespace Activity

open Program

/-- An activity after a task has ended with a result and has left a store behind. -/
def ending (a : Activity) (id : TaskId) (s : Store) (outcome : Call.Outcome) : Activity :=
  { a.setTask id none with store := s, ended := a.ended ++ [(id, outcome)] }

theorem ending_setTask (a : Activity) (id : TaskId) (t : Option Task) :
    (a.setTask id t).ending id = a.ending id := by
  funext s outcome
  unfold ending setTask
  simp only [Function.update_idem]

variable {σ : Type} {remote : Remote σ} {a : Activity} {id : TaskId} {c : Call}

theorem goOn_write (s : Store) (next : Program Call.Outcome) :
    a.goOn id c (.write s next) = ({ a with store := s } : Activity).goOn id c next := by
  unfold goOn
  rfl

/-- A task that goes on and is served ends, with what the program comes to, in moves of its own. -/
theorem run_goOn {p : Program Call.Outcome} {w : σ} {u : Upshot Call.Outcome σ}
    (hu : p.served remote a.store w = some u) :
    ∃ h, Run (a.goOn id c p) h (a.ending id u.store u.result) ∧
      ∀ tr ∈ h, ∃ k, tr.move = .go id c k := by
  induction p generalizing a w u with
  | done outcome =>
    cases hu
    exact ⟨[], .nil _, fun _ htr => absurd htr List.not_mem_nil⟩
  | look next ih => exact ih a.store hu
  | write s next ih =>
    rw [goOn_write]
    exact ih (a := { a with store := s }) hu
  | ask r next ih =>
    obtain ⟨v, hv, rfl⟩ := Option.map_eq_some_iff.1 hu
    let b := a.setTask id (some ⟨c, .asking r a.store next⟩)
    obtain ⟨h, hrun, hmoves⟩ := ih (remote r w).1 (a := b) hv
    have htask : b.tasks id = some ⟨c, .asking r a.store next⟩ := Function.update_self ..
    rw [ending_setTask] at hrun
    exact ⟨_, .cons (.answer htask (remote r w).1) hrun, List.forall_mem_cons.2 ⟨⟨_, rfl⟩, hmoves⟩⟩
  | resolve next ih =>
    cases hd : a.store.resolver with
    | resolved d =>
      simp only [served, hd] at hu
      rw [goOn_resolved hd]
      exact ih _ hu
    | discovering queue =>
      simp only [served, hd] at hu
      contradiction
    | unresolved =>
      simp only [served, hd] at hu
      obtain ⟨v, hv, rfl⟩ := Option.map_eq_some_iff.1 hu
      let b := ({ a with store := a.store.withResolver (.discovering []) } : Activity).setTask id
        (some ⟨c, .discovering next⟩)
      obtain ⟨h, hrun, hmoves⟩ := ih _ (a := b.inform _) hv
      have htask : b.tasks id = some ⟨c, .discovering next⟩ := Function.update_self ..
      have hend : (b.inform (Session.defaultsOf a.store.host (remote .discover w).1)).ending id =
          a.ending id := by
        rw [inform_of_queue_nil rfl, ← ending_setTask a id (some ⟨c, .discovering next⟩)]
        rfl
      rw [hend] at hrun
      rw [goOn_unresolved hd]
      exact ⟨_, .cons (.learn htask rfl) hrun, List.forall_mem_cons.2 ⟨⟨_, rfl⟩, hmoves⟩⟩

/-- A call that is served is a run in which its task alone moves. The run ends with the result and
the store that the call comes to, and leaves all other tasks as they are. -/
theorem run_of_served (ha : a.Sound) {w : σ} {u : Upshot Call.Outcome σ}
    (hu : c.program.served remote a.store w = some u) :
    ∃ h b, Run a h b ∧ (∀ tr ∈ h, ∃ k, tr.move = .go a.fresh c k) ∧ b.store = u.store ∧
      b.tasks = a.tasks ∧ b.ended = a.ended ++ [(a.fresh, u.result)] := by
  let a' : Activity := { a with fresh := a.fresh + 1 }
  obtain ⟨h, hrun, hmoves⟩ : ∃ h, Run (a.call c) h (a'.ending a.fresh u.store u.result) ∧
      ∀ tr ∈ h, ∃ k, tr.move = .go a.fresh c k := run_goOn hu
  refine ⟨_, _, .cons (step_call a c) hrun, List.forall_mem_cons.2 ⟨⟨_, rfl⟩, hmoves⟩, rfl, ?_, rfl⟩
  show Function.update a.tasks a.fresh none = a.tasks
  rw [← ha.fresh (Nat.le_refl a.fresh), Function.update_eq_self]

/-- A call that is served where nobody listens brings no listener in. -/
theorem audience_of_served (ha : a.Sound) (hs : a.store.audience.Silent) {w : σ}
    {u : Upshot Call.Outcome σ} (hu : c.program.served remote a.store w = some u) :
    u.store.audience = a.store.audience := by
  obtain ⟨h, b, hrun, hmoves, hstore, -, -⟩ := run_of_served ha hu
  let Unheard (b : Activity) := b.Sound ∧ b.store.audience = a.store.audience
  have hend := hrun.throughout (I := Unheard) ⟨ha, rfl⟩ fun tr htr hstep hbefore => by
    obtain ⟨hsound, haudience⟩ := hbefore
    obtain ⟨k, hmove⟩ := hmoves tr htr
    rw [hmove] at hstep
    have hsame := hstep.audience_of_go hsound (haudience ▸ hs)
    exact ⟨hstep.sound hsound, hsame.trans haudience⟩
  rw [← hstore]
  exact hend.1.2

end Activity

end TiddlerShelf
