import TiddlerShelf.Proofs.Flight

/-! # Single flight

Whatever happens in a session with one store, at most one task has the defaults found out, and one
does exactly while the resolver says so. What becomes of that is handed to all that queue, in the
order of the queue; a failure and a task that is dropped leave nobody behind; and defaults that are
known are never asked for again. -/

namespace TiddlerShelf.Session

open Program

variable {α : Type}

/-- What may happen next in a session with one store, and which task it is about, if it is about
one. -/
inductive Next : Session α → Option TaskId → Session α → Prop
  | start {m : Session α} {id : TaskId} {p : Program α} (hid : m.waiting? id = none)
    (hp : p.Aloof) (background : Bool) : Next m (some id) (m.start id p background)
  | advance {m : Session α} {id : TaskId} (hid : id ∈ m.ready) : Next m (some id) (m.advance id)
  | drop (m : Session α) (id : TaskId) : Next m (some id) (m.drop id)
  | hold (m : Session α) (op : Operation) : Next m none (m.hold op)
  | release (m : Session α) (op : Operation) : Next m none (m.release op)
  | onServer {m : Session α} {f : Server → Server} (h : (f m.server).received = m.server.received) :
    Next m none (m.onServer f)
  | onStore {m : Session α} {f : Store → Store}
    (h : (f m.store).resolver = m.store.resolver) : Next m none (m.onStore fun s => ((), f s)).2
  | takeEnded (m : Session α) : Next m none m.takeEnded.2

/-- Whether one thing after the other can lead from one session to another. -/
inductive Leads : Session α → Session α → Prop
  | refl (m : Session α) : Leads m m
  | tail {l m n : Session α} {who : Option TaskId} (h : Leads l m) (hnext : Next m who n) :
    Leads l n

/-- Whether a session has one store, on which no task works yet. -/
structure Idle (m : Session α) : Prop where
  alone : m.others = .empty
  tasks : m.tasks = .empty
  ready : m.ready = []
  gates : ∀ op, m.gates.getD op [] = []
  resolver : m.store.resolver.isDiscovering = false

theorem Idle.flight {m : Session α} (h : m.Idle) : m.Flight m.store.resolver Everyone := by
  have hqueue : m.store.resolver.queue = [] := by
    have hresolver := h.resolver
    cases hr : m.store.resolver with
    | discovering queue =>
      rw [hr] at hresolver
      contradiction
    | _ => rfl
  have hnone : ∀ x, m.waiting? x = none := by
    intro x
    unfold waiting?
    rw [h.tasks]
    rfl
  have hnot : ∀ {x}, m.isDiscovering x ≠ true := not_isDiscovering_of_none (hnone _)
  have hgates : ∀ {op x}, x ∉ m.gates.getD op [] := by
    intro op x
    rw [h.gates]
    exact List.not_mem_nil
  have hready : ∀ {x}, x ∉ m.ready := by
    intro x
    rw [h.ready]
    exact List.not_mem_nil
  have htidy : m.Tidy [] := ⟨h.alone, fun hid => absurd hid hgates, fun hid => absurd hid hready,
    fun _ => List.not_mem_nil, fun hid => absurd hid List.not_mem_nil⟩
  refine ⟨hqueue ▸ htidy, fun _ _ hx => absurd hx hnot, ?_, ?_, ?_, ?_, ?_⟩
  · rw [h.resolver]
    exact iff_of_false Bool.false_ne_true fun ⟨x, _, hx⟩ => hnot hx
  · rw [hqueue]
    exact .nil
  · rintro x - ⟨next, hnext⟩
    exact absurd ((hnone x).symm.trans hnext) nofun
  · intro x p _ hp
    exact absurd ((hnone x).symm.trans hp) nofun
  · intro x w _ hw
    exact absurd ((hnone x).symm.trans hw) nofun

section

variable {m : Session α} {resolver resolver' : Resolver} {id : TaskId}

theorem Flight.start (h : m.Flight resolver Everyone) (hid : m.waiting? id = none)
    {p : Program α} (hp : p.Aloof) (background : Bool) :
    (m.start id p background).Flight resolver Everyone := by
  have hsame : ∀ {x}, x ≠ id → (m.start id p background).waiting? x = m.waiting? x :=
    fun hx => waiting?_start_of_ne m hx p background
  have hself := waiting?_start_self m id p background
  have hrest : (m.start id p background).Flight resolver (AllBut id) := by
    refine h.change (h.tidy.start hid p background)
      (h.underway_but (not_isDiscovering_of_none hid)) h.nodup (fun _ hx => .inl hx)
      (fun _ hx => List.mem_append_left _ hx) fun hx => ⟨trivial, hsame hx⟩
  have hne : ∀ {x}, (m.start id p background).isDiscovering x = true → x ≠ id := by
    rintro x hx rfl
    obtain ⟨next, hnext⟩ := isDiscovering_iff.1 hx
    rw [hself] at hnext
    cases hnext
  refine ⟨hrest.tidy, ?_, ?_, hrest.nodup, ?_, ?_, ?_⟩
  · intro x y _ _ hx hy
    exact hrest.single (hne hx) (hne hy) hx hy
  · rw [hrest.underway]
    exact exists_congr fun x => and_congr_left fun hx => iff_of_true (hne hx) trivial
  · rintro x - ⟨next, hnext⟩
    refine hrest.heeded ?_ ⟨next, hnext⟩
    rintro rfl
    rw [hself] at hnext
    cases hnext
  · intro x q _ hq
    by_cases hx : x = id
    · rw [hx]
      exact List.mem_append_right _ (List.mem_singleton_self id)
    · exact hrest.due hx hq
  · intro x w _ hw
    by_cases hx : x = id
    · rw [hx, hself] at hw
      cases hw
      exact hp
    · exact hrest.aloof hx hw

/-- What becomes of a session when a task is dismissed and the resolver notes that. -/
theorem Flight.dismiss (h : m.Flight resolver Everyone) {ready : List TaskId}
    (htidy : ({ m.dismiss id with ready } : Session α).Tidy resolver'.queue)
    (hunderway : resolver'.isDiscovering = true ↔ ∃ x, AllBut id x ∧ m.isDiscovering x = true)
    (hnodup : resolver'.queue.Nodup) (hid : id ∉ resolver'.queue)
    (hqueue : ∀ {x}, x ≠ id → x ∈ resolver.queue → x ∈ resolver'.queue ∨ x ∈ ready)
    (hready : ∀ {x}, x ∈ (m.dismiss id).ready → x ∈ ready) :
    (({ m.dismiss id with ready } : Session α).setResolver resolver').Flight resolver'
      Everyone := by
  have hwaiting := waiting?_dismiss m id
  have htidy' := htidy.of_same_lists (n := ({ m.dismiss id with ready } : Session α).setResolver
    resolver') rfl rfl rfl fun _ => rfl
  have hchanged : (({ m.dismiss id with ready } : Session α).setResolver resolver').Flight resolver'
      (AllBut id) := by
    refine h.change htidy' hunderway hnodup hqueue ?_ ?_
    · intro x hx hmem
      exact hready (List.mem_filter.2 ⟨hmem, decide_eq_true hx⟩)
    · intro x hx
      exact ⟨trivial, (hwaiting x).trans (if_neg hx)⟩
  exact hchanged.everyone hid ((hwaiting id).trans (if_pos rfl))

theorem Flight.drop (h : m.Flight m.store.resolver Everyone) (id : TaskId) :
    (m.drop id).Flight (m.drop id).store.resolver Everyone := by
  unfold Session.drop
  cases htask : m.tasks.get? id with
  | none => exact h
  | some task =>
    have hwaits : m.waiting? id = some task.waiting := congrArg (Option.map Task.waiting) htask
    dsimp only
    split
    · have hsame := waiting?_insert htask { task with abandoned := true } rfl
      exact h.of_same (h.tidy.of_same_lists rfl rfl rfl hsame) rfl rfl (List.Subset.refl _) hsame
    · rw [(h.tidy.dismiss id).switchTo]
      have hqueued : (∀ next, task.waiting ≠ .queued next) → ¬m.Queues id := by
        rintro hne ⟨next, hnext⟩
        rw [hwaits] at hnext
        exact hne next (Option.some.inj hnext)
      have hplain : (∀ next, task.waiting ≠ .queued next) →
          (∀ next, task.waiting ≠ .discovery next) →
          (m.dismiss id).Flight m.store.resolver Everyone := by
        intro hne hne'
        refine h.dismiss (h.tidy.dismiss_of_not_queues (hqueued hne)) (h.underway_but ?_) h.nodup
          (fun hid => hqueued hne (h.tidy.queued hid)) (fun _ hx => .inl hx) fun hx => hx
        intro hdiscovering
        obtain ⟨next, hnext⟩ := isDiscovering_iff.1 hdiscovering
        rw [hwaits] at hnext
        exact hne' next (Option.some.inj hnext)
      cases hw : task.waiting with
      | turn p => exact hplain (hw ▸ nofun) (hw ▸ nofun)
      | answer r next => exact hplain (hw ▸ nofun) (hw ▸ nofun)
      | discovery next =>
        have hdiscovering : m.isDiscovering id = true :=
          isDiscovering_iff.2 ⟨next, hw ▸ hwaits⟩
        have htidy := h.tidy.dismiss_of_not_queues (hqueued (hw ▸ nofun))
        refine h.dismiss (htidy.wake fun hx => hx) ?_ .nil List.not_mem_nil
          (fun _ hx => .inr (List.mem_append_right _ hx)) fun hx => List.mem_append_left _ hx
        refine iff_of_false Bool.false_ne_true ?_
        rintro ⟨x, hx, hdx⟩
        exact hx (h.single trivial trivial hdx hdiscovering)
      | queued next =>
        have htidy := h.tidy.dismiss id
        rw [← Resolver.queue_leave] at htidy
        refine h.dismiss htidy ?_ ?_ ?_ ?_ fun hx => hx
        · rw [Resolver.isDiscovering_leave]
          apply h.underway_but
          intro hdiscovering
          obtain ⟨next', hnext⟩ := isDiscovering_iff.1 hdiscovering
          rw [hwaits, hw] at hnext
          cases hnext
        · rw [Resolver.queue_leave]
          exact h.nodup.filter _
        · rw [Resolver.queue_leave]
          intro hid
          exact of_decide_eq_true (List.mem_filter.1 hid).2 rfl
        · intro x hx hmem
          rw [Resolver.queue_leave]
          exact .inl (List.mem_filter.2 ⟨hmem, decide_eq_true hx⟩)

end

/-- Whatever happens keeps up what holds of the tasks that wait. -/
theorem Flight.next {m n : Session α} {who : Option TaskId}
    (h : m.Flight m.store.resolver Everyone) (hnext : Next m who n) :
    n.Flight n.store.resolver Everyone := by
  cases hnext with
  | start hid hp background => exact h.start hid hp background
  | advance hid => exact h.advance hid
  | drop => exact h.drop _
  | hold op => exact h.of_same (h.tidy.hold op) rfl rfl (List.Subset.refl _) fun _ => rfl
  | release op =>
    exact h.of_same (h.tidy.release op) rfl rfl (List.subset_append_left _ _) fun _ => rfl
  | onServer hf =>
    exact h.of_same (h.tidy.of_same_lists rfl rfl rfl fun _ => rfl) rfl rfl (List.Subset.refl _)
      fun _ => rfl
  | @onStore f hf =>
    show Flight _ (f m.store).resolver Everyone
    rw [hf]
    exact h.of_same (h.tidy.of_same_lists rfl rfl rfl fun _ => rfl) rfl rfl (List.Subset.refl _)
      fun _ => rfl
  | takeEnded =>
    exact h.of_same (h.tidy.of_same_lists rfl rfl rfl fun _ => rfl) rfl rfl (List.Subset.refl _)
      fun _ => rfl

theorem Leads.flight {m n : Session α} (h : Leads m n) (hm : m.Flight m.store.resolver Everyone) :
    n.Flight n.store.resolver Everyone := by
  induction h with
  | refl => exact hm
  | tail _ hnext ih => exact ih.next hnext

/-! ## What is found out reaches those that wait for it -/

/-- What becomes of finding out the defaults, by what the server says: it may refuse, it may report
neither a recipe nor a bag, or else the defaults follow from its report. -/
inductive Reports (host : String) :
    Except RemoteError Discovery → Except StoreError Defaults → Prop
  | refused (cause : RemoteError) : Reports host (.error cause) (.error (.discovery cause))
  | silent {report : Discovery} (hrecipe : report.recipe.getD "" = "")
    (hbag : report.bag.getD "" = "") : Reports host (.ok report) (.error .nothingReported)
  | found {report : Discovery} {d : Defaults} (hd : Defaults.ofDiscovery? report host = some d) :
    Reports host (.ok report) (.ok d)

theorem reports_defaultsOf (host : String) (answer : Except RemoteError Discovery) :
    Reports host answer (defaultsOf host answer) := by
  have hempty {name : Option String} (hname : name.filter (· != "") = none) :
      name.getD "" = "" := by
    cases name with
    | none => rfl
    | some name => simpa using Option.filter_eq_none_iff.1 hname
  cases answer with
  | error cause => exact .refused cause
  | ok report =>
    simp only [defaultsOf]
    cases hfound : Defaults.ofDiscovery? report host with
    | some d => exact .found hfound
    | none =>
      unfold Defaults.ofDiscovery? at hfound
      split at hfound
      · split at hfound <;> contradiction
      · contradiction
      · rename_i hrecipe hbag
        exact .silent (hempty hrecipe) (hempty hbag)

/-- Whether the server's answer has led from one session to the other: a failure leaves the resolver
as at first, and a success leaves it with the defaults for good. -/
structure Answers (m : Session α) (result : Except StoreError Defaults) (n : Session α) : Prop where
  reports : Reports m.store.host (m.server.answer .discover).1 result
  failed : ∀ e, result = .error e → n.store.resolver = .unresolved
  found : ∀ d, result = .ok d → n.store.resolver = .resolved d

/-- Whether a task that has the defaults found out goes on, with what has become of that, from a
session in which all that queued have been handed the same, can go on in the order of the queue,
and nobody else queues but those that can go on. -/
structure Concludes (m : Session α) (id : TaskId) (next : Except StoreError Defaults → Program α)
    (result : Except StoreError Defaults) (n : Session α) : Prop extends Answers m result n where
  goes : m.advance id = run id (next result) n
  ready : n.ready = m.ready.filter (· ≠ id) ++ m.store.resolver.queue
  handed : ∀ {x}, x ∈ m.store.resolver.queue → ∃ go, m.waiting? x = some (.queued go) ∧
    n.waiting? x = some (.turn (go result))
  heeded : ∀ {x}, n.Queues x → x ∈ n.ready

theorem answer_discover_receive (s : Server) (r : Request) :
    ((s.receive r).answer .discover).1 = (s.answer .discover).1 := by
  unfold Server.answer
  by_cases hfailing : Request.discover.operation ∈ s.failing
  · rw [if_pos hfailing, if_pos]
    exact hfailing
  · rw [if_neg hfailing, if_neg]
    · rfl
    · exact hfailing

/-- The defaults are found out at once when nobody has done so and the server's answer is not
held. -/
theorem run_resolve_of_unresolved {m : Session α} (hresolver : m.store.resolver = .unresolved)
    (hheld : m.isHeld .discover = false) (id : TaskId)
    (next : Except StoreError Defaults → Program α) :
    ∃ result n, run id (.resolve next) m = run id (next result) n ∧ Answers m result n ∧
      n.ready = m.ready ∧ ∀ x, n.waiting? x = m.waiting? x := by
  let asked : Session α := { m with server := m.server.receive .discover }
  have hrun : run id (.resolve next) m = run id (next asked.discover.1) asked.discover.2 := by
    simp only [run, hresolver]
    exact if_neg (hheld ▸ Bool.false_ne_true)
  have hanswer : (asked.server.answer .discover).1 = (m.server.answer .discover).1 :=
    answer_discover_receive m.server .discover
  refine ⟨_, _, hrun, ⟨?_, fun e he => ?_, fun d hd => ?_⟩, rfl, fun _ => rfl⟩
  · rw [← hanswer]
    exact reports_defaultsOf _ _
  · exact congrArg Resolver.ofResult he
  · exact congrArg Resolver.ofResult hd

theorem Flight.concludes {m : Session α} (h : m.Flight m.store.resolver Everyone) {id : TaskId}
    (hid : id ∈ m.ready) {next : Except StoreError Defaults → Program α}
    (hw : m.waiting? id = some (.discovery next)) :
    Concludes m id next (m.unready id).conclude.1 (m.unready id).conclude.2 := by
  have htidy := h.tidy.unready id
  have hconcluded := h.conclude hid (isDiscovering_iff.2 ⟨next, hw⟩)
  have hresolver := resolver_conclude (m.unready id)
  refine ⟨⟨reports_defaultsOf _ _, fun e he => ?_, fun d hd => ?_⟩, ?_,
    ready_conclude htidy h.nodup, htidy.delivered, ?_⟩
  · rw [hresolver, he]
    rfl
  · rw [hresolver, hd]
    rfl
  · rw [h.tidy.advance, hw]
    rfl
  · intro x hqueues
    have hx : x ≠ id := by
      rintro rfl
      obtain ⟨next', hnext⟩ := hqueues
      have hsame := waiting?_conclude (m := m.unready x) (h.tidy.due hid)
      rw [hsame] at hnext
      have heq := hw.symm.trans hnext
      cases heq
    have hheeded := hconcluded.flight.heeded hx hqueues
    rw [Resolver.queue_ofResult] at hheeded
    exact hheeded.resolve_left List.not_mem_nil

/-- What a dropped discovery leaves behind: the resolver is as at first, and all that queue can go
on, to have the defaults found out again. -/
theorem Flight.dropped {m : Session α} (h : m.Flight m.store.resolver Everyone) {id : TaskId}
    {task : Task α} (htask : m.tasks.get? id = some task) (hbackground : task.background = false)
    (hid : m.isDiscovering id = true) :
    (m.drop id).store.resolver = .unresolved ∧
      ∀ x, (m.drop id).Queues x → x ∈ (m.drop id).ready := by
  have hflight := h.drop id
  have hresolver : (m.drop id).store.resolver = .unresolved := by
    obtain ⟨next, hnext⟩ := isDiscovering_iff.1 hid
    have hw : task.waiting = .discovery next := by
      have hwaits := congrArg (Option.map Task.waiting) htask
      exact Option.some.inj (hwaits.symm.trans hnext)
    unfold Session.drop
    rw [htask]
    dsimp only
    rw [hbackground, if_neg Bool.false_ne_true, hw]
    rfl
  refine ⟨hresolver, fun x hx => ?_⟩
  have hheeded := hflight.heeded trivial hx
  rw [hresolver] at hheeded
  exact hheeded.resolve_left List.not_mem_nil

theorem waiting?_drop_of_ne {m : Session α} (h : m.Tidy m.store.resolver.queue) {id x : TaskId}
    (hx : x ≠ id) : (m.drop id).waiting? x = m.waiting? x := by
  have hdismiss : (m.dismiss id).waiting? x = m.waiting? x :=
    (waiting?_dismiss m id x).trans (if_neg hx)
  unfold Session.drop
  cases htask : m.tasks.get? id with
  | none => rfl
  | some task =>
    dsimp only
    split
    · exact waiting?_insert htask { task with abandoned := true } rfl x
    · rw [(h.dismiss id).switchTo]
      split <;> exact hdismiss

/-- Letting a task go on is nothing to the others, unless they queue for what it finds out. -/
theorem waiting?_advance_of_ne {m : Session α} (h : m.Tidy m.store.resolver.queue) {id x : TaskId}
    (hx : x ≠ id) (hqueue : x ∉ m.store.resolver.queue) :
    (m.advance id).waiting? x = m.waiting? x := by
  have hrun : ∀ (p : Program α) (n : Session α), n.waiting? x = m.waiting? x →
      (run id p n).waiting? x = m.waiting? x :=
    fun p n hn => (waiting?_eq_of_agreeBut (agreeBut_run id p n) hx).trans hn
  rw [h.advance]
  cases m.waiting? id with
  | none => rfl
  | some w =>
    cases w with
    | turn p => exact hrun _ _ rfl
    | answer r next => exact hrun _ _ rfl
    | discovery next => exact hrun _ _ (waiting?_conclude (m := m.unready id) hqueue)
    | queued next => exact hrun _ _ rfl

/-- A task that can go on with a program keeps its turn until it goes on or is dropped. -/
theorem Next.turn {m n : Session α} {who : Option TaskId} (h : Next m who n)
    (hm : m.Flight m.store.resolver Everyone) {x : TaskId} {p : Program α}
    (hx : m.waiting? x = some (.turn p)) (hwho : who ≠ some x) :
    n.waiting? x = some (.turn p) := by
  have hne : ∀ {id}, some id ≠ some x → x ≠ id := fun hne heq => hne (heq ▸ rfl)
  cases h with
  | start _ _ background => exact (waiting?_start_of_ne m (hne hwho) _ background).trans hx
  | advance _ =>
    refine (waiting?_advance_of_ne hm.tidy (hne hwho) fun hqueue => ?_).trans hx
    obtain ⟨next, hnext⟩ := hm.tidy.queued hqueue
    have heq := hx.symm.trans hnext
    cases heq
  | drop => exact (waiting?_drop_of_ne hm.tidy (hne hwho)).trans hx
  | hold _ => exact hx
  | release _ => exact hx
  | onServer _ => exact hx
  | onStore _ => exact hx
  | takeEnded => exact hx

/-- Defaults that are known stay so while a task goes on, and the server is not asked for them. -/
theorem Flight.resolved_advance {m : Session α} (h : m.Flight m.store.resolver Everyone)
    {d : Defaults} (hd : m.store.resolver = .resolved d) (id : TaskId) :
    (m.advance id).store.resolver = .resolved d ∧
      (m.advance id).server.calls .discover = m.server.calls .discover := by
  rw [h.tidy.advance]
  cases hw : m.waiting? id with
  | none => exact ⟨hd, rfl⟩
  | some w =>
    have haloof := h.aloof trivial hw
    cases w with
    | turn p => exact resolved_run hd (haloof .called m.store)
    | answer r next =>
      let n : Session α := { m.unready id with server := (m.server.answer r).2 }
      obtain ⟨hknown, hsame⟩ : (Session.run id (next (m.server.answer r).1) n).store.resolver =
          .resolved d ∧ _ := resolved_run hd (haloof (m.server.answer r).1 .called m.store)
      exact ⟨hknown, hsame.trans (calls_answer _ r _)⟩
    | discovery next =>
      have hunderway := h.underway.2 ⟨id, trivial, isDiscovering_iff.2 ⟨next, hw⟩⟩
      rw [hd] at hunderway
      contradiction
    | queued next => exact resolved_run hd (aloof_resolve haloof .called m.store)

/-- They stay so when a task is dropped. -/
theorem Flight.resolved_drop {m : Session α} (h : m.Flight m.store.resolver Everyone)
    {d : Defaults} (hd : m.store.resolver = .resolved d) (id : TaskId) :
    (m.drop id).store.resolver = .resolved d ∧ (m.drop id).server = m.server := by
  unfold Session.drop
  cases htask : m.tasks.get? id with
  | none => exact ⟨hd, rfl⟩
  | some task =>
    have hwaits : m.waiting? id = some task.waiting := congrArg (Option.map Task.waiting) htask
    dsimp only
    split
    · exact ⟨hd, rfl⟩
    · rw [(h.tidy.dismiss id).switchTo]
      split
      · rename_i next hw
        have hunderway := h.underway.2 ⟨id, trivial, isDiscovering_iff.2 ⟨next, hw ▸ hwaits⟩⟩
        rw [hd] at hunderway
        contradiction
      · refine ⟨?_, rfl⟩
        show m.store.resolver.leave id = _
        rw [hd]
        rfl
      · exact ⟨hd, rfl⟩

theorem Next.resolved {m n : Session α} {who : Option TaskId} (h : Next m who n)
    (hm : m.Flight m.store.resolver Everyone) {d : Defaults} (hd : m.store.resolver = .resolved d) :
    n.store.resolver = .resolved d ∧ n.server.calls .discover = m.server.calls .discover := by
  cases h with
  | start _ _ _ => exact ⟨hd, rfl⟩
  | advance _ => exact hm.resolved_advance hd _
  | drop =>
    obtain ⟨hknown, hserver⟩ := hm.resolved_drop hd _
    exact ⟨hknown, congrArg (·.calls .discover) hserver⟩
  | hold _ => exact ⟨hd, rfl⟩
  | release _ => exact ⟨hd, rfl⟩
  | onServer hf =>
    refine ⟨hd, ?_⟩
    unfold Server.calls
    exact congrArg (List.countP _) hf
  | onStore hf => exact ⟨hf.trans hd, rfl⟩
  | takeEnded => exact ⟨hd, rfl⟩

theorem Leads.resolved {m n : Session α} (h : Leads m n)
    (hm : m.Flight m.store.resolver Everyone) {d : Defaults} (hd : m.store.resolver = .resolved d) :
    n.store.resolver = .resolved d ∧ n.server.calls .discover = m.server.calls .discover := by
  induction h with
  | refl => exact ⟨hd, rfl⟩
  | tail h hnext ih =>
    obtain ⟨hknown, hsame⟩ := ih
    obtain ⟨hknown', hsame'⟩ := hnext.resolved (h.flight hm) hknown
    exact ⟨hknown', hsame'.trans hsame⟩

/-- Whatever has happened in a session that was idle at first: no two tasks have the defaults found
out, one does exactly while the resolver is discovering, and who waits for that is in the queue or
can go on; when the discovery is answered, at once or later, a failure leaves the resolver
unresolved and a success leaves it resolved with the defaults found, and what has become of it is
handed to all that queue, in order; what has been handed to a task stays its turn until it goes on
or is dropped; dropping a task that has the defaults found out leaves the resolver unresolved and
nobody behind; and once the defaults are known they stay so, and the server is never asked for them
again. -/
theorem single_flight {m₀ m : Session α} (h₀ : m₀.Idle) (h : Leads m₀ m) :
    (∀ x y, m.isDiscovering x = true → m.isDiscovering y = true → x = y) ∧
    (m.store.resolver.isDiscovering = true ↔ ∃ x, m.isDiscovering x = true) ∧
    (∀ x, m.Queues x → x ∈ m.store.resolver.queue ∨ x ∈ m.ready) ∧
    (∀ id next, id ∈ m.ready → m.waiting? id = some (.discovery next) →
      ∃ result n, Concludes m id next result n) ∧
    (∀ id next, m.store.resolver = .unresolved → m.isHeld .discover = false →
      ∃ result n, run id (.resolve next) m = run id (next result) n ∧ Answers m result n ∧
        n.ready = m.ready ∧ ∀ x, n.waiting? x = m.waiting? x) ∧
    (∀ x p who n, m.waiting? x = some (.turn p) → Next m who n → who ≠ some x →
      n.waiting? x = some (.turn p)) ∧
    (∀ id task, m.tasks.get? id = some task → task.background = false →
      m.isDiscovering id = true → (m.drop id).store.resolver = .unresolved ∧
        ∀ x, (m.drop id).Queues x → x ∈ (m.drop id).ready) ∧
    ∀ d n, m.store.resolver = .resolved d → Leads m n →
      n.store.resolver = .resolved d ∧ n.server.calls .discover = m.server.calls .discover := by
  have hflight := h.flight h₀.flight
  refine ⟨fun x y => hflight.single trivial trivial, ?_, fun x => hflight.heeded trivial, ?_,
    fun id next hresolver hheld => run_resolve_of_unresolved hresolver hheld id next, ?_, ?_, ?_⟩
  · rw [hflight.underway]
    exact exists_congr fun x => and_iff_right trivial
  · intro id next hid hw
    exact ⟨_, _, hflight.concludes hid hw⟩
  · intro x p who n hx hnext hwho
    exact hnext.turn hflight hx hwho
  · intro id task htask hbackground hid
    exact hflight.dropped htask hbackground hid
  · intro d n hd hleads
    exact hleads.resolved hflight hd

/-- Two callers share one discovery. Where the server refuses it, both are told why and the resolver
is as at first; where the server reports a bag, both get that bag and the resolver keeps it. -/
theorem two_callers_share_a_discovery :
    (∃ m₀ m n : Session (Except StoreError Defaults), m₀.Idle ∧ Leads m₀ m ∧
      m.store.resolver = .discovering [1] ∧
      Concludes m 0 .done (.error (.discovery (Server.failure .discover))) n ∧
      n.waiting? 1 = some (.turn (.done (.error (.discovery (Server.failure .discover))))) ∧
      n.store.resolver = .unresolved) ∧
    ∃ m₀ m n : Session (Except StoreError Defaults), m₀.Idle ∧ Leads m₀ m ∧
      m.store.resolver = .discovering [1] ∧
      Concludes m 0 .done (.ok (.single (.bag "notes"))) n ∧
      n.waiting? 1 = some (.turn (.done (.ok (.single (.bag "notes"))))) ∧
      n.store.resolver = .resolved (.single (.bag "notes")) := by
  let server (failing : List Operation) : Server :=
    { discovery := { bag := some "notes" }, failing }
  have hshared (failing : List Operation) : ∃ m₀ m n : Session (Except StoreError Defaults),
      ∃ result, m₀.Idle ∧ Leads m₀ m ∧ m.store.resolver = .discovering [1] ∧
        Concludes m 0 .done result n ∧ n.waiting? 1 = some (.turn (.done result)) ∧
        Reports "/" (((server failing).receive .discover).answer .discover).1 result := by
    let m₀ : Session (Except StoreError Defaults) := { server := server failing, store := {} }
    let m₁ := m₀.hold .discover
    let m₂ := (m₁.start 0 Program.resolved false).advance 0
    let m₃ := (m₂.start 1 Program.resolved false).advance 1
    let m := m₃.release .discover
    have hidle : m₀.Idle := ⟨rfl, rfl, rfl, fun _ => rfl, rfl⟩
    have hleads₁ : Leads m₀ m₁ := .tail (.refl m₀) (.hold m₀ _)
    have hleads₂ : Leads m₀ m₂ := .tail (.tail hleads₁ (.start rfl aloof_resolved false))
      (.advance List.mem_cons_self)
    have hleads₃ : Leads m₀ m₃ := .tail (.tail hleads₂ (.start rfl aloof_resolved false))
      (.advance List.mem_cons_self)
    have hleads : Leads m₀ m := .tail hleads₃ (.release m₃ _)
    have hmem : (0 : TaskId) ∈ m.ready := List.mem_cons_self
    obtain ⟨-, -, -, hconcludes, -⟩ := single_flight hidle hleads
    obtain ⟨result, n, hn⟩ := hconcludes 0 .done hmem rfl
    obtain ⟨go, hgo, hturn⟩ := hn.handed (x := 1) List.mem_cons_self
    have hdone : go = .done := by
      have hqueued : m.waiting? 1 = some (.queued .done) := rfl
      exact Waiting.queued.inj (Option.some.inj (hgo.symm.trans hqueued))
    exact ⟨m₀, m, n, result, hidle, hleads, rfl, hn, hdone ▸ hturn, hn.reports⟩
  constructor
  · obtain ⟨m₀, m, n, result, hidle, hleads, hqueue, hn, hturn, hreports⟩ := hshared [.discover]
    have hanswer : (((server [.discover]).receive .discover).answer .discover).1 =
      .error (Server.failure .discover) := rfl
    rw [hanswer] at hreports
    cases hreports
    exact ⟨m₀, m, n, hidle, hleads, hqueue, hn, hturn, hn.failed _ rfl⟩
  · obtain ⟨m₀, m, n, result, hidle, hleads, hqueue, hn, hturn, hreports⟩ := hshared []
    have hanswer : (((server []).receive .discover).answer .discover).1 =
      .ok { bag := some "notes" } := rfl
    rw [hanswer] at hreports
    cases hreports with
    | silent _ hbag => exact absurd hbag (by decide)
    | found hfound =>
      have hnotes : Defaults.ofDiscovery? { bag := some "notes" } "/" =
        some (.single (.bag "notes")) := by decide +kernel
      cases hnotes.symm.trans hfound
      exact ⟨m₀, m, n, hidle, hleads, hqueue, hn, hturn, hn.found _ rfl⟩

end TiddlerShelf.Session
