import TiddlerShelf.Session.Steps

/-! # The bookkeeping of sessions

A session keeps lists of tasks: which are ready, which stand at a gate, and which queue for the
defaults. In a tidy session these agree with what the tasks themselves say that they wait for. All
that happens in a session keeps it tidy. -/

namespace TiddlerShelf

namespace Resolver

theorem queue_ofResult {ε : Type} (result : Except ε Defaults) : (ofResult result).queue = [] := by
  cases result <;> rfl

theorem isDiscovering_ofResult {ε : Type} (result : Except ε Defaults) :
    (ofResult result).isDiscovering = false := by
  cases result <;> rfl

theorem queue_leave (id : TaskId) (resolver : Resolver) :
    (resolver.leave id).queue = resolver.queue.filter (· ≠ id) := by
  cases resolver <;> rfl

theorem isDiscovering_leave (id : TaskId) (resolver : Resolver) :
    (resolver.leave id).isDiscovering = resolver.isDiscovering := by
  cases resolver <;> rfl

end Resolver

namespace Session

variable {α : Type}

/-- What a task waits for, if there is such a task. -/
def waiting? (m : Session α) (id : TaskId) : Option (Waiting α) :=
  (m.tasks.get? id).map Task.waiting

/-- The kind of request at whose gate a task may wait. -/
def Waiting.gate? : Waiting α → Option Operation
  | answer r _ => some r.operation
  | discovery _ => some .discover
  | turn _ | queued _ => none

/-- What a task waits for after what has become of finding out the defaults has been given to it. -/
def Waiting.deliver (result : Except StoreError Defaults) : Waiting α → Waiting α
  | queued next => turn (next result)
  | w => w

/-- Whether a task queues for the defaults. -/
def Queues (m : Session α) (id : TaskId) : Prop := ∃ next, m.waiting? id = some (.queued next)

/-- Whether a task waits where it may stand at the gate of a kind of request. -/
def WaitsAt (m : Session α) (op : Operation) (id : TaskId) : Prop :=
  ∃ w, m.waiting? id = some w ∧ w.gate? = some op

/-- Whether a session has one store only, and its lists of tasks agree with what the tasks wait for,
when `queue` is the queue for the defaults. -/
structure Tidy (m : Session α) (queue : List TaskId) : Prop where
  alone : m.others = .empty
  gated : ∀ {op id}, id ∈ m.gates.getD op [] → m.WaitsAt op id
  apart : ∀ {op id}, id ∈ m.ready → id ∉ m.gates.getD op []
  due : ∀ {id}, id ∈ m.ready → id ∉ queue
  queued : ∀ {id}, id ∈ queue → m.Queues id

/-- Whether a task is on none of the lists. -/
structure Unlisted (m : Session α) (queue : List TaskId) (id : TaskId) : Prop where
  idle : id ∉ m.ready
  ungated : ∀ op, id ∉ m.gates.getD op []
  unqueued : id ∉ queue

theorem WaitsAt.not_queues {m : Session α} {op : Operation} {id : TaskId} (h : m.WaitsAt op id) :
    ¬m.Queues id := by
  rintro ⟨next, hnext⟩
  obtain ⟨w, hw, hgate⟩ := h
  rw [hnext] at hw
  cases hw
  contradiction

theorem WaitsAt.unique {m : Session α} {op op' : Operation} {id : TaskId} (h : m.WaitsAt op id)
    (h' : m.WaitsAt op' id) : op = op' := by
  obtain ⟨w, hw, hgate⟩ := h
  obtain ⟨w', hw', hgate'⟩ := h'
  rw [hw] at hw'
  cases hw'
  rw [hgate] at hgate'
  exact Option.some.inj hgate'

theorem waiting?_eq_of_agreeBut {m n : Session α} {id x : TaskId} (h : AgreeBut id m n)
    (hx : x ≠ id) : n.waiting? x = m.waiting? x := by
  unfold waiting?
  rw [h.2 x hx]

theorem waiting?_finish (m : Session α) (id : TaskId) (a : α) :
    (m.finish id a).waiting? id = none := by
  unfold waiting? finish
  split
  · simp
  · simp_all

theorem waiting?_wait {m : Session α} {id : TaskId} (h : m.waiting? id ≠ none) (w : Waiting α) :
    (m.wait id w).waiting? id = some w := by
  unfold waiting? at h ⊢
  unfold wait
  split
  · simp
  · simp_all

/-- What else is noted of a task makes no difference to what it waits for. -/
theorem waiting?_insert {m : Session α} {id : TaskId} {task : Task α}
    (htask : m.tasks.get? id = some task) (task' : Task α) (hw : task'.waiting = task.waiting)
    (x : TaskId) :
    ({ m with tasks := m.tasks.insert id task' } : Session α).waiting? x = m.waiting? x := by
  unfold waiting?
  rw [Keyed.get?_insert]
  split
  · rename_i hx
    rw [hx, htask, Option.map_some, Option.map_some, hw]
  · rfl

section

variable (m : Session α) (id : TaskId) (w : Waiting α)

theorem store_wait : (m.wait id w).store = m.store := by
  unfold wait
  split <;> rfl

theorem server_wait : (m.wait id w).server = m.server := by
  unfold wait
  split <;> rfl

theorem others_wait : (m.wait id w).others = m.others := by
  unfold wait
  split <;> rfl

theorem gates_wait : (m.wait id w).gates = m.gates := by
  unfold wait
  split <;> rfl

theorem ended_wait : (m.wait id w).ended = m.ended := by
  unfold wait
  split <;> rfl

end

/-- A change that concerns one task, which was on none of the lists, keeps a session tidy if it puts
the task only on the list where it belongs. -/
theorem Tidy.change {m n : Session α} {queue queue' : List TaskId} {id : TaskId} (h : m.Tidy queue)
    (hid : m.Unlisted queue id) (hagree : AgreeBut id m n) (hothers : n.others = m.others)
    (hgates : ∀ {op x}, x ∈ n.gates.getD op [] →
      x ∈ m.gates.getD op [] ∨ x = id ∧ n.WaitsAt op id)
    (hqueue : ∀ {x}, x ∈ queue' → x ∈ queue ∨ x = id ∧ n.Queues id) : n.Tidy queue' := by
  have hready : ∀ {x}, x ∈ n.ready → x ∈ m.ready ∧ x ≠ id := by
    intro x hx
    rw [hagree.1] at hx
    refine ⟨hx, ?_⟩
    rintro rfl
    exact hid.idle hx
  refine ⟨hothers.trans h.alone, ?_, ?_, ?_, ?_⟩
  · intro op x hx
    rcases hgates hx with hold | ⟨rfl, hwaits⟩
    · have hne : x ≠ id := by
        rintro rfl
        exact hid.ungated op hold
      obtain ⟨w, hw, hgate⟩ := h.gated hold
      exact ⟨w, (waiting?_eq_of_agreeBut hagree hne).trans hw, hgate⟩
    · exact hwaits
  · intro op x hx hgate
    obtain ⟨hold, hne⟩ := hready hx
    rcases hgates hgate with hgate | ⟨rfl, -⟩
    · exact h.apart hold hgate
    · exact hne rfl
  · intro x hx hmem
    obtain ⟨hold, hne⟩ := hready hx
    rcases hqueue hmem with hmem | ⟨rfl, -⟩
    · exact h.due hold hmem
    · exact hne rfl
  · intro x hx
    rcases hqueue hx with hold | ⟨rfl, hqueues⟩
    · have hne : x ≠ id := by
        rintro rfl
        exact hid.unqueued hold
      obtain ⟨next, hnext⟩ := h.queued hold
      exact ⟨next, (waiting?_eq_of_agreeBut hagree hne).trans hnext⟩
    · exact hqueues

/-- What leaves the lists alone, and what the tasks wait for, keeps a session tidy. -/
theorem Tidy.of_same_lists {m n : Session α} {queue : List TaskId} (h : m.Tidy queue)
    (hothers : n.others = m.others) (hgates : n.gates = m.gates) (hready : n.ready = m.ready)
    (hwaiting : ∀ id, n.waiting? id = m.waiting? id) : n.Tidy queue := by
  refine ⟨hothers.trans h.alone, ?_, ?_, ?_, ?_⟩
  · intro op id hid
    rw [hgates] at hid
    unfold WaitsAt
    rw [hwaiting]
    exact h.gated hid
  · intro op id hid
    rw [hready] at hid
    rw [hgates]
    exact h.apart hid
  · intro id hid
    rw [hready] at hid
    exact h.due hid
  · intro id hid
    unfold Queues
    rw [hwaiting]
    exact h.queued hid

/-- A queue may be forgotten. -/
theorem Tidy.clear {m : Session α} {queue : List TaskId} (h : m.Tidy queue) : m.Tidy [] :=
  ⟨h.alone, h.gated, h.apart, fun _ => List.not_mem_nil, fun hid => absurd hid List.not_mem_nil⟩

/-- There is no other store to switch to. -/
theorem Tidy.switchTo {m : Session α} {queue : List TaskId} (h : m.Tidy queue) (generation : Nat) :
    m.switchTo generation = m := by
  unfold Session.switchTo
  rw [h.alone, Keyed.get?_empty]

/-! ## One task goes on -/

section

variable {m : Session α} {queue : List TaskId} {id : TaskId}

theorem Tidy.unready (h : m.Tidy queue) (id : TaskId) : (m.unready id).Tidy queue := by
  have hsub : ∀ {x}, x ∈ (m.unready id).ready → x ∈ m.ready := by
    intro x hx
    exact (List.mem_filter.1 hx).1
  refine ⟨h.alone, h.gated, ?_, ?_, h.queued⟩
  · intro op x hx
    exact h.apart (hsub hx)
  · intro x hx
    exact h.due (hsub hx)

/-- A ready task that is about to go on is on none of the lists. -/
theorem Tidy.unlisted (h : m.Tidy queue) (hid : id ∈ m.ready) :
    (m.unready id).Unlisted queue id := by
  refine ⟨?_, ?_, h.due hid⟩
  · simp [Session.unready]
  · intro op
    exact h.apart hid

/-- What it means in a tidy session that a task goes on. -/
theorem Tidy.advance (h : m.Tidy queue) (id : TaskId) :
    m.advance id = match m.waiting? id with
      | some w => (m.unready id).resume id w
      | none => m.unready id := by
  unfold Session.advance waiting?
  cases htask : m.tasks.get? id with
  | none => rfl
  | some task =>
    dsimp only [Option.map_some]
    rw [(h.unready id).switchTo]

theorem Tidy.finish (h : m.Tidy queue) (hid : m.Unlisted queue id) (a : α) :
    (m.finish id a).Tidy queue := by
  refine h.change hid (agreeBut_finish id m a) ?_ ?_ .inl
  · unfold Session.finish
    split <;> rfl
  · intro op x hx
    unfold Session.finish at hx
    split at hx <;> exact .inl hx

theorem Tidy.park (h : m.Tidy queue) (hid : m.Unlisted queue id) (hm : m.waiting? id ≠ none)
    {op : Operation} {w : Waiting α} (hw : w.gate? = some op) : (m.park id op w).Tidy queue := by
  refine h.change hid (agreeBut_park id m op w) (others_wait m id w) ?_ .inl
  · intro op' x hx
    have hinsert : x ∈ ((m.wait id w).gates.insert op
        ((m.wait id w).gates.getD op [] ++ [id])).getD op' [] := hx
    rw [gates_wait, Keyed.getD_insert] at hinsert
    by_cases hop : op' = op
    · rw [if_pos hop, ← hop] at hinsert
      rcases List.mem_append.1 hinsert with hold | hnew
      · exact .inl hold
      · refine .inr ⟨List.mem_singleton.1 hnew, w, waiting?_wait hm w, ?_⟩
        rw [hw, hop]
    · rw [if_neg hop] at hinsert
      exact .inl hinsert

theorem Tidy.enqueue (h : m.Tidy queue) (hid : m.Unlisted queue id) (hm : m.waiting? id ≠ none)
    (next : Except StoreError Defaults → Program α) :
    (m.wait id (.queued next)).Tidy (queue ++ [id]) := by
  refine h.change hid (agreeBut_wait id m _) (others_wait m id _) ?_ ?_
  · intro op x hx
    rw [gates_wait] at hx
    exact .inl hx
  · intro x hx
    rcases List.mem_append.1 hx with hold | hnew
    · exact .inl hold
    · exact .inr ⟨List.mem_singleton.1 hnew, next, waiting?_wait hm _⟩

end

/-! ## The defaults have been found out -/

theorem Waiting.deliver_deliver (result : Except StoreError Defaults) (w : Waiting α) :
    (w.deliver result).deliver result = w.deliver result := by
  cases w <;> rfl

theorem waiting?_deliver (result : Except StoreError Defaults) (m : Session α) (id x : TaskId) :
    (deliver result m id).waiting? x =
      if x = id then (m.waiting? x).map (Waiting.deliver result) else m.waiting? x := by
  by_cases hx : x = id
  · subst hx
    rw [if_pos rfl]
    unfold Session.deliver
    split
    · rename_i next hnext
      have hwaits : m.waiting? x = some (.queued next) := hnext
      have hwait := waiting?_wait (m := m) (hwaits ▸ Option.some_ne_none _) (.turn (next result))
      rw [hwaits]
      exact hwait
    · rename_i hnone
      cases hwaits : m.waiting? x with
      | none => rfl
      | some w =>
        cases w with
        | queued next => exact absurd hwaits (hnone next)
        | _ => rfl
  · rw [if_neg hx]
    unfold Session.deliver
    split
    · rename_i next _
      exact (waiting?_eq_of_agreeBut (agreeBut_wait id m (.turn (next result))) hx :)
    · rfl

theorem waiting?_foldl_deliver (result : Except StoreError Defaults) (queue : List TaskId)
    (m : Session α) (x : TaskId) : (queue.foldl (deliver result) m).waiting? x =
      if x ∈ queue then (m.waiting? x).map (Waiting.deliver result) else m.waiting? x := by
  induction queue generalizing m with
  | nil => rfl
  | cons id queue ih =>
    rw [List.foldl_cons, ih, waiting?_deliver]
    by_cases hx : x = id
    · subst hx
      simp [Function.comp_def, Waiting.deliver_deliver]
    · simp [hx]

theorem Tidy.deliver {m : Session α} (h : m.Tidy []) (result : Except StoreError Defaults)
    (id : TaskId) : (deliver result m id).Tidy [] := by
  unfold Session.deliver
  split
  · rename_i next hnext
    have hqueues : m.Queues id := ⟨next, hnext⟩
    have hungated : ∀ {op}, id ∉ m.gates.getD op [] := by
      intro op hid
      exact (h.gated hid).not_queues hqueues
    refine ⟨(others_wait m id _).trans h.alone, ?_, ?_, fun _ => List.not_mem_nil,
      fun hid => absurd hid List.not_mem_nil⟩
    · intro op x hx
      have hold : x ∈ m.gates.getD op [] := gates_wait m id _ ▸ hx
      have hne : x ≠ id := by
        rintro rfl
        exact hungated hold
      obtain ⟨w, hw, hgate⟩ := h.gated hold
      exact ⟨w, (waiting?_eq_of_agreeBut (agreeBut_wait id m _) hne).trans hw, hgate⟩
    · intro op x hx hgate
      have hold : x ∈ m.gates.getD op [] := gates_wait m id _ ▸ hgate
      rcases List.mem_append.1 hx with hready | hnew
      · exact h.apart hready hold
      · exact hungated (List.mem_singleton.1 hnew ▸ hold)
  · exact h

theorem Tidy.foldl_deliver {m : Session α} (h : m.Tidy []) (result : Except StoreError Defaults)
    (queue : List TaskId) : (queue.foldl (Session.deliver result) m).Tidy [] := by
  induction queue generalizing m with
  | nil => exact h
  | cons id queue ih => exact ih (h.deliver result id)

theorem gates_deliver (result : Except StoreError Defaults) (m : Session α) (id : TaskId) :
    (deliver result m id).gates = m.gates := by
  unfold deliver
  split
  · exact gates_wait m id _
  · rfl

theorem gates_foldl_deliver (result : Except StoreError Defaults) (queue : List TaskId)
    (m : Session α) : (queue.foldl (deliver result) m).gates = m.gates := by
  induction queue generalizing m with
  | nil => rfl
  | cons id queue ih => rw [List.foldl_cons, ih, gates_deliver]

theorem store_foldl_deliver (result : Except StoreError Defaults) (queue : List TaskId)
    (m : Session α) : (queue.foldl (deliver result) m).store = m.store := by
  induction queue generalizing m with
  | nil => rfl
  | cons id queue ih =>
    rw [List.foldl_cons, ih]
    unfold deliver
    split
    · exact store_wait m id _
    · rfl

theorem server_foldl_deliver (result : Except StoreError Defaults) (queue : List TaskId)
    (m : Session α) : (queue.foldl (deliver result) m).server = m.server := by
  induction queue generalizing m with
  | nil => rfl
  | cons id queue ih =>
    rw [List.foldl_cons, ih]
    unfold deliver
    split
    · exact server_wait m id _
    · rfl

theorem ended_foldl_deliver (result : Except StoreError Defaults) (queue : List TaskId)
    (m : Session α) : (queue.foldl (deliver result) m).ended = m.ended := by
  induction queue generalizing m with
  | nil => rfl
  | cons id queue ih =>
    rw [List.foldl_cons, ih]
    unfold deliver
    split
    · exact ended_wait m id _
    · rfl

theorem mem_ready_of_foldl_deliver {result : Except StoreError Defaults} {queue : List TaskId}
    {m : Session α} {x : TaskId} (h : x ∈ (queue.foldl (deliver result) m).ready) :
    x ∈ m.ready ∨ x ∈ queue := by
  induction queue generalizing m with
  | nil => exact .inl h
  | cons id queue ih =>
    rcases ih h with hready | hqueue
    · unfold deliver at hready
      split at hready
      · rcases List.mem_append.1 hready with hold | hnew
        · exact .inl hold
        · exact .inr (List.mem_cons.2 (.inl (List.mem_singleton.1 hnew)))
      · exact .inl hready
    · exact .inr (List.mem_cons_of_mem id hqueue)

/-- Having the defaults found out takes the task that does so nowhere. -/
theorem Tidy.conclude {m : Session α} (h : m.Tidy m.store.resolver.queue) :
    m.conclude.2.Tidy [] :=
  (h.clear.of_same_lists rfl rfl rfl fun _ => rfl : m.discover.2.Tidy []).foldl_deliver _ _

/-! ## From outside -/

theorem waiting?_start_self (m : Session α) (id : TaskId) (p : Program α) (background : Bool) :
    (m.start id p background).waiting? id = some (.turn p) := by
  simp [waiting?, Session.start]

theorem waiting?_start_of_ne (m : Session α) {id x : TaskId} (hx : x ≠ id) (p : Program α)
    (background : Bool) : (m.start id p background).waiting? x = m.waiting? x := by
  simp [waiting?, Session.start, Keyed.get?_insert, hx]

theorem Tidy.start {m : Session α} {queue : List TaskId} (h : m.Tidy queue) {id : TaskId}
    (hid : m.waiting? id = none) (p : Program α) (background : Bool) :
    (m.start id p background).Tidy queue := by
  have hsame : ∀ {x}, x ≠ id → (m.start id p background).waiting? x = m.waiting? x :=
    fun hx => waiting?_start_of_ne m hx p background
  have hgated : ∀ {op x}, x ∈ m.gates.getD op [] → x ≠ id := by
    rintro op x hx rfl
    obtain ⟨w, hw, -⟩ := h.gated hx
    rw [hid] at hw
    contradiction
  have hqueued : ∀ {x}, x ∈ queue → x ≠ id := by
    rintro x hx rfl
    obtain ⟨next, hnext⟩ := h.queued hx
    rw [hid] at hnext
    contradiction
  refine ⟨h.alone, ?_, ?_, ?_, ?_⟩
  · intro op x hx
    obtain ⟨w, hw, hgate⟩ := h.gated hx
    exact ⟨w, (hsame (hgated hx)).trans hw, hgate⟩
  · intro op x hx hgate
    rcases List.mem_append.1 hx with hready | hnew
    · exact h.apart hready hgate
    · exact hgated hgate (List.mem_singleton.1 hnew)
  · intro x hx hmem
    rcases List.mem_append.1 hx with hready | hnew
    · exact h.due hready hmem
    · exact hqueued hmem (List.mem_singleton.1 hnew)
  · intro x hx
    obtain ⟨next, hnext⟩ := h.queued hx
    exact ⟨next, (hsame (hqueued hx)).trans hnext⟩

theorem Tidy.hold {m : Session α} {queue : List TaskId} (h : m.Tidy queue) (op : Operation) :
    (m.hold op).Tidy queue := by
  have hsub : ∀ {op' id}, id ∈ (m.hold op).gates.getD op' [] → id ∈ m.gates.getD op' [] := by
    intro op' id hid
    have hinsert : id ∈ (m.gates.insert op []).getD op' [] := hid
    rw [Keyed.getD_insert] at hinsert
    split at hinsert
    · exact absurd hinsert List.not_mem_nil
    · exact hinsert
  refine ⟨h.alone, ?_, ?_, h.due, h.queued⟩
  · intro op' id hid
    exact h.gated (hsub hid)
  · intro op' id hid hgate
    exact h.apart hid (hsub hgate)

theorem Tidy.release {m : Session α} {queue : List TaskId} (h : m.Tidy queue) (op : Operation) :
    (m.release op).Tidy queue := by
  have hsub : ∀ {op' id}, id ∈ (m.release op).gates.getD op' [] →
      op' ≠ op ∧ id ∈ m.gates.getD op' [] := by
    intro op' id hid
    have herase : id ∈ (m.gates.erase op).getD op' [] := hid
    rw [Keyed.getD_erase] at herase
    split at herase
    · exact absurd herase List.not_mem_nil
    · exact ⟨by assumption, herase⟩
  refine ⟨h.alone, ?_, ?_, ?_, h.queued⟩
  · intro op' id hid
    exact h.gated (hsub hid).2
  · intro op' id hid hgate
    obtain ⟨hne, hold⟩ := hsub hgate
    rcases List.mem_append.1 hid with hready | hreleased
    · exact h.apart hready hold
    · exact hne ((h.gated hold).unique (h.gated hreleased))
  · intro id hid hmem
    rcases List.mem_append.1 hid with hready | hreleased
    · exact h.due hready hmem
    · exact (h.gated hreleased).not_queues (h.queued hmem)

theorem waiting?_dismiss (m : Session α) (id x : TaskId) :
    (m.dismiss id).waiting? x = if x = id then none else m.waiting? x := by
  simp only [waiting?, dismiss, Keyed.get?_erase]
  split <;> rfl

theorem Tidy.dismiss {m : Session α} {queue : List TaskId} (h : m.Tidy queue) (id : TaskId) :
    (m.dismiss id).Tidy (queue.filter (· ≠ id)) := by
  have hsame : ∀ {x}, x ≠ id → (m.dismiss id).waiting? x = m.waiting? x := by
    intro x hx
    rw [waiting?_dismiss, if_neg hx]
  have hsub : ∀ {op x}, x ∈ (m.dismiss id).gates.getD op [] → x ∈ m.gates.getD op [] ∧ x ≠ id := by
    intro op x hx
    have hmap : x ∈ (m.gates.mapValues fun ids => ids.filter (· ≠ id)).getD op [] := hx
    unfold Keyed.getD at hmap ⊢
    rw [Keyed.get?_mapValues] at hmap
    cases hgate : m.gates.get? op with
    | none =>
      rw [hgate] at hmap
      exact absurd hmap List.not_mem_nil
    | some ids =>
      rw [hgate] at hmap
      simpa using hmap
  have hready : ∀ {x}, x ∈ (m.dismiss id).ready → x ∈ m.ready := by
    intro x hx
    exact (List.mem_filter.1 hx).1
  refine ⟨h.alone, ?_, ?_, ?_, ?_⟩
  · intro op x hx
    obtain ⟨hold, hne⟩ := hsub hx
    obtain ⟨w, hw, hgate⟩ := h.gated hold
    exact ⟨w, (hsame hne).trans hw, hgate⟩
  · intro op x hx hgate
    exact h.apart (hready hx) (hsub hgate).1
  · intro x hx hmem
    exact h.due (hready hx) (List.mem_filter.1 hmem).1
  · intro x hx
    obtain ⟨hold, hne⟩ := List.mem_filter.1 hx
    obtain ⟨next, hnext⟩ := h.queued hold
    exact ⟨next, (hsame (of_decide_eq_true hne)).trans hnext⟩

/-- Dismissing a task that does not queue leaves the queue alone. -/
theorem Tidy.dismiss_of_not_queues {m : Session α} {queue : List TaskId} (h : m.Tidy queue)
    {id : TaskId} (hid : ¬m.Queues id) : (m.dismiss id).Tidy queue := by
  have hfilter : queue.filter (· ≠ id) = queue := by
    rw [List.filter_eq_self]
    intro x hx
    apply decide_eq_true
    rintro rfl
    exact hid (h.queued hx)
  rw [← hfilter]
  exact h.dismiss id

/-- The tasks that queue may all be made ready. -/
theorem Tidy.wake {m : Session α} {queue ids : List TaskId} (h : m.Tidy queue)
    (hids : ∀ {id}, id ∈ ids → id ∈ queue) :
    ({ m with ready := m.ready ++ ids } : Session α).Tidy [] := by
  refine ⟨h.alone, h.gated, ?_, fun _ => List.not_mem_nil, fun hid => absurd hid List.not_mem_nil⟩
  intro op id hid hgate
  rcases List.mem_append.1 hid with hready | hnew
  · exact h.apart hready hgate
  · exact (h.gated hgate).not_queues (h.queued (hids hnew))

theorem settle_of_ready {m : Session α} {id : TaskId} {ids : List TaskId}
    (h : m.ready = id :: ids) : m.settle = (m.advance id).settle := by
  rw [settle]
  split
  · simp_all
  · simp_all

end Session

end TiddlerShelf
