import TiddlerShelf.Session.Basic

/-!
# Settling

A session settles when its tasks have gone on until none is ready. This ends: running one task makes
others ready only where it has found out the defaults for those queued behind it, and a task that
does so is not made ready by others. `ready_settle` says that no task is ready afterwards.
-/

namespace TiddlerShelf.Session

variable {α : Type}

/-- Whether a task is finding out the defaults. -/
def isDiscovering (m : Session α) (id : TaskId) : Bool :=
  (m.tasks.get? id).any (·.waiting.isDiscovery)

/-- How many of the ready tasks will have found out the defaults. -/
def discoveries (m : Session α) : Nat := m.ready.countP m.isDiscovering

/-- Whether two sessions agree in what is ready and in all tasks but one. -/
def AgreeBut (id : TaskId) (m n : Session α) : Prop :=
  n.ready = m.ready ∧ ∀ x, x ≠ id → n.tasks.get? x = m.tasks.get? x

theorem AgreeBut.refl (id : TaskId) (m : Session α) : AgreeBut id m m := ⟨rfl, fun _ _ => rfl⟩

theorem agreeBut_wait (id : TaskId) (m : Session α) (w : Waiting α) :
    AgreeBut id m (m.wait id w) := by
  unfold wait
  split
  · exact ⟨rfl, fun x hx => by simp [Keyed.get?_insert, hx]⟩
  · exact .refl _ _

theorem agreeBut_park (id : TaskId) (m : Session α) (op : Operation) (w : Waiting α) :
    AgreeBut id m (m.park id op w) := agreeBut_wait id m w

theorem agreeBut_finish (id : TaskId) (m : Session α) (a : α) : AgreeBut id m (m.finish id a) := by
  unfold finish
  split
  · exact ⟨rfl, fun x hx => by simp [Keyed.get?_erase, hx]⟩
  · exact .refl _ _

/-- Running a task leaves the other tasks and what is ready alone. -/
theorem agreeBut_run (id : TaskId) (p : Program α) (m : Session α) :
    AgreeBut id m (run id p m) := by
  induction p generalizing m with
  | done a => exact agreeBut_finish id m a
  | look next ih => exact ih _ _
  | write s next ih => exact ih _
  | ask r next ih =>
    simp only [run]
    split
    · exact agreeBut_park id _ _ _
    · exact ih _ _
  | resolve next ih =>
    simp only [run]
    split
    · exact ih _ _
    · exact agreeBut_wait id _ _
    · split
      · exact agreeBut_park id _ _ _
      · exact ih _ _

theorem isDiscovering_eq_of_agreeBut {id : TaskId} {m n : Session α} (h : AgreeBut id m n)
    {x : TaskId} (hx : x ≠ id) : n.isDiscovering x = m.isDiscovering x := by
  simp [isDiscovering, h.2 x hx]

theorem discoveries_eq_of_agreeBut {id : TaskId} {m n : Session α} (h : AgreeBut id m n)
    (hid : id ∉ m.ready) : n.discoveries = m.discoveries := by
  unfold discoveries
  rw [h.1]
  exact List.countP_congr fun x hx => by
    rw [isDiscovering_eq_of_agreeBut h (fun heq => hid (heq ▸ hx))]

/-- Giving the defaults to a queued task makes it ready, and it is not the one that finds
them out. -/
theorem discoveries_deliver (result : Except StoreError Defaults) (m : Session α) (id : TaskId) :
    (deliver result m id).discoveries = m.discoveries := by
  unfold deliver
  split
  · rename_i next hwaiting
    obtain ⟨task, hget, hqueued⟩ := Option.map_eq_some_iff.1 hwaiting
    have hagree := agreeBut_wait id m (.turn (next result))
    simp only [discoveries, List.countP_append, List.countP_singleton]
    have hself : (m.wait id (.turn (next result))).isDiscovering id = false := by
      simp [isDiscovering, wait, hget, Waiting.isDiscovery]
    have hbefore : m.isDiscovering id = false := by
      simp [isDiscovering, hget, hqueued, Waiting.isDiscovery]
    have hcongr : m.ready.countP (m.wait id (.turn (next result))).isDiscovering =
        m.ready.countP m.isDiscovering :=
      List.countP_congr fun x _ => by
        by_cases hx : x = id
        · rw [hx, hself, hbefore]
        · rw [isDiscovering_eq_of_agreeBut hagree hx]
    have hnew : ({ m.wait id (.turn (next result)) with ready := m.ready ++ [id] } :
        Session α).isDiscovering = (m.wait id (.turn (next result))).isDiscovering := rfl
    rw [hnew, hself, hcongr]
    simp
  · rfl

/-- A task that is finding out the defaults is not among those that get them delivered. -/
theorem deliver_of_isDiscovering (result : Except StoreError Defaults) (m : Session α)
    {id : TaskId} (x : TaskId) (hid : m.isDiscovering id = true) (hready : id ∉ m.ready) :
    (deliver result m x).isDiscovering id = true ∧ id ∉ (deliver result m x).ready := by
  unfold deliver
  split
  · rename_i next hwaiting
    obtain ⟨task, hget, hqueued⟩ := Option.map_eq_some_iff.1 hwaiting
    have hne : id ≠ x := by
      intro heq
      rw [heq] at hid
      simp [isDiscovering, hget, hqueued, Waiting.isDiscovery] at hid
    have hagree := agreeBut_wait x m (.turn (next result))
    refine ⟨?_, ?_⟩
    · rw [← hid]
      exact isDiscovering_eq_of_agreeBut hagree hne
    · simp [hready, hne]
  · exact ⟨hid, hready⟩

theorem foldl_deliver (result : Except StoreError Defaults) (queue : List TaskId) (m : Session α)
    {id : TaskId} (hid : m.isDiscovering id = true) (hready : id ∉ m.ready) :
    (queue.foldl (deliver result) m).discoveries = m.discoveries ∧
      id ∉ (queue.foldl (deliver result) m).ready := by
  induction queue generalizing m with
  | nil => exact ⟨rfl, hready⟩
  | cons x queue ih =>
    obtain ⟨h₁, h₂⟩ := deliver_of_isDiscovering result m x hid hready
    obtain ⟨h₃, h₄⟩ := ih (deliver result m x) h₁ h₂
    exact ⟨h₃.trans (discoveries_deliver result m x), h₄⟩

theorem agreeBut_switchTo (id : TaskId) (m : Session α) (generation : Nat) :
    AgreeBut id m (m.switchTo generation) := by
  unfold switchTo
  split <;> exact ⟨rfl, fun _ _ => rfl⟩

theorem discoveries_unready_le (m : Session α) (id : TaskId) :
    (m.unready id).discoveries ≤ m.discoveries :=
  List.Sublist.countP_le List.filter_sublist

theorem discoveries_unready_lt {m : Session α} {id : TaskId} (hmem : id ∈ m.ready)
    (hid : m.isDiscovering id = true) : (m.unready id).discoveries < m.discoveries := by
  have hsub : (m.ready.filter (· ≠ id)).countP m.isDiscovering ≤
      (m.ready.erase id).countP m.isDiscovering := by
    induction m.ready with
    | nil => simp
    | cons x xs ih =>
      by_cases hx : x = id
      · subst hx
        simpa using List.Sublist.countP_le List.filter_sublist
      · simp only [ne_eq, hx, not_false_eq_true, decide_true, List.filter_cons_of_pos,
          List.countP_cons, List.erase_cons, beq_iff_eq, if_false]
        exact Nat.add_le_add_right ih _
  have hcount : m.discoveries = (m.ready.erase id).countP m.isDiscovering + 1 := by
    unfold discoveries
    rw [(List.perm_cons_erase hmem).countP_eq, List.countP_cons_of_pos hid]
  show (m.ready.filter (· ≠ id)).countP m.isDiscovering < _
  omega

theorem length_unready_lt {m : Session α} {id : TaskId} (hmem : id ∈ m.ready) :
    (m.unready id).ready.length < m.ready.length := by
  have : (m.ready.filter (· ≠ id)).length < m.ready.length :=
    List.length_filter_lt_length_iff_exists.2 ⟨id, hmem, by simp⟩
  exact this

/-- One task that goes on brings the session nearer to being settled. -/
theorem advance_lt (m : Session α) (id : TaskId) (hmem : id ∈ m.ready) :
    (m.advance id).discoveries < m.discoveries ∨
      (m.advance id).discoveries = m.discoveries ∧
        (m.advance id).ready.length < m.ready.length := by
  have hle := discoveries_unready_le m id
  have hlt := length_unready_lt hmem
  have hnot : id ∉ (m.unready id).ready := by simp [unready]
  unfold advance
  split
  · rename_i task hget
    have hswitch := agreeBut_switchTo id (m.unready id) task.generation
    have hsame := discoveries_eq_of_agreeBut hswitch hnot
    have hnot' : id ∉ ((m.unready id).switchTo task.generation).ready := hswitch.1 ▸ hnot
    have hplain : ∀ n : Session α,
        AgreeBut id ((m.unready id).switchTo task.generation) n →
        n.discoveries < m.discoveries ∨
          n.discoveries = m.discoveries ∧ n.ready.length < m.ready.length := by
      intro n hn
      have hn' := discoveries_eq_of_agreeBut hn hnot'
      have hready : n.ready = (m.unready id).ready := hn.1.trans hswitch.1
      rw [hready]
      omega
    match hw : task.waiting with
    | .turn p => exact hplain _ (agreeBut_run id p _)
    | .answer r next => exact hplain _ (agreeBut_run id _ _)
    | .queued next => exact hplain _ (agreeBut_run id _ _)
    | .discovery next =>
      left
      have hself : m.isDiscovering id = true := by
        simp [isDiscovering, hget, hw, Waiting.isDiscovery]
      have hdec := discoveries_unready_lt hmem hself
      have htasks : ((m.unready id).switchTo task.generation).tasks = m.tasks := by
        unfold switchTo
        split <;> rfl
      have hself' :
          ((m.unready id).switchTo task.generation).discover.2.isDiscovering id = true := by
        rw [← hself]
        show ((((m.unready id).switchTo task.generation).tasks.get? id).any _) = _
        rw [htasks]
        rfl
      have hfold := foldl_deliver ((m.unready id).switchTo task.generation).discover.1
        ((m.unready id).switchTo task.generation).store.resolver.queue
        ((m.unready id).switchTo task.generation).discover.2 hself' hnot'
      have hrun := agreeBut_run id (next ((m.unready id).switchTo task.generation).conclude.1)
        ((m.unready id).switchTo task.generation).conclude.2
      have heq := discoveries_eq_of_agreeBut hrun hfold.2
      have hdiscover : ((m.unready id).switchTo task.generation).discover.2.discoveries =
          ((m.unready id).switchTo task.generation).discoveries := rfl
      show (run id (next ((m.unready id).switchTo task.generation).conclude.1)
        ((m.unready id).switchTo task.generation).conclude.2).discoveries < _
      rw [heq]
      have : ((m.unready id).switchTo task.generation).conclude.2.discoveries =
          ((m.unready id).switchTo task.generation).discover.2.discoveries := hfold.1
      omega
  · omega

/-- Lets ready tasks go on, the first one first, until none is ready. -/
def settle (m : Session α) : Session α :=
  match hready : m.ready with
  | [] => m
  | id :: _ =>
    have _hmem : id ∈ m.ready := hready ▸ List.mem_cons_self
    settle (m.advance id)
termination_by (m.discoveries, m.ready.length)
decreasing_by
  rcases advance_lt m id _hmem with h | ⟨h, h'⟩
  · exact Prod.Lex.left _ _ h
  · rw [h]
    exact Prod.Lex.right _ h'

/-- No task is ready in a settled session. -/
theorem ready_settle (m : Session α) : m.settle.ready = [] := by
  fun_induction settle m with
  | case1 m h => exact h
  | case2 m id rest h hmem ih => exact ih

end TiddlerShelf.Session
