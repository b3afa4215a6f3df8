import TiddlerShelf.Proofs.Activity

/-! # Activities whose tasks keep to contracts

If the programs of all calls keep to contracts, then whatever waiting tasks will do keeps to them
too, in every activity that can come about. So each time a task goes on, it goes through a stretch
that the contract of its call allows (`Step.keeps`). -/

namespace TiddlerShelf

open Program

namespace Activity

/-- Whether all that a waiting task will do keeps to a contract. -/
def Phase.Heeds (C : Contract) : Phase → Prop
  | asking r since next => ∀ answer s, (next answer).Keeps C (.answered since r answer) s s
  | discovering next | queued next => ∀ result s, (next result).Keeps C (.resolved result) s s
  | informed result next => ∀ s, (next result).Keeps C (.resolved result) s s

/-- Whether all waiting tasks keep to the contracts of their calls. -/
def Heeds (C : Call → Contract) (a : Activity) : Prop :=
  ∀ {id t}, a.tasks id = some t → t.phase.Heeds (C t.call)

/-- How a task stands after a stretch that has led to a store. -/
inductive Rests (c : Call) (s : Store) : Halt → Option Task → Prop
  | ended : Rests c s .over none
  | asking {r : Request} (next : Except RemoteError r.Reply → Program Call.Outcome) :
    Rests c s (.asks r) (some ⟨c, .asking r s next⟩)
  | queued (hne : ∀ d, s.resolver ≠ .resolved d)
    (next : Except StoreError Defaults → Program Call.Outcome) :
    Rests c s .waits (some ⟨c, .queued next⟩)
  | discovering (hne : ∀ d, s.resolver ≠ .resolved d)
    (next : Except StoreError Defaults → Program Call.Outcome) :
    Rests c s .waits (some ⟨c, .discovering next⟩)

/-- What a task does that goes on: a stretch that a contract allows, from the store before to the
store after. Finding out the defaults may have moved on before it if it waited for that, and after
it if it waits for that now. -/
structure Stretch (C : Contract) (id : TaskId) (c : Call) (k : Cause) (a b : Activity)
    (s₀ s : Store) (halt : Halt) : Prop where
  keeps : C k s₀ s halt
  before : ∃ resolver, s₀ = a.store.withResolver resolver ∧
    ((∀ result, k ≠ .resolved result) → resolver = a.store.resolver)
  after : ∃ resolver, b.store = s.withResolver resolver ∧ (halt ≠ .waits → resolver = s.resolver)
  rests : Rests c s halt (b.tasks id)

/-- A task after one of all tasks has been replaced is the new one, or it was there before. -/
theorem task_of_update {a : Activity} {id x : TaskId} {t : Option Task} {u : Task}
    (hu : Function.update a.tasks id t x = some u) : t = some u ∨ a.tasks x = some u := by
  by_cases hx : x = id
  · rw [hx, Function.update_self] at hu
    exact .inl hu
  · rw [Function.update_of_ne hx] at hu
    exact .inr hu

theorem goOn_tasks_of_ne {a : Activity} {id x : TaskId} (hx : x ≠ id) (c : Call)
    (p : Program Call.Outcome) : (a.goOn id c p).tasks x = a.tasks x := by
  unfold goOn
  split
  · exact Function.update_of_ne hx _ _
  · exact Function.update_of_ne hx _ _
  · split <;> exact Function.update_of_ne hx _ _

theorem fresh_goOn (a : Activity) (id : TaskId) (c : Call) (p : Program Call.Outcome) :
    (a.goOn id c p).fresh = a.fresh := by
  unfold goOn
  split
  · rfl
  · rfl
  · split <;> rfl

/-- Going on with a program that keeps to a contract is a stretch that the contract allows, and the
task then rests in a phase that keeps to the contract. -/
theorem stretch_goOn {C : Contract} {a : Activity} (id : TaskId) (c : Call)
    {p : Program Call.Outcome} {k : Cause} (h : p.Keeps C k a.store a.store) :
    (∃ s halt, Stretch C id c k a (a.goOn id c p) a.store s halt) ∧
      ∀ t, (a.goOn id c p).tasks id = some t → t.phase.Heeds C := by
  obtain ⟨hkeeps, hpause⟩ := h.proceed
  have hself : ∀ t : Option Task, Function.update a.tasks id t id = t :=
    fun t => Function.update_self id t a.tasks
  have hrests : ∀ {s halt t}, Rests c s halt t →
      Rests c s halt (Function.update a.tasks id t id) :=
    fun h => (hself _).symm ▸ h
  have hbefore : ∃ resolver, a.store = a.store.withResolver resolver ∧
      ((∀ result, k ≠ .resolved result) → resolver = a.store.resolver) :=
    ⟨a.store.resolver, rfl, fun _ => rfl⟩
  unfold goOn
  split
  · rename_i s outcome heq
    rw [heq] at hkeeps
    refine ⟨⟨s, .over, hkeeps, hbefore, ⟨_, rfl, fun _ => rfl⟩, hrests .ended⟩, ?_⟩
    intro t ht
    have hnone := (hself none).symm.trans ht
    contradiction
  · rename_i s r next heq
    rw [heq] at hkeeps hpause
    refine ⟨⟨s, .asks r, hkeeps, hbefore, ⟨s.resolver, rfl, fun _ => rfl⟩, hrests (.asking next)⟩,
      fun t ht => ?_⟩
    obtain rfl := Option.some.inj ((hself _).symm.trans ht)
    exact hpause
  · rename_i s next heq
    rw [heq] at hkeeps hpause
    have hwaits : ∀ {p : Prop}, Halt.waits ≠ Halt.waits → p := fun h => absurd rfl h
    split
    · refine ⟨⟨s, .waits, hkeeps, hbefore, ⟨_, rfl, hwaits⟩, hrests (.queued hpause.1 next)⟩,
        fun t ht => ?_⟩
      obtain rfl := Option.some.inj ((hself _).symm.trans ht)
      exact hpause.2
    · refine ⟨⟨s, .waits, hkeeps, hbefore, ⟨_, rfl, hwaits⟩, hrests (.discovering hpause.1 next)⟩,
        fun t ht => ?_⟩
      obtain rfl := Option.some.inj ((hself _).symm.trans ht)
      exact hpause.2

theorem goOn_call {a : Activity} {id : TaskId} {c : Call} {p : Program Call.Outcome} {t : Task}
    (ht : (a.goOn id c p).tasks id = some t) : t.call = c := by
  have hself : ∀ {u : Option Task}, Function.update a.tasks id u id = some t → u = some t :=
    fun {u} h => (Function.update_self id u a.tasks).symm.trans h
  unfold goOn at ht
  split at ht
  · exact absurd (hself ht).symm (Option.some_ne_none t)
  · exact Option.some.inj (hself ht) ▸ rfl
  · split at ht <;> exact Option.some.inj (hself ht) ▸ rfl

theorem inform_tasks (a : Activity) (result : Except StoreError Defaults) (id : TaskId) :
    (a.inform result).tasks id = a.tasks id ∨
      (a.inform result).tasks id = (a.tasks id).map (Task.inform result) := by
  unfold inform
  by_cases h : id ∈ a.store.resolver.queue
  · exact .inr (if_pos h)
  · exact .inl (if_neg h)

/-- Where a task starts over to wait for defaults that are not known, it waits for them again. -/
theorem goOn_resolve {a : Activity} (id : TaskId) (c : Call)
    (next : Except StoreError Defaults → Program Call.Outcome)
    (hne : ∀ d, a.store.resolver ≠ .resolved d) :
    ∃ resolver t, a.goOn id c (.resolve next) =
        { a.setTask id (some t) with store := a.store.withResolver resolver } ∧
      (t = ⟨c, .queued next⟩ ∨ t = ⟨c, .discovering next⟩) := by
  have hproceed : (Program.resolve next).proceed a.store = (a.store, .resolving next) := by
    unfold Program.proceed
    split
    · rename_i d hd
      exact absurd hd (hne d)
    · rfl
  unfold goOn
  rw [hproceed]
  dsimp only
  split
  · exact ⟨_, _, rfl, .inl rfl⟩
  · exact ⟨_, _, rfl, .inr rfl⟩

section

variable {C : Call → Contract} {a b : Activity}

theorem Heeds.goOn (ha : a.Heeds C) {id : TaskId} {c : Call} {p : Program Call.Outcome} {k : Cause}
    (h : p.Keeps (C c) k a.store a.store) : (a.goOn id c p).Heeds C := by
  intro x t ht
  by_cases hx : x = id
  · subst hx
    rw [goOn_call ht]
    exact (stretch_goOn x c h).2 t ht
  · rw [goOn_tasks_of_ne hx] at ht
    exact ha ht

theorem Heeds.inform (ha : a.Heeds C) (result : Except StoreError Defaults) :
    (a.inform result).Heeds C := by
  intro id t ht
  rcases inform_tasks a result id with h | h
  · exact ha (h ▸ ht)
  · rw [h] at ht
    obtain ⟨⟨c, phase⟩, hu, rfl⟩ := Option.map_eq_some_iff.1 ht
    have hphase : phase.Heeds (C c) := ha hu
    cases phase with
    | queued next => exact hphase result
    | asking r since next => exact hphase
    | discovering next => exact hphase
    | informed result' next => exact hphase

theorem Heeds.setTask (ha : a.Heeds C) {id : TaskId} {t : Option Task} {s : Store}
    (ht : ∀ u, t = some u → u.phase.Heeds (C u.call)) :
    Heeds C { a.setTask id t with store := s } := by
  intro x u hu
  rcases task_of_update hu with hnew | hold
  · exact ht u hnew
  · exact ha hold

/-- A step that is no stretch of a task and no deed changes of the store only how far finding out
the defaults is. -/
theorem Step.store_cases {m : Move} (h : Step a m b) :
    (∃ id c k, m = .go id c k) ∨ (∃ resolver, b.store = a.store.withResolver resolver) ∨
      ∃ d, m = .deed d ∧ b.store = d.on a.store := by
  cases h with
  | again ht hqueue hne =>
    obtain ⟨resolver, t, heq, -⟩ := goOn_resolve _ _ _ hne
    rw [heq]
    exact .inr (.inl ⟨resolver, rfl⟩)
  | drop ht => exact .inr (.inl ⟨_, rfl⟩)
  | deed d => exact .inr (.inr ⟨d, rfl, rfl⟩)
  | _ => exact .inl ⟨_, _, _, rfl⟩

/-- When a task goes on, it does a stretch that its contract allows. -/
theorem Step.keeps {id : TaskId} {c : Call} {k : Cause} (h : Step a (.go id c k) b)
    (ha : a.Heeds C) (hc : ∀ s, c.program.Keeps (C c) .called s s) :
    ∃ s₀ s halt, Stretch (C c) id c k a b s₀ s halt := by
  cases h with
  | call hid =>
    obtain ⟨⟨s, halt, hkeeps, -, hafter, hrests⟩, -⟩ :=
      stretch_goOn (a := { a with fresh := id + 1 }) id c (hc a.store)
    exact ⟨a.store, s, halt, hkeeps, ⟨_, rfl, fun _ => rfl⟩, hafter, hrests⟩
  | answer ht answer =>
    obtain ⟨⟨s, halt, hstretch⟩, -⟩ := stretch_goOn id c (ha ht answer a.store)
    exact ⟨_, s, halt, hstretch⟩
  | @learn _ _ next ht _ result hresult =>
    obtain ⟨⟨s, halt, hkeeps, -, hafter, hrests⟩, -⟩ :=
      stretch_goOn id c (ha ht result (a.inform result).store)
    exact ⟨_, s, halt, hkeeps, ⟨_, rfl, fun hk => absurd rfl (hk result)⟩, hafter, hrests⟩
  | informed ht =>
    obtain ⟨⟨s, halt, hstretch⟩, -⟩ := stretch_goOn id c (ha ht a.store)
    exact ⟨_, s, halt, hstretch⟩
  | retry ht hd =>
    obtain ⟨⟨s, halt, hstretch⟩, -⟩ := stretch_goOn id c (ha ht _ a.store)
    exact ⟨_, s, halt, hstretch⟩

/-- All waiting tasks keep to the contracts of their calls, whatever step is taken. -/
theorem Step.heeds {m : Move} (h : Step a m b) (ha : a.Heeds C)
    (hc : ∀ id c, m = .go id c .called → ∀ s, c.program.Keeps (C c) .called s s) : b.Heeds C := by
  cases h with
  | @call id c hid =>
    exact Heeds.goOn (a := { a with fresh := id + 1 }) ha (hc id c rfl a.store)
  | answer ht answer => exact Heeds.goOn ha (ha ht answer a.store)
  | learn ht hresult => exact Heeds.goOn (Heeds.inform ha _) (ha ht _ _)
  | informed ht => exact Heeds.goOn ha (ha ht a.store)
  | retry ht hd => exact Heeds.goOn ha (ha ht _ a.store)
  | @again id c next ht hqueue hne =>
    obtain ⟨resolver, t, heq, hphase⟩ := goOn_resolve id c next hne
    rw [heq]
    apply Heeds.setTask ha
    intro u hu
    obtain rfl := Option.some.inj hu
    have hheeds : Phase.Heeds (C c) (.queued next) := ha ht
    rcases hphase with rfl | rfl <;> exact hheeds
  | drop ht => exact Heeds.setTask ha fun _ h => absurd h.symm (Option.some_ne_none _)
  | deed d => exact ha

end

/-- A task that waits for an answer has just asked for it, or it waited for it before. -/
theorem Step.asking {a b : Activity} {m : Move} (h : Step a m b) {x : TaskId} {c : Call}
    {r : Request} {since : Store} {next : Except RemoteError r.Reply → Program Call.Outcome}
    (ht : b.tasks x = some ⟨c, .asking r since next⟩) :
    (∃ k, m = .go x c k) ∨ a.tasks x = some ⟨c, .asking r since next⟩ := by
  have hgoOn : ∀ {a' : Activity} {id : TaskId} {c' : Call} {k : Cause} {p : Program Call.Outcome},
      (a'.goOn id c' p).tasks x = some ⟨c, .asking r since next⟩ →
      (a'.tasks x = some ⟨c, .asking r since next⟩ → a.tasks x = some ⟨c, .asking r since next⟩) →
      (∃ k', (Move.go id c' k) = .go x c k') ∨ a.tasks x = some ⟨c, .asking r since next⟩ := by
    intro a' id c' k p ht hrest
    by_cases hx : x = id
    · subst hx
      have hcall := goOn_call ht
      exact .inl ⟨k, hcall ▸ rfl⟩
    · rw [goOn_tasks_of_ne hx] at ht
      exact .inr (hrest ht)
  cases h with
  | call hid => exact hgoOn ht id
  | answer _ _ => exact hgoOn ht id
  | @learn id c' _ _ _ result _ =>
    refine hgoOn ht fun hinformed => ?_
    rcases inform_tasks a result x with heq | heq
    · exact heq ▸ hinformed
    · rw [heq] at hinformed
      obtain ⟨⟨c, phase⟩, hu, hphase⟩ := Option.map_eq_some_iff.1 hinformed
      cases phase with
      | queued _ => cases hphase
      | _ => exact hphase ▸ hu
  | informed _ => exact hgoOn ht id
  | retry _ _ => exact hgoOn ht id
  | @again id c' go _ _ hne =>
    obtain ⟨resolver, t, heq, hphase⟩ := goOn_resolve id c' go hne
    rw [heq] at ht
    rcases task_of_update ht with hnew | hold
    · obtain rfl := Option.some.inj hnew
      rcases hphase with hphase | hphase <;> cases hphase
    · exact .inr hold
  | drop _ =>
    rcases task_of_update ht with hnew | hold
    · contradiction
    · exact .inr hold
  | deed _ => exact .inr ht

end Activity

end TiddlerShelf
