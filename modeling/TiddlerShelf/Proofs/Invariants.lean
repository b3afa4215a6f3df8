import TiddlerShelf.Proofs.Heed

/-! # What every activity keeps to

In every activity that can come about the store is sound, and whatever a waiting task will do keeps
to the contract of its call. So each time a task goes on, it does to the edits what its call allows
(`Step.went`), and whatever all moves keep up holds in the end of every run. -/

namespace TiddlerShelf

open Program

namespace Store

theorem Sound.withResolver {s : Store} (h : s.Sound) (resolver : Resolver) :
    (s.withResolver resolver).Sound :=
  h.of_tiers rfl rfl

theorem spares_withResolver (s : Store) (resolver : Resolver) :
    s.Spares (s.withResolver resolver) :=
  ⟨⟨[], rfl, (List.append_nil _).symm⟩, fun h => h.withResolver resolver⟩

/-- Whether a change leads to a sound store and leaves alone how far finding out the defaults is and
the audience where nobody listens. The titles that listeners have had withdrawn only get more. -/
structure Steady (s s' : Store) : Prop where
  sound : s'.Sound
  resolver : s'.resolver = s.resolver
  silent : s.audience.Silent → s'.audience = s.audience
  log : s.audience.withdrawn <+: s'.audience.withdrawn

theorem Sound.steady {s : Store} (h : s.Sound) : Steady s s :=
  ⟨h, rfl, fun _ => rfl, List.prefix_rfl⟩

theorem Steady.quiet {s s' s'' : Store} (h : Steady s s') (h' : s'.Quiet s'') : Steady s s'' := by
  refine ⟨h'.sound h.sound, h'.resolver.trans h.resolver, fun hs => ?_, h.log.trans h'.log⟩
  have haudience := h.silent hs
  rw [h'.silent (haudience ▸ hs), haudience]

theorem Steady.withEdit {s s' : Store} (h : Steady s s') (t : Tiddler) :
    Steady s (s'.withEdit t) :=
  ⟨h.sound.withEdit t, h.resolver, h.silent, h.log⟩

theorem Steady.dropping {s s' : Store} (h : Steady s s') (edit : Option Tiddler) :
    Steady s (s'.dropping edit) := by
  refine ⟨h.sound.dropping edit, ?_, ?_, ?_⟩
  · cases edit <;> exact h.resolver
  · cases edit <;> exact h.silent
  · cases edit <;> exact h.log

theorem kept_steady (s : Store) : Kept (fun _ => True) (Steady s) :=
  ⟨Steady.sound, Steady.quiet, fun h _ => h.withEdit _, Steady.dropping⟩

theorem Steady.fileModified {s s' : Store} (h : Steady s s') (t : Tiddler) :
    Steady s (s'.fileModified t).2 :=
  (kept_steady s).fileModified h trivial

theorem Steady.afterPut {s s' : Store} (h : Steady s s') (since : Store) (sent : Tiddler)
    (answer : Except RemoteError Tiddler) : Steady s (s'.afterPut since sent answer) :=
  (kept_steady s).afterPut h since trivial answer

theorem Steady.forget {s s' : Store} (h : Steady s s') (t : Tiddler) : Steady s (s'.forget t) :=
  (kept_steady s).forget h t

theorem Steady.remove {s s' : Store} (h : Steady s s') (target : Tiddler.Target) :
    Steady s (s'.remove target).2 :=
  (kept_steady s).remove h target

theorem Steady.retrieveCached {s s' : Store} (h : Steady s s') : Steady s s'.retrieveCached.2 :=
  (kept_steady s).retrieveCached h fun _ _ => trivial

end Store

theorem Deed.sound_on (d : Deed) {s : Store} (h : s.Sound) : (d.on s).Sound := by
  cases d with
  | remove target => exact (h.steady.remove target).sound
  | act action => exact (Store.spares_perform s action).sound h
  | bind label c listener => exact h.of_tiers rfl rfl
  | reload => exact h.steady.retrieveCached.sound
  | clearCache =>
    exact h.with_modified ⟨h.modified.keyed, h.modified.seen, h.modified.stamped⟩ h.kind_modified
  | shareCache cache =>
    exact h.with_modified ⟨h.modified.keyed, h.modified.seen, h.modified.stamped⟩ h.kind_modified
  | takeHeard => exact h.of_tiers rfl rfl

/-- Whatever a call does to the edits is steady. -/
theorem Call.steady_of_edits {c : Call} {k : Cause} {s₀ s : Store} {halt : Halt}
    (h : c.Edits k s₀ s halt) (hs : s₀.Sound) : s₀.Steady s := by
  have hself := hs.steady
  have hadd : ∀ {t : Tiddler}, Call.AddEdits t k s₀ s halt → s₀.Steady s := by
    intro t h
    cases h with
    | files _ => exact hself.fileModified t
    | filesAndWaits _ _ => exact hself.fileModified t
    | filesAndPlaces _ _ =>
      exact ((hself.fileModified t).quiet (Store.quiet_moveTo _ _)).fileModified _
    | places _ => exact (hself.quiet (Store.quiet_moveTo _ _)).fileModified _
    | fails _ => exact hself
  have hsaved : Call.Saved k s₀ s → s₀.Steady s := by
    intro h
    cases h with
    | called h => exact hself.quiet h
    | resolved h => exact hself.quiet h
    | answered h => exact (hself.afterPut _ _ _).quiet h
  have hread : within Call.Read Request.IsRead k s₀ s halt → s₀.Steady s := by
    rintro ⟨h, -⟩
    cases h with
    | called h => exact hself.quiet h
    | resolved h => exact hself.quiet h
    | answered _ h => exact hself.quiet h
  cases c with
  | add t => exact hadd h
  | addToCollection c t => exact hadd h
  | save target => exact hsaved h.saved
  | saveAll => exact hsaved h.1
  | saveCollection c => exact hsaved h.1
  | destroy target =>
    cases h with
    | asks _ => exact hself
    | forgets _ => exact hself.forget _
    | nothing => exact hself
    | deleted _ => exact hself.forget _
    | fails => exact hself
  | getDefaults => exact hread h
  | get target options => exact hread h
  | refresh => exact hread h
  | search query => exact hread h

namespace Activity

/-- Whether all that a waiting task will do keeps to the contract of its call. -/
def Phase.Sound (c : Call) : Phase → Prop
  | asking r since next =>
    since.Sound ∧ ∀ answer s, (next answer).Keeps c.Edits (.answered since r answer) s s
  | discovering next | queued next =>
    ∀ result s, (next result).Keeps c.Edits (.resolved result) s s
  | informed result next => ∀ s, (next result).Keeps c.Edits (.resolved result) s s

/-- The rules that an activity keeps to. -/
structure Sound (a : Activity) : Prop where
  store : a.store.Sound
  tasks : ∀ {id t}, a.tasks id = some t → t.phase.Sound t.call
  fresh : ∀ {id}, a.fresh ≤ id → a.tasks id = none

theorem Sound.heeds {a : Activity} (ha : a.Sound) : a.Heeds Call.Edits := by
  intro id t ht
  obtain ⟨c, phase⟩ := t
  have hphase : phase.Sound c := ha.tasks ht
  cases phase with
  | asking r since next => exact hphase.2
  | _ => exact hphase

theorem Sound.lt_fresh {a : Activity} (ha : a.Sound) {id : TaskId} {t : Task}
    (h : a.tasks id = some t) : id < a.fresh := by
  by_contra hle
  rw [ha.fresh (Nat.le_of_not_lt hle)] at h
  contradiction

/-- When a task goes on, it does a stretch that its call allows. -/
theorem Step.went {a b : Activity} {id : TaskId} {c : Call} {k : Cause}
    (h : Step a (.go id c k) b) (ha : a.Sound) :
    ∃ s₀ s halt, Stretch c.Edits id c k a b s₀ s halt :=
  h.keeps ha.heeds c.keeps

theorem Step.log {a b : Activity} {id : TaskId} {c : Call} {k : Cause}
    (h : Step a (.go id c k) b) (ha : a.Sound) :
    a.store.audience.withdrawn <+: b.store.audience.withdrawn := by
  obtain ⟨s₀, s, halt, hedits, ⟨resolver, rfl, -⟩, ⟨resolver', hafter, -⟩, -⟩ := h.went ha
  rw [hafter]
  exact (Call.steady_of_edits hedits (ha.store.withResolver resolver)).log

/-- A task that goes on after its call was there before. -/
theorem Step.task {a b : Activity} {id : TaskId} {c : Call} {k : Cause}
    (h : Step a (.go id c k) b) (hk : k ≠ .called) : ∃ phase, a.tasks id = some ⟨c, phase⟩ := by
  cases h with
  | call _ => exact absurd rfl hk
  | answer ht _ => exact ⟨_, ht⟩
  | learn ht _ => exact ⟨_, ht⟩
  | informed ht => exact ⟨_, ht⟩
  | retry ht _ => exact ⟨_, ht⟩

/-- A request that is answered was made in a sound store. -/
theorem Step.sound_since {a b : Activity} {id : TaskId} {c : Call} {r : Request} {since : Store}
    {answer : Except RemoteError r.Reply} (h : Step a (.go id c (.answered since r answer)) b)
    (ha : a.Sound) : since.Sound := by
  cases h with
  | answer ht _ => exact (ha.tasks ht).1

/-- What the server has deleted for a call is what that has found, which has the title given. -/
theorem Step.title_of_deleted {a b : Activity} {id : TaskId} {target : Tiddler.Target}
    {since : Store} {t : Tiddler}
    (h : Step a (.go id (.destroy target) (.answered since (.delete t) (.ok ()))) b)
    (ha : a.Sound) : t.title = target.name := by
  obtain ⟨s₀, s, halt, hedits, -, -, -⟩ := h.went ha
  have hget : since.synced.get? target.wanted = some t := by
    cases hedits with
    | deleted hget => exact hget
  rw [← Store.title_wanted, ((h.sound_since ha).synced.of_get? hget).2.1]

/-- A task that goes on leaves the others alone, unless it has found out the defaults. -/
theorem Step.tasks_of_ne {a b : Activity} {id x : TaskId} {c : Call} {k : Cause}
    (h : Step a (.go id c k) b) (hk : ∀ result, k ≠ .resolved result) (hx : x ≠ id) :
    b.tasks x = a.tasks x := by
  cases h with
  | call _ => exact goOn_tasks_of_ne hx _ _
  | answer _ _ => exact goOn_tasks_of_ne hx _ _
  | learn _ _ => exact absurd rfl (hk _)
  | informed _ => exact absurd rfl (hk _)
  | retry _ _ => exact absurd rfl (hk _)

theorem Step.sound_store {a b : Activity} {m : Move} (h : Step a m b) (ha : a.Sound) :
    b.store.Sound := by
  rcases h.store_cases with ⟨id, c, k, rfl⟩ | ⟨resolver, heq⟩ | ⟨d, -, heq⟩
  · obtain ⟨s₀, s, halt, hedits, ⟨resolver, rfl, -⟩, ⟨resolver', hafter, -⟩, -⟩ := h.went ha
    rw [hafter]
    exact (Call.steady_of_edits hedits (ha.store.withResolver _)).sound.withResolver _
  · rw [heq]
    exact ha.store.withResolver resolver
  · rw [heq]
    exact d.sound_on ha.store

/-- Each task that waits for an answer after a step asked for it in a sound store. -/
theorem Step.sound_asking {a b : Activity} {m : Move} (h : Step a m b) (ha : a.Sound) {x : TaskId}
    {c : Call} {r : Request} {since : Store}
    {next : Except RemoteError r.Reply → Program Call.Outcome}
    (ht : b.tasks x = some ⟨c, .asking r since next⟩) : since.Sound := by
  rcases h.asking ht with ⟨k, rfl⟩ | hbefore
  · obtain ⟨s₀, s, halt, hedits, ⟨resolver, rfl, -⟩, -, hrests⟩ := h.went ha
    rw [ht] at hrests
    cases hrests with
    | asking next => exact (Call.steady_of_edits hedits (ha.store.withResolver _)).sound
  · exact (ha.tasks hbefore).1

theorem Step.fresh_le {a b : Activity} {m : Move} (h : Step a m b) : a.fresh ≤ b.fresh := by
  cases h with
  | @call id c hid =>
    rw [fresh_goOn]
    exact Nat.le_succ_of_le hid
  | learn _ _ => exact Nat.le_of_eq (fresh_goOn (a.inform _) _ _ _).symm
  | answer _ _ | informed _ | retry _ _ | again _ _ _ =>
    exact Nat.le_of_eq (fresh_goOn a _ _ _).symm
  | drop _ | deed _ => exact Nat.le_refl _

theorem Step.tasks_of_fresh {a b : Activity} {m : Move} (h : Step a m b) (ha : a.Sound)
    {x : TaskId} (hx : b.fresh ≤ x) : b.tasks x = none := by
  have hne : ∀ {id t}, a.tasks id = some t → a.fresh ≤ x → x ≠ id :=
    fun ht hx => Nat.ne_of_gt (Nat.lt_of_lt_of_le (ha.lt_fresh ht) hx)
  have hinform : ∀ result, a.fresh ≤ x → (a.inform result).tasks x = none := by
    intro result hx
    rcases inform_tasks a result x with heq | heq
    · exact heq.trans (ha.fresh hx)
    · rw [heq, ha.fresh hx]
      rfl
  have hgoOn : ∀ {a' : Activity} {id : TaskId} {c : Call} {p : Program Call.Outcome},
      a'.tasks x = none → x ≠ id → (a'.goOn id c p).tasks x = none :=
    fun hnone hne => (goOn_tasks_of_ne hne _ _).trans hnone
  cases h with
  | @call id c hid =>
    rw [fresh_goOn] at hx
    exact hgoOn (ha.fresh (Nat.le_trans hid (Nat.le_of_succ_le hx))) (Nat.ne_of_gt hx)
  | answer ht answer =>
    rw [fresh_goOn] at hx
    exact hgoOn (ha.fresh hx) (hne ht hx)
  | learn ht hresult =>
    rw [fresh_goOn] at hx
    exact hgoOn (hinform _ hx) (hne ht hx)
  | informed ht =>
    rw [fresh_goOn] at hx
    exact hgoOn (ha.fresh hx) (hne ht hx)
  | retry ht hd =>
    rw [fresh_goOn] at hx
    exact hgoOn (ha.fresh hx) (hne ht hx)
  | again ht hqueue hd =>
    rw [fresh_goOn] at hx
    exact hgoOn (ha.fresh hx) (hne ht hx)
  | @drop id t ht => exact (Function.update_of_ne (hne ht hx) none a.tasks).trans (ha.fresh hx)
  | deed d => exact ha.fresh hx

/-- Every step leaves a sound activity. -/
theorem Step.sound {a b : Activity} {m : Move} (h : Step a m b) (ha : a.Sound) : b.Sound := by
  have hheeds : b.Heeds Call.Edits := h.heeds ha.heeds fun _ c _ => c.keeps
  refine ⟨h.sound_store ha, fun {x t} ht => ?_, h.tasks_of_fresh ha⟩
  obtain ⟨c, phase⟩ := t
  have hphase : phase.Heeds c.Edits := hheeds ht
  cases phase with
  | asking r since next => exact ⟨h.sound_asking ha ht, hphase⟩
  | _ => exact hphase

theorem Run.sound {a b : Activity} {h : List Transition} (hrun : Run a h b) (ha : a.Sound) :
    b.Sound :=
  (hrun.throughout ha fun _ _ hstep => hstep.sound).1

theorem sound_start (config : Config) (clock : Instant) (defaults : Option Defaults)
    (cache : Cache) : (start config clock defaults cache).Sound :=
  ⟨Store.sound_fresh config clock defaults cache, fun h => absurd h.symm (Option.some_ne_none _),
    fun _ => rfl⟩

theorem Reachable.sound {a : Activity} (h : a.Reachable) : a.Sound := by
  obtain ⟨config, clock, defaults, cache, h, hrun⟩ := h
  exact hrun.sound (sound_start config clock defaults cache)

theorem Run.append {a b c : Activity} {h h' : List Transition} (hrun : Run a h b)
    (hrun' : Run b h' c) : Run a (h ++ h') c := by
  induction hrun with
  | nil => exact hrun'
  | cons hstep hrun ih => exact .cons hstep (ih hrun')

theorem Reachable.start (config : Config) (clock : Instant) (defaults : Option Defaults)
    (cache : Cache) : (start config clock defaults cache).Reachable :=
  ⟨config, clock, defaults, cache, [], .nil _⟩

theorem Reachable.run {a b : Activity} {h : List Transition} (ha : a.Reachable)
    (hrun : Run a h b) : b.Reachable := by
  obtain ⟨config, clock, defaults, cache, h', hrun'⟩ := ha
  exact ⟨config, clock, defaults, cache, h' ++ h, hrun'.append hrun⟩

theorem Reachable.step {a b : Activity} {m : Move} (ha : a.Reachable) (hstep : Step a m b) :
    b.Reachable :=
  ha.run (.cons hstep (.nil b))

theorem Run.split {a c : Activity} {h h' : List Transition} (hrun : Run a (h ++ h') c) :
    ∃ b, Run a h b ∧ Run b h' c := by
  induction h generalizing a with
  | nil => exact ⟨a, .nil a, hrun⟩
  | cons tr h ih =>
    cases hrun with
    | cons hstep hrun =>
      obtain ⟨b, hfirst, hrest⟩ := ih hrun
      exact ⟨b, .cons hstep hfirst, hrest⟩

/-- Every transition of a run is a step. -/
theorem Run.step_of_mem {a b : Activity} {h : List Transition} (hrun : Run a h b)
    {tr : Transition} (htr : tr ∈ h) : Step tr.before tr.move tr.after := by
  induction hrun with
  | nil => exact absurd htr List.not_mem_nil
  | cons hstep hrun ih =>
    rcases List.mem_cons.1 htr with rfl | htr
    · exact hstep
    · exact ih htr

/-- Every transition of a run that begins in a sound activity does. -/
theorem Run.sound_of_mem {a b : Activity} {h : List Transition} (hrun : Run a h b) (ha : a.Sound)
    {tr : Transition} (htr : tr ∈ h) : tr.before.Sound :=
  (hrun.throughout ha fun _ _ hstep => hstep.sound).2 tr htr

/-- A task is of a call that has just been made, or it was there before. -/
theorem Step.origin {a b : Activity} {m : Move} (h : Step a m b) {x : TaskId} {t : Task}
    (ht : b.tasks x = some t) :
    m = .go x t.call .called ∨ ∃ u, a.tasks x = some u ∧ u.call = t.call := by
  have hgoOn : ∀ {a' : Activity} {id : TaskId} {c : Call} {p : Program Call.Outcome} {u : Task},
      (a'.goOn id c p).tasks x = some t → a.tasks id = some u → u.call = c →
      (∀ v, a'.tasks x = some v → ∃ u, a.tasks x = some u ∧ u.call = v.call) →
      ∃ u, a.tasks x = some u ∧ u.call = t.call := by
    intro a' id c p u ht hu hc hrest
    by_cases hx : x = id
    · subst hx
      exact ⟨u, hu, hc.trans (goOn_call ht).symm⟩
    · rw [goOn_tasks_of_ne hx] at ht
      exact hrest t ht
  cases h with
  | @call id c hid =>
    by_cases hx : x = id
    · subst hx
      exact .inl (goOn_call ht ▸ rfl)
    · rw [goOn_tasks_of_ne hx] at ht
      exact .inr ⟨t, ht, rfl⟩
  | answer hu _ => exact .inr (hgoOn ht hu rfl fun v hv => ⟨v, hv, rfl⟩)
  | @learn id c next hu answer result hresult =>
    refine .inr (hgoOn ht hu rfl fun v hv => ?_)
    rcases inform_tasks a result x with heq | heq
    · exact ⟨v, heq ▸ hv, rfl⟩
    · rw [heq] at hv
      obtain ⟨⟨c, phase⟩, hu, rfl⟩ := Option.map_eq_some_iff.1 hv
      exact ⟨_, hu, by cases phase <;> rfl⟩
  | informed hu => exact .inr (hgoOn ht hu rfl fun v hv => ⟨v, hv, rfl⟩)
  | retry hu _ => exact .inr (hgoOn ht hu rfl fun v hv => ⟨v, hv, rfl⟩)
  | again hu _ _ => exact .inr (hgoOn ht hu rfl fun v hv => ⟨v, hv, rfl⟩)
  | drop _ =>
    rcases task_of_update ht with hnew | hold
    · contradiction
    · exact .inr ⟨t, hold, rfl⟩
  | deed d => exact .inr ⟨t, ht, rfl⟩

end Activity

end TiddlerShelf
