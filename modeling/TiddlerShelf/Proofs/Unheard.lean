import TiddlerShelf.Proofs.Invariants

/-! # Stores that nobody listens to

Where nobody listens, announcing has no effect, and what a store comes to can be written down.
Adding to a bag is then over at once and files the edit, nothing else. Tasks and removals never
bring a listener in, so a store that begins unheard stays so. -/

namespace TiddlerShelf

open Program

/-- A draft of the title "T", for runs on fixed inputs. -/
def Tiddler.draft (bag text : String) : Tiddler := { title := "T", text, bag := some (.bag bag) }

/-- The answers of a server that does whatever it is asked to. -/
def Request.granted : ∀ r : Request, Except RemoteError r.Reply
  | .discover => .ok {}
  | .get wanted _ => .ok wanted
  | .put t => .ok t
  | .delete _ => .ok ()
  | .list _ | .search _ => .ok []

namespace Store

theorem fileModified_of_silent {s : Store} (h : s.Sound) (hs : s.audience.Silent) (t : Tiddler) :
    s.fileModified t = (t.asEdit, s.withEdit t) := by
  apply Prod.ext (fst_fileModified h t)
  have htier : (s.modified.reconcile s.clock t).tier = s.modified.file t.asEdit :=
    congrArg s.modified.file (Tier.stamped_modified h.kind_modified s.clock t)
  show ({ s with modified := (s.modified.reconcile s.clock t).tier } : Store).announce _ = _
  rw [htier]
  exact announce_of_silent (s := s.withEdit t) hs _

theorem moveTo_of_silent {s : Store} (hs : s.audience.Silent) {place : Container}
    (hplace : s.location = none) :
    s.moveTo place = ({ s with location := some place } : Store).register (.container place) := by
  have hnew : ¬(s.location.any place.sameAs = true) := by
    rw [hplace]
    exact Bool.false_ne_true
  unfold moveTo
  rw [if_neg hnew]
  exact announce_of_silent (s := ({ s with location := some place } : Store).register _) hs _

theorem fileSynced_of_silent {s : Store} (hs : s.audience.Silent) (t : Tiddler) :
    (s.fileSynced t).2 = { s with synced := (s.synced.reconcile s.clock t).tier } :=
  announce_of_silent (s := { s with synced := (s.synced.reconcile s.clock t).tier }) hs _

end Store

namespace Activity

/-- A task that goes on brings no listener in. -/
theorem Step.audience_of_go {a b : Activity} {id : TaskId} {c : Call} {k : Cause}
    (h : Step a (.go id c k) b) (ha : a.Sound) (hs : a.store.audience.Silent) :
    b.store.audience = a.store.audience := by
  obtain ⟨s₀, s, halt, hedits, ⟨resolver, rfl, -⟩, ⟨resolver', hafter, -⟩, -⟩ := h.went ha
  rw [hafter]
  exact (Call.steady_of_edits hedits (ha.store.withResolver resolver)).silent hs

/-- Neither does anything else that tasks do, nor a removal. -/
theorem Step.audience_of_silent {a b : Activity} {m : Move} (h : Step a m b) (ha : a.Sound)
    (hs : a.store.audience.Silent) (hm : ∀ d, m = .deed d → ∃ target, d = .remove target) :
    b.store.audience = a.store.audience := by
  rcases h.store_cases with ⟨id, c, k, rfl⟩ | ⟨resolver, heq⟩ | ⟨d, hd, heq⟩
  · exact h.audience_of_go ha hs
  · rw [heq]
    rfl
  · obtain ⟨target, rfl⟩ := hm d hd
    rw [heq]
    exact (ha.store.steady.remove target).silent hs

theorem proceed_add {s : Store} (h : s.Sound) (hs : s.audience.Silent) {t : Tiddler}
    (hb : t.bag.isSome) : (Call.add t).program.proceed s =
      (s.withEdit t, .ended (.document (.ok t.asEdit))) := by
  have hadd : Store.add t =
      Program.act (·.fileModified t) >>= fun stored => pure (.ok stored) := by
    simp only [Store.add, if_pos hb]
  show (Call.Outcome.document <$> Store.add t).proceed s = _
  rw [hadd]
  show ((s.fileModified t).2, Pause.ended (Call.Outcome.document (.ok (s.fileModified t).1))) = _
  rw [Store.fileModified_of_silent h hs]

/-- An activity after an edit has been added where nobody listens. -/
def added (a : Activity) (t : Tiddler) : Activity :=
  { a with
    store := a.store.withEdit t
    fresh := a.fresh + 1
    ended := a.ended ++ [(a.fresh, .document (.ok t.asEdit))] }

theorem step_added {a : Activity} (ha : a.Sound) (hs : a.store.audience.Silent) {t : Tiddler}
    (hb : t.bag.isSome) : Step a (.go a.fresh (.add t) .called) (a.added t) := by
  have htasks : Function.update a.tasks a.fresh none = a.tasks := by
    rw [← ha.fresh (Nat.le_refl a.fresh), Function.update_eq_self]
  have hcall : a.call (.add t) = a.added t := by
    unfold call goOn
    rw [proceed_add ha.store hs hb]
    unfold setTask added
    dsimp only
    rw [htasks]
  exact hcall ▸ step_call a (.add t)

theorem Reachable.added {a : Activity} (ha : a.Reachable) (hs : a.store.audience.Silent)
    {t : Tiddler} (hb : t.bag.isSome) : (a.added t).Reachable :=
  ha.step (step_added ha.sound hs hb)

theorem proceed_store {α β : Type} (g : α → β) (f : Store → Program α) (s : Store) :
    (g <$> (Program.store >>= f)).proceed s = (g <$> f s).proceed s := rfl

theorem proceed_save {s : Store} (target : Tiddler.Target) {t : Tiddler}
    (h : target.given?.or (s.modified.get? target.wanted) = some t) (hc : t.hasContainer) :
    ∃ next, (Call.save target).program.proceed s = (s, .asking (.put t) next) := by
  show ∃ next, (Call.Outcome.document <$> Store.save target).proceed s = _
  unfold Store.save Store.saveTiddler Store.placed
  rw [proceed_store, h]
  dsimp only
  rw [if_pos hc]
  exact ⟨_, rfl⟩

theorem proceed_destroy {s : Store} {target : Tiddler.Target} {t : Tiddler}
    (h : (s.synced.get? target.wanted).filter Tiddler.hasContainer = some t) :
    ∃ next, (Call.destroy target).program.proceed s = (s, .asking (.delete t) next) := by
  show ∃ next, (Call.Outcome.document <$> Store.destroy target).proceed s = _
  unfold Store.destroy
  rw [proceed_store, h]
  exact ⟨_, rfl⟩

/-- Getting a tiddler that is no edit asks the server at once if it is known where, and files the
copy that comes. -/
theorem proceed_get {s : Store} {target : Tiddler.Target} {wanted : Tiddler}
    (hedit : s.modified.get? target.wanted = none)
    (hknown : (s.known? target {}).filter Tiddler.hasContainer = some wanted) :
    ∃ next, (Call.get target {}).program.proceed s = (s, .asking (.get wanted false) next) ∧
      ∀ t s', (next (.ok t)).proceed s' =
        ((s'.fileSynced t).2, .ended (.document (.ok (s'.fileSynced t).1))) := by
  show ∃ next, (Call.Outcome.document <$> Store.get target {}).proceed s = _ ∧ _
  unfold Store.get
  rw [proceed_store, hedit]
  dsimp only
  rw [hknown]
  exact ⟨_, rfl, fun _ _ => rfl⟩

/-- An activity after a call has been made that asks the server at once. -/
def asked (a : Activity) (c : Call) (r : Request)
    (next : Except RemoteError r.Reply → Program Call.Outcome) : Activity :=
  { a with
    fresh := a.fresh + 1
    tasks := Function.update a.tasks a.fresh (some ⟨c, .asking r a.store next⟩) }

theorem step_asked {a : Activity} {c : Call} {r : Request}
    {next : Except RemoteError r.Reply → Program Call.Outcome}
    (h : c.program.proceed a.store = (a.store, .asking r next)) :
    Step a (.go a.fresh c .called) (a.asked c r next) := by
  have hcall : a.call c = a.asked c r next := by
    unfold call goOn
    rw [h]
    rfl
  exact hcall ▸ step_call a c

theorem exists_step_asked {a : Activity} {c : Call} {r : Request}
    (h : ∃ next, c.program.proceed a.store = (a.store, .asking r next)) :
    ∃ next, Step a (.go a.fresh c .called) (a.asked c r next) := by
  obtain ⟨next, hproceed⟩ := h
  exact ⟨next, step_asked hproceed⟩

/-- Getting a tiddler that is no edit takes two steps where it is known where: one to ask, and one
to file the copy that comes. -/
theorem exists_steps_got {a : Activity} (hs : a.store.audience.Silent) {target : Tiddler.Target}
    {wanted : Tiddler} (hedit : a.store.modified.get? target.wanted = none)
    (hknown : (a.store.known? target {}).filter Tiddler.hasContainer = some wanted) :
    ∃ b, Step a (.go a.fresh (.get target {}) .called) b ∧ ∀ v, ∃ c : Activity,
      Step b (.go a.fresh (.get target {}) (.answered a.store (.get wanted false) (.ok v))) c ∧
        c.store =
          { a.store with synced := (a.store.synced.reconcile a.store.clock v).tier } := by
  obtain ⟨next, hproceed, hfiles⟩ := proceed_get hedit hknown
  have htask : (a.asked (.get target {}) (.get wanted false) next).tasks a.fresh =
      some ⟨.get target {}, .asking (.get wanted false) a.store next⟩ := Function.update_self _ _ _
  refine ⟨_, step_asked hproceed, fun v => ⟨_, .answer htask (.ok v), ?_⟩⟩
  unfold goOn
  rw [hfiles]
  exact Store.fileSynced_of_silent hs v

/-- A store in which nobody listens can come to file any copy of a tiddler that it knows where to
get. -/
theorem Reachable.exists_got {a : Activity} (ha : a.Reachable) (hs : a.store.audience.Silent)
    (target : Tiddler.Target) (wanted v : Tiddler)
    (hedit : a.store.modified.get? target.wanted = none)
    (hknown : (a.store.known? target {}).filter Tiddler.hasContainer = some wanted) :
    ∃ b : Activity, b.Reachable ∧
      b.store = { a.store with synced := (a.store.synced.reconcile a.store.clock v).tier } := by
  obtain ⟨b, hasks, hgets⟩ := exists_steps_got hs hedit hknown
  obtain ⟨c, hgot, hstore⟩ := hgets v
  exact ⟨c, (ha.step hasks).step hgot, hstore⟩

end Activity

end TiddlerShelf
