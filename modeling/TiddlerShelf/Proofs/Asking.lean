import TiddlerShelf.Proofs.Arrival
import TiddlerShelf.Proofs.Unheard

/-! # What a task asks for

What a task has found when it was called decides what it asks the server for later on, whatever
others do to the store meanwhile. A get goes by the copy that it has found, or else by the default
container. So a tiddler of a bag is asked for in that bag unless the document handed over does not
count, which is when the server's copy is asked for and none is known (`get_asks_in_bag_iff`). -/

namespace TiddlerShelf

open Program

/-- The contract of stretches that ask only for what a property allows, of the request and the store
that it is made in. Where a stretch has been told the defaults, the store has to know them. -/
def Program.asksOnly (P : Store → Request → Prop) : Contract := fun k s₀ s halt =>
  (∀ d, k = .resolved (.ok d) → s₀.resolver = .resolved d) → ∀ r, halt = .asks r → P s r

namespace Activity

variable {P : Store → Request → Prop} {id : TaskId} {a b : Activity}

/-- Whether a task has asked only for what a property allows and will not ask for anything else. -/
structure Minds (P : Store → Request → Prop) (id : TaskId) (a : Activity) : Prop where
  heeds : ∀ {t}, a.tasks id = some t → t.phase.Heeds (asksOnly P)
  asked : ∀ {c r since next}, a.tasks id = some ⟨c, .asking r since next⟩ → P since r

theorem Minds.of_eq (h : a.Minds P id) (heq : b.tasks id = a.tasks id) : b.Minds P id :=
  ⟨fun ht => h.heeds (heq ▸ ht), fun ht => h.asked (heq ▸ ht)⟩

theorem Minds.goOn {c : Call} {p : Program Call.Outcome} {k : Cause}
    (hp : p.Keeps (asksOnly P) k a.store a.store)
    (hk : ∀ d, k = .resolved (.ok d) → a.store.resolver = .resolved d) :
    (a.goOn id c p).Minds P id := by
  obtain ⟨⟨s, halt, hasks, -, -, hrests⟩, hheeds⟩ := stretch_goOn id c hp
  refine ⟨fun ht => hheeds _ ht, fun ht => ?_⟩
  rw [ht] at hrests
  cases hrests with
  | asking next => exact hasks hk _ rfl

theorem Minds.goOn_other (h : a.Minds P id) {x : TaskId} (hx : id ≠ x) (c : Call)
    (p : Program Call.Outcome) : (a.goOn x c p).Minds P id :=
  h.of_eq (goOn_tasks_of_ne hx c p)

/-- Being told the defaults is no step of a task. -/
theorem Minds.inform (h : a.Minds P id) (result : Except StoreError Defaults) :
    (a.inform result).Minds P id := by
  rcases inform_tasks a result id with heq | heq
  · exact h.of_eq heq
  · refine ⟨fun ht => ?_, fun ht => ?_⟩
    · rw [heq] at ht
      obtain ⟨⟨c, phase⟩, hu, rfl⟩ := Option.map_eq_some_iff.1 ht
      have hphase : phase.Heeds (asksOnly P) := h.heeds hu
      cases phase with
      | queued next => exact hphase result
      | _ => exact hphase
    · rw [heq] at ht
      obtain ⟨⟨c, phase⟩, hu, hphase⟩ := Option.map_eq_some_iff.1 ht
      cases phase with
      | asking r since next =>
        cases hphase
        exact h.asked hu
      | _ => cases hphase

theorem Minds.setTask (h : a.Minds P id) {x : TaskId} {t : Option Task} {s : Store}
    (ht : ∀ u, t = some u → u.phase.Heeds (asksOnly P) ∧
      ∀ {c r since next}, u ≠ ⟨c, .asking r since next⟩) :
    Minds P id { a.setTask x t with store := s } := by
  refine ⟨fun hu => ?_, fun hu => ?_⟩
  · rcases task_of_update hu with hnew | hold
    · exact (ht _ hnew).1
    · exact h.heeds hold
  · rcases task_of_update hu with hnew | hold
    · exact absurd rfl (ht _ hnew).2
    · exact h.asked hold

/-- No step makes a task ask for anything else. -/
theorem Step.minds {m : Move} (hstep : Step a m b) (h : a.Minds P id) (hid : id < a.fresh)
    (ha : a.Placed fun _ => True) : b.Minds P id := by
  cases hstep with
  | @call x c hx =>
    have hnew : Minds P id { a with fresh := x + 1 } := h.of_eq rfl
    exact hnew.goOn_other (Nat.ne_of_lt (Nat.lt_of_lt_of_le hid hx)) c _
  | @answer x c r since next ht answer =>
    by_cases hx : id = x
    · subst hx
      exact .goOn (h.heeds ht answer a.store) nofun
    · exact h.goOn_other hx c _
  | @learn x c next ht _ result hresult =>
    by_cases hx : id = x
    · subst hx
      refine .goOn (h.heeds ht result (a.inform result).store) fun d hd => ?_
      cases hd
      rfl
    · exact (h.inform result).goOn_other hx c _
  | @informed x c result next ht =>
    by_cases hx : id = x
    · subst hx
      refine .goOn (h.heeds ht a.store) fun d hd => ?_
      cases hd
      exact ha.told trivial ⟨c, next, ht⟩
    · exact h.goOn_other hx c _
  | @retry x c d next ht hd =>
    by_cases hx : id = x
    · subst hx
      refine .goOn (h.heeds ht _ a.store) fun d' hd' => ?_
      cases hd'
      exact hd
    · exact h.goOn_other hx c _
  | @again x c next ht _ hne =>
    by_cases hx : id = x
    · subst hx
      obtain ⟨resolver, t, heq, hphase⟩ := goOn_resolve id c next hne
      rw [heq]
      refine h.setTask fun u hu => ?_
      obtain rfl := Option.some.inj hu
      have hheeds : Phase.Heeds (asksOnly P) (.queued next) := h.heeds ht
      rcases hphase with rfl | rfl <;> exact ⟨hheeds, fun h => nomatch h⟩
    · exact h.goOn_other hx c _
  | drop ht => exact h.setTask fun _ hu => absurd hu.symm (Option.some_ne_none _)
  | deed d => exact h.of_eq rfl

/-- Nor does a run. -/
theorem Run.minds {h : List Transition} (hrun : Run a h b) (ha : a.Reachable)
    (hminds : a.Minds P id) (hid : id < a.fresh) : b.Minds P id := by
  refine (hrun.throughout (I := fun a => a.Reachable ∧ a.Minds P id ∧ id < a.fresh)
    ⟨ha, hminds, hid⟩ fun tr _ hstep htr => ?_).1.2.1
  obtain ⟨hreach, hminds, hid⟩ := htr
  exact ⟨hreach.step hstep, hstep.minds hminds hid hreach.placed.1,
    Nat.lt_of_lt_of_le hid hstep.fresh_le⟩

/-- What a task has asked for in the end of a run is what its call allows when it is made, since all
that it will do then keeps to that. -/
theorem asked_of_call {c : Call} {e : Activity} {h : List Transition} {r : Request} {since : Store}
    {next : Except RemoteError r.Reply → Program Call.Outcome} (ha : a.Reachable)
    (hcall : Step a (.go id c .called) b) (hrun : Run b h e)
    (hc : c.program.Keeps (asksOnly P) .called a.store a.store)
    (hasks : e.tasks id = some ⟨c, .asking r since next⟩) : P since r := by
  have hb : b.Minds P id ∧ id < b.fresh := by
    cases hcall with
    | call hid =>
      refine ⟨Minds.goOn (a := { a with fresh := id + 1 }) hc nofun, ?_⟩
      rw [fresh_goOn]
      exact Nat.lt_succ_self id
  exact (hrun.minds (ha.step hcall) hb.1 hb.2).asked hasks

end Activity

/-! ## Getting a tiddler -/

namespace Store

/-- How a get asks for a tiddler: through the copy that it goes by, if that has a container, and
else through the container to read from. -/
def AsksFor (target : Tiddler.Target) (options : GetOptions) (known : Option Tiddler)
    (since : Store) (r : Request) : Prop :=
  ∃ wanted, r = .get wanted options.render ∧ (known = some wanted ∨
    known = none ∧ ∃ d, since.resolver = .resolved d ∧
      wanted = .inContainer target.name d.pullFrom)

/-- Fetching asks for nothing but the tiddler. -/
theorem meets_fetchDocument {P : Store → Request → Prop} {target : Tiddler.Target}
    {options : GetOptions} {wanted : Tiddler} {k : Cause} {s₀ s : Store}
    (h : (∀ d, k = .resolved (.ok d) → s₀.resolver = .resolved d) →
      P s (.get wanted options.render)) :
    (get.fetchDocument target options wanted).Keeps (asksOnly P) k s₀ s := by
  unfold get.fetchDocument Program.Keeps
  rw [meets_request]
  refine ⟨fun hk r hr => Halt.asks.inj hr ▸ h hk, fun answer s' => ?_⟩
  cases answer with
  | ok t => exact fun _ _ hr => nomatch hr
  | error cause => exact fun _ _ hr => nomatch hr

theorem keeps_get (target : Tiddler.Target) (options : GetOptions) (s : Store) :
    (get target options).Keeps (asksOnly (AsksFor target options
      ((s.known? target options).filter Tiddler.hasContainer))) .called s s := by
  unfold get Program.Keeps
  rw [meets_store]
  split
  · exact fun _ _ hr => nomatch hr
  · split
    · rename_i wanted hknown
      exact meets_fetchDocument fun _ => ⟨wanted, rfl, .inl hknown⟩
    · rename_i hnone
      refine meets_getDefaults (fun d hd => ?_) (fun _ _ _ hr => nomatch hr) (fun d s' => ?_)
        fun _ _ _ _ hr => nomatch hr
      · refine meets_fetchDocument fun _ => ⟨_, rfl, .inr ⟨hnone, d, ?_, rfl⟩⟩
        exact (quiet_moveTo s d.pullFrom).resolver.trans hd
      · refine meets_fetchDocument fun hk => ⟨_, rfl, .inr ⟨hnone, d, ?_, rfl⟩⟩
        exact (quiet_moveTo s' d.pullFrom).resolver.trans (hk d rfl)

/-- Whether a bag is the container to read from by the defaults. -/
def ReadsFrom (s : Store) (bag : Container) : Prop :=
  ∃ d, s.defaults? = some d ∧ d.pullFrom.kind = .bag ∧ d.pullFrom.name = bag.name

theorem bagName_inContainer (title : String) (place bag : Container) :
    (Tiddler.inContainer title place).bagName = some bag.name ↔
      place.kind = .bag ∧ place.name = bag.name := by
  unfold Tiddler.inContainer Tiddler.placeIn Tiddler.bagName
  cases place.kind <;> simp

/-- What is asked for through the container to read from is in a bag just if that is the bag. -/
theorem bagName_of_resolver {s : Store} {d : Defaults} (hd : s.resolver = .resolved d)
    (title : String) (bag : Container) :
    (Tiddler.inContainer title d.pullFrom).bagName = some bag.name ↔ s.ReadsFrom bag := by
  rw [bagName_inContainer]
  refine ⟨fun h => ⟨d, by rw [defaults?, hd]; rfl, h⟩, ?_⟩
  rintro ⟨d', hd', h⟩
  rw [defaults?, hd] at hd'
  exact Option.some.inj hd' ▸ h

theorem title_inContainer (title : String) (place : Container) :
    (Tiddler.inContainer title place).title = title := by
  unfold Tiddler.inContainer Tiddler.placeIn
  cases place.kind <;> rfl

variable {s since : Store} {t : Tiddler} {bag : Container} {options : GetOptions} {r : Request}

/-- Without an edit, a get of a document goes by the confirmed copy, if there is one, and else by
the document unless the server's copy is asked for. -/
theorem known?_document (hedit : s.modified.get? t = none) :
    s.known? (.document t) options =
      (s.synced.get? t).or (if options.fromServer then none else some t) := by
  unfold known? getLocal?
  show (if options.fromServer && (s.modified.get? t).isNone then s.synced.get? t else
    ((s.modified.get? t).or (s.synced.get? t)).or (some t)) = _
  rw [hedit]
  cases options.fromServer <;> simp

/-- Whether a get of a document comes to ask in the bag of the document: the confirmed copy has it,
or there is no such copy and the document itself counts, or what the get goes by is in no container
and the bag is the one to read from. -/
def AsksInBag (s since : Store) (t : Tiddler) (bag : Container) (options : GetOptions) : Prop :=
  match s.synced.get? t with
  | some copy => copy.bag.isSome ∨ copy.recipe = none ∧ since.ReadsFrom bag
  | none => options.fromServer = false ∨ since.ReadsFrom bag

section

variable (hbag : t.bag = some bag) (hedit : s.modified.get? t = none)

include hbag hedit

theorem bagName_of_known (hs : s.synced.Sound) {wanted : Tiddler}
    (h : (s.known? (.document t) options).filter Tiddler.hasContainer = some wanted) :
    wanted.title = t.title ∧ (wanted.bagName = t.bagName ↔ s.AsksInBag since t bag options) := by
  obtain ⟨hknown, hcontainer⟩ := Option.filter_eq_some_iff.1 h
  rw [known?_document hedit] at hknown
  unfold AsksInBag
  cases hcopy : s.synced.get? t with
  | none =>
    rw [hcopy, Option.none_or] at hknown
    cases hserver : options.fromServer with
    | true => simp [hserver] at hknown
    | false =>
      obtain rfl : t = wanted := by simpa [hserver] using hknown
      exact ⟨rfl, iff_of_true rfl (.inl rfl)⟩
  | some copy =>
    rw [hcopy] at hknown
    obtain rfl : copy = wanted := Option.some.inj hknown
    obtain ⟨-, htitle, hkey⟩ := hs.of_get? hcopy
    have hsome : t.bag.isSome := hbag ▸ rfl
    refine ⟨htitle, ?_⟩
    by_cases hplace : copy.bag.isSome
    · exact iff_of_true (Tiddler.bagName_eq_of_key_eq (hkey hsome) hplace hsome) (.inl hplace)
    · rw [Tiddler.hasContainer, Bool.or_eq_true, or_iff_right hplace] at hcontainer
      refine iff_of_false ?_ ?_
      · rw [Tiddler.bagName, Tiddler.bagName, hbag, Option.not_isSome_iff_eq_none.1 hplace]
        exact (Option.some_ne_none bag.name).symm
      · rintro (hplace' | ⟨hrecipe, -⟩)
        · exact hplace hplace'
        · rw [hrecipe] at hcontainer
          contradiction

theorem readsFrom_iff_of_unknown
    (h : (s.known? (.document t) options).filter Tiddler.hasContainer = none) :
    since.ReadsFrom bag ↔ s.AsksInBag since t bag options := by
  rw [known?_document hedit, Option.filter_eq_none_iff] at h
  unfold AsksInBag
  cases hcopy : s.synced.get? t with
  | none =>
    rw [hcopy, Option.none_or] at h
    cases hserver : options.fromServer with
    | true => simp
    | false =>
      rw [hserver] at h
      have hcontainer := h t rfl
      rw [Tiddler.hasContainer, hbag] at hcontainer
      exact absurd rfl hcontainer
  | some copy =>
    have hcontainer := h copy (by rw [hcopy]; rfl)
    rw [Tiddler.hasContainer, Bool.or_eq_true, not_or, Option.not_isSome_iff_eq_none,
      Option.not_isSome_iff_eq_none] at hcontainer
    simp [hcontainer.1, hcontainer.2]

/-- What a get asks for if the document handed over has a bag. -/
theorem AsksFor.inBag_iff (hs : s.synced.Sound)
    (h : AsksFor (.document t) options
      ((s.known? (.document t) options).filter Tiddler.hasContainer) since r) :
    ∃ wanted, r = .get wanted options.render ∧ wanted.title = t.title ∧
      (wanted.bagName = t.bagName ↔ s.AsksInBag since t bag options) := by
  obtain ⟨wanted, rfl, hknown | ⟨hnone, d, hd, rfl⟩⟩ := h
  · exact ⟨wanted, rfl, bagName_of_known hbag hedit hs hknown⟩
  · refine ⟨_, rfl, title_inContainer _ _, ?_⟩
    have hname : t.bagName = some bag.name := by rw [Tiddler.bagName, hbag]; rfl
    rw [hname]
    exact (bagName_of_resolver hd t.title bag).trans (readsFrom_iff_of_unknown hbag hedit hnone)

end

end Store

namespace Activity

/-- Whenever a get of a document that has a bag and no pending edit reaches the server, whatever
others have done meanwhile, it asks for the title of the document. It asks in the document's bag if
the copy that was confirmed at the time of the call is in a bag, or if there was no such copy and
the server's was not asked for. Otherwise the document does not count, and only the container to
read from can lead to its bag. -/
theorem get_asks_in_bag_iff {a b e : Activity} {id : TaskId} {h : List Transition} {t : Tiddler}
    {bag : Container} {options : Store.GetOptions} {r : Request} {since : Store}
    {next : Except RemoteError r.Reply → Program Call.Outcome} (ha : a.Reachable)
    (hbag : t.bag = some bag) (hedit : a.store.modified.get? t = none)
    (hcall : Step a (.go id (.get (.document t) options) .called) b) (hrun : Run b h e)
    (hasks : e.tasks id = some ⟨.get (.document t) options, .asking r since next⟩) :
    ∃ wanted, r = .get wanted options.render ∧ wanted.title = t.title ∧
      (wanted.bagName = t.bagName ↔ a.store.AsksInBag since t bag options) := by
  have hkeeps : (Call.get (.document t) options).program.Keeps (asksOnly _) .called
      a.store a.store :=
    keeps_map.2 (Store.keeps_get (.document t) options a.store)
  exact (asked_of_call ha hcall hrun hkeeps hasks).inBag_iff hbag hedit ha.sound.store.synced

/-- A document that the store does not know is asked for in its own bag. -/
theorem document_asked_in_its_bag :
    let t := Tiddler.draft "other" "one"
    let a := start {} ⟨0, 0⟩ (some (.single (.bag "notes"))) .none
    ∃ (b : Activity) (r : Request) (next : Except RemoteError r.Reply → Program Call.Outcome),
      a.Reachable ∧ a.store.modified.get? t = none ∧
      Step a (.go 0 (.get (.document t) {}) .called) b ∧
      b.tasks 0 = some ⟨.get (.document t) {}, .asking r a.store next⟩ ∧
      ∃ wanted, r = .get wanted false ∧ wanted.title = "T" ∧ wanted.bagName = some "other" := by
  intro t a
  have hreach : a.Reachable := .start _ _ _ _
  have hedit : a.store.modified.get? t = none := rfl
  have hknown : (a.store.known? (.document t) {}).filter Tiddler.hasContainer = some t := rfl
  obtain ⟨next, hproceed, -⟩ := proceed_get hedit hknown
  have hcall := step_asked hproceed
  have hwaits : (a.asked (.get (.document t) {}) (.get t false) next).tasks 0 =
      some ⟨.get (.document t) {}, .asking (.get t false) a.store next⟩ := rfl
  obtain ⟨wanted, hwanted, htitle, hbag⟩ :=
    get_asks_in_bag_iff hreach rfl hedit hcall (.nil _) hwaits
  exact ⟨_, _, next, hreach, hedit, hcall, hwaits, wanted, hwanted, htitle, hbag.2 (.inl rfl)⟩

/-- Where the server's copy is asked for, the same document is asked for in another bag. -/
theorem document_asked_in_other_bag :
    let t := Tiddler.draft "other" "one"
    let a := start {} ⟨0, 0⟩ (some (.single (.bag "notes"))) .none
    let c := Call.get (.document t) { fromServer := true }
    a.Reachable ∧ a.store.modified.get? t = none ∧ Step a (.go 0 c .called) (a.call c) ∧
      ∃ wanted since next, (a.call c).tasks 0 = some ⟨c, .asking (.get wanted false) since next⟩ ∧
        wanted.bagName = some "notes" ∧ t.bagName = some "other" := by
  intro t a c
  exact ⟨.start _ _ _ _, rfl, step_call a c, _, _, _, rfl, rfl, rfl⟩

end Activity

end TiddlerShelf
