import TiddlerShelf.Proofs.Announcement
import TiddlerShelf.Proofs.Registrations

/-! # Who hears of an event

Whatever comes about in an audience, its hub is what the calls that have reached it come to
(`Becomes.hub`), those that listeners make while they are called among them. An event calls the
listeners registered at its start, one after the other: what a listener does in answer, whom it
registers and what it announces, is over before the next one is called, and changes nothing about
who is called (`perform_announce`). -/

namespace TiddlerShelf.Audience

/-! ## Calls that reach the hub -/

/-- What an action asks of the hub. -/
def asks (a : Audience) : Action → List (HubCall String)
  | .bind kind name listener _ _ => [.bind kind name listener]
  | .unbind kind name listener => [.unbind kind name listener]
  | .bindFilter label filter listener _ _ => [.bindFilter (a.predicate label filter).1 listener]
  | .unbindFilter label => ((a.predicates.get? label).map .unbindFilter).toList
  | .announce _ | .withdraw _ => []

/-- Whether an audience comes from another while the hub is called some number of times, from
outside or by listeners. -/
inductive Becomes (a : Audience) : List (HubCall String) → Audience → Prop
  | refl : Becomes a [] a
  | register {calls : List (HubCall String)} {b : Audience} (action : Action) :
    Becomes a calls b → Becomes a (calls ++ b.asks action) (b.register action)
  | bindFresh {calls : List (HubCall String)} {b : Audience} (label : String) (filter : Filter)
    (listener : String) : Becomes a calls b →
    Becomes a (calls ++ [.bindFilter ⟨b.nextPredicate, filter.accepts⟩ listener])
      (b.bindFresh label filter listener)
  | hear {calls : List (HubCall String)} {b : Audience} (listener : String) (change : Change) :
    Becomes a calls b → Becomes a calls (b.hear listener change).1
  | noteWithdrawn {calls : List (HubCall String)} {b : Audience} (title : String) :
    Becomes a calls b → Becomes a calls (b.noteWithdrawn title)
  /-- What listeners have heard is taken out. -/
  | takeHeard {calls : List (HubCall String)} {b : Audience} :
    Becomes a calls b → Becomes a calls { b with heard := [] }

@[simp] theorem hub_meet (a : Audience) (name : String) (l : Listener) :
    (a.meet name l).hub = a.hub := by
  unfold meet
  split <;> rfl

@[simp] theorem predicates_meet (a : Audience) (name : String) (l : Listener) :
    (a.meet name l).predicates = a.predicates := by
  unfold meet
  split <;> rfl

@[simp] theorem nextPredicate_meet (a : Audience) (name : String) (l : Listener) :
    (a.meet name l).nextPredicate = a.nextPredicate := by
  unfold meet
  split <;> rfl

theorem hub_predicate (a : Audience) (label : String) (filter : Filter) :
    (a.predicate label filter).2.hub = a.hub := by
  unfold predicate
  split <;> rfl

/-- The predicate of a label does not depend on which listeners there are. -/
theorem predicate_meet (a : Audience) (name : String) (l : Listener) (label : String)
    (filter : Filter) :
    ((a.meet name l).predicate label filter).1 = (a.predicate label filter).1 := by
  unfold predicate freshPredicate
  rw [predicates_meet, nextPredicate_meet]
  split <;> rfl

theorem hub_register (a : Audience) (action : Action) :
    (a.register action).hub = (a.asks action).foldl HubCall.onHub a.hub := by
  cases action with
  | bind kind name listener script times =>
    show Hub.bind (a.meet listener ⟨script, times⟩).hub kind name listener = _
    rw [hub_meet]
    rfl
  | unbind kind name listener =>
    cases listener with
    | none => rfl
    | some listener =>
      show Hub.unbind (a.meet listener {}).hub kind name (some listener) = _
      rw [hub_meet]
      rfl
  | bindFilter label filter listener script times =>
    have hpredicate := predicate_meet a listener ⟨script, times⟩ label filter
    have hhub := hub_predicate (a.meet listener ⟨script, times⟩) label filter
    rw [hub_meet] at hhub
    simp only [register, asks, hpredicate, hhub]
    rfl
  | unbindFilter label =>
    simp only [register, asks]
    cases a.predicates.get? label <;> rfl
  | announce event => rfl
  | withdraw title => rfl

@[simp] theorem hub_hear (a : Audience) (listener : String) (change : Change) :
    (a.hear listener change).1.hub = a.hub := by
  unfold hear
  dsimp only
  split <;> rfl

theorem hub_bindFresh (a : Audience) (label : String) (filter : Filter) (listener : String) :
    (a.bindFresh label filter listener).hub =
      a.hub.bindFilter ⟨a.nextPredicate, filter.accepts⟩ listener := by
  show Hub.bindFilter (a.meet listener {}).hub ⟨(a.meet listener {}).nextPredicate, _⟩ _ = _
  rw [hub_meet, nextPredicate_meet]

variable {a b : Audience} {calls : List (HubCall String)}

/-- The hub is what the calls come to. -/
theorem Becomes.hub (h : Becomes a calls b) : b.hub = calls.foldl HubCall.onHub a.hub := by
  induction h with
  | refl => rfl
  | register action _ ih => rw [hub_register, List.foldl_append, ih]
  | bindFresh label filter listener _ ih =>
    rw [hub_bindFresh, List.foldl_append, ih]
    rfl
  | hear listener change _ ih => rw [hub_hear, ih]
  | noteWithdrawn title _ ih => exact ih
  | takeHeard _ ih => exact ih

section Run

variable {τ : Type} (withdraw : String → τ → τ × Option Event)

theorem Becomes.run (h : Becomes a calls b) (state : τ) (errands : List Errand) :
    ∃ more, Becomes a (calls ++ more) (run withdraw b state errands).1 := by
  fun_induction Audience.run withdraw b state errands generalizing calls with
  | case1 b state => exact ⟨[], by rwa [List.append_nil]⟩
  | case2 b state listener change rest c script hhear ih =>
    have hc : c = (b.hear listener change).1 := by rw [hhear]
    exact ih (hc ▸ h.hear listener change)
  | case3 b state e rest ih => exact ih h
  | case4 b state title rest state' event hwithdraw ih => exact ih (h.noteWithdrawn title)
  | case5 b state action rest hannounce hwithdraw ih =>
    obtain ⟨more, hmore⟩ := ih (h.register action)
    exact ⟨b.asks action ++ more, by rwa [← List.append_assoc]⟩

/-! ## Errands one after the other -/

theorem run_call (a : Audience) (state : τ) (listener : String) (change : Change)
    (rest : List Errand) :
    Audience.run withdraw a state (.call listener change :: rest) =
      Audience.run withdraw (a.hear listener change).1 state
        ((a.hear listener change).2.map .perform ++ rest) := by
  rw [Audience.run]

/-- Errands that come first are over before those behind them. -/
theorem run_append (a : Audience) (state : τ) (first rest : List Errand) :
    Audience.run withdraw a state (first ++ rest) =
      Audience.run withdraw (Audience.run withdraw a state first).1
        (Audience.run withdraw a state first).2 rest := by
  fun_induction Audience.run withdraw a state first with
  | case1 a state => rfl
  | case2 a state listener change errands b script hhear ih =>
    rw [List.cons_append, run_call, hhear, ← List.append_assoc]
    exact ih
  | case3 a state e errands ih =>
    rw [List.cons_append, Audience.run, ← List.append_assoc]
    exact ih
  | case4 a state title errands state' event hwithdraw ih =>
    rw [List.append_assoc] at ih
    rw [List.cons_append, Audience.run, hwithdraw]
    exact ih
  | case5 a state action errands hannounce hwithdraw ih =>
    rw [List.cons_append, Audience.run]
    exact ih
    exact hannounce
    exact hwithdraw

/-- Calls listeners one after the other. What comes of one call is over before the next. -/
def callEach (change : Change) (a : Audience) (state : τ) : List String → Audience × τ
  | [] => (a, state)
  | listener :: listeners =>
    let (a, state) := Audience.run withdraw a state [.call listener change]
    callEach change a state listeners

theorem run_calls (change : Change) (a : Audience) (state : τ) (listeners : List String) :
    Audience.run withdraw a state (listeners.map fun l => .call l change) =
      callEach withdraw change a state listeners := by
  induction listeners generalizing a state with
  | nil => rw [List.map_nil, Audience.run, callEach]
  | cons l listeners ih =>
    rw [List.map_cons, ← List.singleton_append, run_append, ih, callEach]

/-- Whom an event calls is settled before the first of them is called. -/
theorem perform_announce (a : Audience) (state : τ) (e : Event) :
    a.perform withdraw state (.announce e) =
      callEach withdraw e.change a state (a.hub.called e) := by
  rw [perform, Audience.run, List.append_nil, callsFor, run_calls]

/-! ## What is heard -/

/-- Whether notes say that listeners have heard of a change one after the other, each with what came
of its call behind it. -/
inductive Tells (change : Change) : List String → List (String × Change) → Prop
  | nil : Tells change [] []
  | cons (listener : String) {listeners : List String} (meanwhile : List (String × Change))
    {notes : List (String × Change)} : Tells change listeners notes →
    Tells change (listener :: listeners) ((listener, change) :: meanwhile ++ notes)

@[simp] theorem heard_meet (a : Audience) (name : String) (l : Listener) :
    (a.meet name l).heard = a.heard := by
  unfold meet
  split <;> rfl

theorem heard_register (a : Audience) (action : Action) : (a.register action).heard = a.heard := by
  cases action with
  | bind kind name listener script times => exact heard_meet _ _ _
  | unbind kind name listener =>
    cases listener with
    | none => rfl
    | some listener => exact heard_meet _ _ _
  | bindFilter label filter listener script times =>
    have hpredicate (b : Audience) : (b.predicate label filter).2.heard = b.heard := by
      unfold predicate
      split <;> rfl
    exact (hpredicate _).trans (heard_meet _ _ _)
  | unbindFilter label =>
    simp only [register]
    split <;> rfl
  | announce event => rfl
  | withdraw title => rfl

theorem heard_hear (a : Audience) (listener : String) (change : Change) :
    (a.hear listener change).1.heard = a.heard ++ [(listener, change)] := by
  unfold hear
  dsimp only
  split <;> rfl

theorem heard_run (a : Audience) (state : τ) (errands : List Errand) :
    ∃ notes, (Audience.run withdraw a state errands).1.heard = a.heard ++ notes := by
  fun_induction Audience.run withdraw a state errands with
  | case1 a state => exact ⟨[], (List.append_nil _).symm⟩
  | case2 a state listener change errands b script hhear ih =>
    obtain ⟨notes, hnotes⟩ := ih
    have hb : b.heard = a.heard ++ [(listener, change)] := by rw [← heard_hear, hhear]
    exact ⟨(listener, change) :: notes, by rw [hnotes, hb, List.append_assoc]; rfl⟩
  | case3 a state e errands ih => exact ih
  | case4 a state title errands state' event hwithdraw ih => exact ih
  | case5 a state action errands hannounce hwithdraw ih =>
    obtain ⟨notes, hnotes⟩ := ih
    exact ⟨notes, by rw [hnotes, heard_register]⟩

theorem heard_callEach (change : Change) (a : Audience) (state : τ) (listeners : List String) :
    ∃ notes, Tells change listeners notes ∧
      (callEach withdraw change a state listeners).1.heard = a.heard ++ notes := by
  induction listeners generalizing a state with
  | nil => exact ⟨[], .nil, (List.append_nil _).symm⟩
  | cons l listeners ih =>
    obtain ⟨meanwhile, hmeanwhile⟩ :=
      heard_run withdraw (a.hear l change).1 state ((a.hear l change).2.map .perform ++ [])
    rw [← run_call, heard_hear] at hmeanwhile
    obtain ⟨notes, htells, hnotes⟩ := ih (Audience.run withdraw a state [.call l change]).1
      (Audience.run withdraw a state [.call l change]).2
    refine ⟨(l, change) :: meanwhile ++ notes, .cons l meanwhile htells, ?_⟩
    rw [callEach, hnotes, hmeanwhile, List.append_assoc, List.append_assoc]
    rfl

end Run

/-! ## The hub at work -/

/-- A hub keeps its registrations as one list in the order of the calls, and counts those that are
left. An event calls the listeners that the list tells it to at its start, once for each
registration, whatever they do in answer, and what they ask of the hub joins the calls. -/
theorem hub_keeps_registrations (calls : List (HubCall String)) (a : Audience)
    (ha : a.hub = Hub.after calls) :
    a.hub.size = (registrations calls).length ∧
    (∀ action, (a.register action).hub = Hub.after (calls ++ a.asks action)) ∧
    ∀ {τ : Type} (withdraw : String → τ → τ × Option Event) (state : τ) (e : Event),
      a.perform withdraw state (.announce e) =
        callEach withdraw e.change a state (reached (registrations calls) e) ∧
      (∃ notes, Tells e.change (reached (registrations calls) e) notes ∧
        (a.perform withdraw state (.announce e)).1.heard = a.heard ++ notes) ∧
      ∃ more, Becomes a more (a.perform withdraw state (.announce e)).1 ∧
        (a.perform withdraw state (.announce e)).1.hub = Hub.after (calls ++ more) := by
  have hshows := shows_after calls
  rw [← ha] at hshows
  have hgoes (more : List (HubCall String)) :
      more.foldl HubCall.onHub a.hub = Hub.after (calls ++ more) := by
    rw [ha, Hub.after, Hub.after, List.foldl_append]
  refine ⟨hshows.size_eq, fun action => ?_, fun withdraw state e => ?_⟩
  · rw [hub_register, hgoes]
  · have hcalled := perform_announce withdraw a state e
    rw [hshows.called_eq] at hcalled
    obtain ⟨more, hmore⟩ := Becomes.refl.run withdraw state [.perform (.announce e)] (a := a)
    refine ⟨hcalled, ?_, more, hmore, ?_⟩
    · rw [hcalled]
      exact heard_callEach _ _ _ _ _
    · exact hmore.hub.trans (hgoes more)

/-- Calls that register two listeners for tiddlers and a third under a predicate. -/
def threeCalls : List (HubCall String) :=
  [.bind .tiddler none "first", .bind .tiddler none "second",
    .bindFilter ⟨0, fun _ => true⟩ "third"]

/-- An audience of three whose first listener, when it is called, has the registrations for a kind
cancelled, its own among them, and announces another change. -/
def interrupted : Audience where
  hub := Hub.after threeCalls
  listeners := .ofList
    [("first", ⟨[.unbind .tiddler none none, .announce (.changed { title := "Inner" })], 1⟩)]

/-- The third listener alone is left to be called next time, but all three are called for the change
that was under way. -/
theorem interruption_cuts_nobody_off :
    interrupted.hub.size = 3 ∧
    (interrupted.register (.unbind .tiddler none none)).hub.called
      (.changed { title := "Outer" }) = ["third"] ∧
    ∃ notes, Tells (.changed { title := "Outer" }) ["first", "second", "third"] notes ∧
      (interrupted.performAlone (.announce (.changed { title := "Outer" }))).heard = notes := by
  obtain ⟨hsize, -, htrigger⟩ := hub_keeps_registrations threeCalls interrupted rfl
  exact ⟨hsize, by decide, (htrigger _ () (.changed { title := "Outer" })).2.1⟩

end TiddlerShelf.Audience
