import TiddlerShelf.Proofs.Dispatch

/-! # What is heard of events

An event that is raised calls whoever is registered for it at that moment, one listener after the
other. Each of them hears of it, and a listener that the others let alone hears of it just as often
as it is registered, and of nothing else meanwhile (`Hears`). What a store announces is raised in
this way, one event after the other (`raises_announce`), so that whoever follows all events hears
each of them just once (`heardBy_announce`). -/

namespace TiddlerShelf

/-- Whether an action lets a listener alone: it touches no registration of that listener and raises
no event, and neither does anything that it makes another listener do. -/
inductive Action.Spares (name : String) : Action → Prop
  | bind {kind : EventKind} {key : Option String} {listener : String} {script : List Action}
    {times : Nat} (hne : listener ≠ name) (hscript : ∀ action ∈ script, Spares name action) :
    Spares name (.bind kind key listener script times)
  | unbind {kind : EventKind} {key : Option String} {listener : String} (hne : listener ≠ name) :
    Spares name (.unbind kind key (some listener))
  | bindFilter {label : String} {filter : Filter} {listener : String} {script : List Action}
    {times : Nat} (hne : listener ≠ name) (hscript : ∀ action ∈ script, Spares name action) :
    Spares name (.bindFilter label filter listener script times)
  | unbindFilter {label : String} : Spares name (.unbindFilter label)

/-! ## How often an event calls a listener -/

namespace Hub

variable {h h' : Hub String} {name listener : String}

theorem count_called_modify {f : Bindings String → Bindings String}
    (hall : ∀ b, (f b).all.count name = b.all.count name)
    (hnamed : ∀ b key, ((f b).named.getD key []).count name = (b.named.getD key []).count name)
    (kind : EventKind) (e : Event) :
    ((h.modify kind f).called e).count name = (h.called e).count name := by
  obtain ⟨k, key, change⟩ := e
  have hsame : (h.modify kind f).accepting ⟨k, key, change⟩ = h.accepting ⟨k, key, change⟩ := rfl
  unfold called
  rw [hsame, bindings_modify]
  split
  · cases key with
    | none => simp [Bindings.forName, hall]
    | some key => simp [Bindings.forName, hall, hnamed]
  · rfl

theorem count_called_bind (hne : listener ≠ name) (kind : EventKind) (key : Option String)
    (e : Event) : ((h.bind kind key listener).called e).count name = (h.called e).count name := by
  refine count_called_modify (fun b => ?_) (fun b x => ?_) kind e
  · rw [Bindings.all_bind]
    split <;> simp [hne]
  · rw [Bindings.getD_bind]
    split <;> simp [hne]

theorem count_called_unbind (hne : listener ≠ name) (kind : EventKind) (key : Option String)
    (e : Event) :
    ((h.unbind kind key (some listener)).called e).count name = (h.called e).count name := by
  have hstrip (ls : List String) : (Bindings.strip (some listener) ls).count name = ls.count name :=
    List.count_filter (by simpa using hne.symm)
  refine count_called_modify (fun b => ?_) (fun b x => ?_) kind e
  · rw [Bindings.all_unbind]
    split
    · exact hstrip _
    · rfl
  · rw [Bindings.getD_unbind]
    split
    · exact hstrip _
    · rfl

/-- Who registers for a kind is called once more by each event of that kind. -/
theorem count_called_bind_self (kind : EventKind) (e : Event) :
    ((h.bind kind none name).called e).count name =
      (h.called e).count name + if e.kind = kind then 1 else 0 := by
  have hsame : (h.bind kind none name).accepting e = h.accepting e := rfl
  unfold called
  rw [hsame, bind, bindings_modify]
  split
  · simp only [Bindings.bind, List.count_append, List.count_singleton_self]
    cases e.name <;> simp only [Bindings.forName, List.count_nil] <;> omega
  · rfl

/-- A listener that is under no predicate is called as its other registrations have it. -/
theorem count_called_of_bindings (h₀ : ∀ f ∈ h.filters, f.2 ≠ name)
    (h₁ : ∀ f ∈ h'.filters, f.2 ≠ name) (hsame : h'.bindings = h.bindings) (e : Event) :
    (h'.called e).count name = (h.called e).count name := by
  have hnone {g : Hub String} (hg : ∀ f ∈ g.filters, f.2 ≠ name) : name ∉ g.accepting e := by
    unfold accepting
    split
    · intro hmem
      obtain ⟨f, hf, heq⟩ := List.mem_map.1 hmem
      exact hg f (List.mem_filter.1 hf).1 heq
    · exact List.not_mem_nil
  unfold called
  rw [List.count_append, List.count_append, List.count_append, List.count_append,
    List.count_eq_zero_of_not_mem (hnone h₀), List.count_eq_zero_of_not_mem (hnone h₁), hsame]

end Hub

namespace Audience

/-- What a listener has heard of, in order. -/
def heardBy (a : Audience) (name : String) : List Change :=
  (a.heard.filter (·.1 == name)).map Prod.snd

/-- Whether all who still act in an audience let a listener alone. The listener is under no
predicate, so that it makes no difference to it which predicates are cancelled. -/
structure Spares (a : Audience) (name : String) : Prop where
  unfiltered : ∀ f ∈ a.hub.filters, f.2 ≠ name
  scripts : ∀ {other l}, a.listeners.get? other = some l →
    l.remaining = 0 ∨ ∀ action ∈ l.script, action.Spares name

/-- Whether a change of an audience has let a listener alone. -/
structure Kept (name : String) (a b : Audience) : Prop where
  spares : b.Spares name
  turns : ∀ e, (b.hub.called e).count name = (a.hub.called e).count name

variable {a b c : Audience} {name : String}

theorem Kept.trans (h : Kept name a b) (h' : Kept name b c) : Kept name a c :=
  ⟨h'.spares, fun e => (h'.turns e).trans (h.turns e)⟩

theorem spares_empty (name : String) : Spares {} name :=
  ⟨fun _ hf => absurd hf List.not_mem_nil, fun hget => nomatch hget⟩

/-- Where nobody is registered, nobody is called. -/
theorem called_empty (e : Event) : (({} : Audience).hub.called e) = [] := by
  obtain ⟨kind, key, change⟩ := e
  cases kind <;> cases key <;> cases change <;> rfl

theorem Spares.meet (h : a.Spares name) (other : String) {l : Listener}
    (hl : l.remaining = 0 ∨ ∀ action ∈ l.script, action.Spares name) :
    (a.meet other l).Spares name := by
  refine ⟨hub_meet a other l ▸ h.unfiltered, fun {x l'} hget => ?_⟩
  unfold Audience.meet at hget
  split at hget
  · exact h.scripts hget
  · rw [Keyed.get?_insert] at hget
    split at hget
    · exact Option.some.inj hget ▸ hl
    · exact h.scripts hget

/-- An action that lets a listener alone keeps it as it was. -/
theorem Spares.register (h : a.Spares name) {action : Action} (haction : action.Spares name) :
    Kept name a (a.register action) := by
  cases haction with
  | @bind kind key listener script times hne hscript =>
    have hmet := h.meet listener (l := ⟨script, times⟩) (.inr hscript)
    refine ⟨⟨hmet.unfiltered, hmet.scripts⟩, fun e => ?_⟩
    rw [hub_register]
    exact Hub.count_called_bind hne kind key e
  | @unbind kind key listener hne =>
    have hmet := h.meet listener (l := {}) (.inl rfl)
    refine ⟨⟨hmet.unfiltered, hmet.scripts⟩, fun e => ?_⟩
    rw [hub_register]
    exact Hub.count_called_unbind hne kind key e
  | @bindFilter label filter listener script times hne hscript =>
    have hmet := h.meet listener (l := ⟨script, times⟩) (.inr hscript)
    have hlisteners : (a.register (.bindFilter label filter listener script times)).listeners =
        (a.meet listener ⟨script, times⟩).listeners := by
      unfold Audience.register Audience.predicate
      dsimp only
      split <;> rfl
    have hfilters : ∀ f ∈ (a.register (.bindFilter label filter listener script times)).hub.filters,
        f.2 ≠ name := by
      rw [hub_register]
      intro f hf
      rcases List.mem_append.1 hf with hf | hf
      · exact h.unfiltered f hf
      · exact List.mem_singleton.1 hf ▸ hne
    refine ⟨⟨hfilters, hlisteners ▸ hmet.scripts⟩, fun e => ?_⟩
    refine Hub.count_called_of_bindings h.unfiltered hfilters ?_ e
    rw [hub_register]
    rfl
  | @unbindFilter label =>
    simp only [Audience.register]
    split
    · rename_i p _
      have hfilters : ∀ f ∈ (a.hub.unbindFilter p).filters, f.2 ≠ name :=
        fun f hf => h.unfiltered f (List.mem_filter.1 hf).1
      exact ⟨⟨hfilters, h.scripts⟩, Hub.count_called_of_bindings h.unfiltered hfilters rfl⟩
    · exact ⟨h, fun _ => rfl⟩

/-- So does a call of whatever listener, and the actions that come due let it alone too. -/
theorem Spares.hear (h : a.Spares name) (listener : String) (change : Change) :
    Kept name a (a.hear listener change).1 ∧
      ∀ action ∈ (a.hear listener change).2, action.Spares name := by
  unfold Audience.hear
  dsimp only
  split
  · rename_i script remaining hget
    have hscript := (h.scripts hget).resolve_left (Nat.succ_ne_zero remaining)
    refine ⟨⟨⟨h.unfiltered, fun {x l} hx => ?_⟩, fun _ => rfl⟩, hscript⟩
    rw [Keyed.get?_insert] at hx
    split at hx
    · exact Option.some.inj hx ▸ .inr hscript
    · exact h.scripts hx
  · exact ⟨⟨⟨h.unfiltered, h.scripts⟩, fun _ => rfl⟩, fun _ hmem => absurd hmem List.not_mem_nil⟩

theorem heardBy_of_heard {notes : List (String × Change)} (h : b.heard = a.heard ++ notes) :
    b.heardBy name = a.heardBy name ++ (notes.filter (·.1 == name)).map Prod.snd := by
  rw [heardBy, h, List.filter_append, List.map_append]
  rfl

/-- The change that an errand tells a listener of. -/
def Errand.tells? (name : String) : Errand → Option Change
  | .call listener change => if listener = name then some change else none
  | .perform _ => none

section Run

variable {τ : Type} (withdraw : String → τ → τ × Option Event)

/-- Errands that let a listener alone, and what they lead to, keep it as it was, and it hears of
just what they tell it of. -/
theorem Spares.run (h : a.Spares name) (state : τ) {errands : List Errand}
    (herrands : ∀ action, .perform action ∈ errands → action.Spares name) :
    Kept name a (run withdraw a state errands).1 ∧
      (run withdraw a state errands).1.heardBy name =
        a.heardBy name ++ errands.filterMap (Errand.tells? name) := by
  fun_induction Audience.run withdraw a state errands with
  | case1 a state => exact ⟨⟨h, fun _ => rfl⟩, (List.append_nil _).symm⟩
  | case2 a state listener change rest b script hhear ih =>
    obtain ⟨hkept, hscript⟩ := h.hear listener change
    rw [hhear] at hkept hscript
    have hheard : b.heard = a.heard ++ [(listener, change)] := by rw [← heard_hear, hhear]
    obtain ⟨hrest, hnotes⟩ := ih hkept.spares fun action hmem => by
      rcases List.mem_append.1 hmem with hmem | hmem
      · obtain ⟨action', haction, heq⟩ := List.mem_map.1 hmem
        cases heq
        exact hscript action haction
      · exact herrands action (List.mem_cons_of_mem _ hmem)
    refine ⟨hkept.trans hrest, ?_⟩
    have hsilent : (script.map Errand.perform).filterMap (Errand.tells? name) = [] := by
      simp [List.filterMap_map, Function.comp_def, Errand.tells?]
    rw [hnotes, heardBy_of_heard hheard, List.filterMap_append, hsilent, List.nil_append,
      List.append_assoc]
    by_cases hl : listener = name <;> simp [Errand.tells?, hl]
  | case3 a state e rest ih =>
    have hspares : Action.Spares name (.announce e) := herrands _ List.mem_cons_self
    cases hspares
  | case4 a state title rest state' event hwithdraw ih =>
    have hspares : Action.Spares name (.withdraw title) := herrands _ List.mem_cons_self
    cases hspares
  | case5 a state action rest hannounce hwithdraw ih =>
    have hkept := h.register (herrands action List.mem_cons_self)
    obtain ⟨hrest, hnotes⟩ :=
      ih hkept.spares fun action' hmem => herrands action' (List.mem_cons_of_mem _ hmem)
    refine ⟨hkept.trans hrest, ?_⟩
    rw [hnotes, heardBy, heard_register]
    rfl

end Run

/-! ## Events that are raised -/

/-- Whether an audience comes from another by an event that is raised once: those who are registered
for it hear of it one after the other, and whoever is let alone hears of it as often as it is
registered, and of nothing else. -/
structure Hears (a : Audience) (e : Event) (b : Audience) : Prop where
  called : ∃ notes, Tells e.change (a.hub.called e) notes ∧ b.heard = a.heard ++ notes
  alone : ∀ name, a.Spares name → Kept name a b ∧
    b.heardBy name = a.heardBy name ++ List.replicate ((a.hub.called e).count name) e.change

/-- Whether an audience comes from another by events that are raised one after the other. -/
inductive Raises (a : Audience) : List Event → Audience → Prop
  | nil : Raises a [] a
  | concat {es : List Event} {b c : Audience} {e : Event} (h : Raises a es b) (he : b.Hears e c) :
    Raises a (es ++ [e]) c

theorem Raises.trans {es es' : List Event} (h : a.Raises es b) (h' : b.Raises es' c) :
    a.Raises (es ++ es') c := by
  induction h' with
  | nil => rwa [List.append_nil]
  | concat _ he ih => exact List.append_assoc .. ▸ ih.concat he

theorem raises_singleton {e : Event} (h : a.Hears e b) : a.Raises [e] b := .concat .nil h

/-- A listener that is let alone hears of all that is raised, each time as often as it is
registered, and of nothing else. -/
theorem Raises.heardBy {es : List Event} (h : a.Raises es b) (ha : a.Spares name) :
    Kept name a b ∧ b.heardBy name = a.heardBy name ++
      es.flatMap fun e => List.replicate ((a.hub.called e).count name) e.change := by
  induction h with
  | nil => exact ⟨⟨ha, fun _ => rfl⟩, (List.append_nil _).symm⟩
  | concat _ he ih =>
    obtain ⟨hkept, hnotes⟩ := ih
    obtain ⟨hkept', hnotes'⟩ := he.alone name hkept.spares
    refine ⟨hkept.trans hkept', ?_⟩
    rw [hnotes', hnotes, hkept.turns, List.flatMap_append, List.append_assoc,
      List.flatMap_singleton]

theorem hears_announce {τ : Type} (withdraw : String → τ → τ × Option Event) (a : Audience)
    (state : τ) (e : Event) : a.Hears e (a.perform withdraw state (.announce e)).1 := by
  refine ⟨?_, fun name ha => ?_⟩
  · rw [perform_announce]
    exact heard_callEach _ _ _ _ _
  · have hcalls : a.perform withdraw state (.announce e) =
        run withdraw a state (a.callsFor e) := by
      rw [perform, Audience.run, List.append_nil]
    have htold : (a.callsFor e).filterMap (Errand.tells? name) =
        List.replicate ((a.hub.called e).count name) e.change := by
      unfold callsFor
      induction a.hub.called e with
      | nil => rfl
      | cons l ls ih =>
        rw [List.map_cons, List.filterMap_cons, ih, List.count_cons]
        by_cases hl : l = name <;> simp [Errand.tells?, hl, List.replicate_succ]
    rw [hcalls, ← htold]
    refine ha.run withdraw state fun action hmem => ?_
    obtain ⟨l, -, heq⟩ := List.mem_map.1 hmem
    cases heq

end Audience

/-! ## Following -/

namespace Audience

/-- Whether a listener follows all that is announced: each event calls it just once, and the others
let it alone. -/
structure HasFollower (a : Audience) (name : String) : Prop where
  spared : a.Spares name
  once : ∀ e, (a.hub.called e).count name = 1

/-- A follower hears of all that is raised, and goes on following. -/
theorem HasFollower.raises {a b : Audience} {name : String} (h : a.HasFollower name)
    {es : List Event} (hraises : a.Raises es b) :
    b.HasFollower name ∧ b.heardBy name = a.heardBy name ++ es.map (·.change) := by
  obtain ⟨hkept, hheard⟩ := hraises.heardBy h.spared
  refine ⟨⟨hkept.spares, fun e => (hkept.turns e).trans (h.once e)⟩, ?_⟩
  rw [hheard, List.map_eq_flatMap]
  refine congrArg _ (List.flatMap_congr fun e _ => ?_)
  rw [h.once e, List.replicate_one]

/-- A listener that does nothing when it is called lets itself alone. -/
theorem Spares.register_self {a : Audience} {name : String} (h : a.Spares name) (kind : EventKind) :
    (a.register (.bind kind none name [] 0)).Spares name := by
  have hmet := h.meet name (l := ⟨[], 0⟩) (.inl rfl)
  exact ⟨hmet.unfiltered, hmet.scripts⟩

/-- An audience in which a listener has registered for the events of every kind. -/
def followedBy (a : Audience) (name : String) : Audience :=
  ((a.register (.bind .recipe none name [] 0)).register (.bind .bag none name [] 0)).register
    (.bind .tiddler none name [] 0)

/-- Whoever registers for the events of every kind follows them from then on. -/
theorem Spares.hasFollower {a : Audience} {name : String} (h : a.Spares name)
    (hnone : ∀ e, (a.hub.called e).count name = 0) : (a.followedBy name).HasFollower name := by
  refine ⟨((h.register_self _).register_self _).register_self _, fun e => ?_⟩
  unfold followedBy
  rw [hub_register, hub_register, hub_register]
  show ((((a.hub.bind .recipe none name).bind .bag none name).bind .tiddler none name).called
    e).count name = 1
  rw [Hub.count_called_bind_self, Hub.count_called_bind_self, Hub.count_called_bind_self, hnone]
  cases e.kind <;> rfl

end Audience

namespace Store

/-- What a store announces is raised, one event after the other. -/
theorem raises_announce (s : Store) (events : List Event) :
    s.audience.Raises events (s.announce events).audience := by
  induction events generalizing s with
  | nil =>
    rw [announce_nil]
    exact .nil
  | cons e events ih =>
    have hfirst := Audience.hears_announce withdrawEdit s.audience s.modified e
    have hsplit : (s.announce (e :: events)).audience =
        ((s.announce [e]).announce events).audience := by
      unfold announce Audience.announceAll
      rw [List.map_cons, ← List.singleton_append, Audience.run_append]
      rfl
    rw [hsplit]
    exact (Audience.raises_singleton hfirst).trans (ih (s.announce [e]))

/-- What a listener of a store has heard, in order. -/
def heardBy (s : Store) (name : String) : List Change := s.audience.heardBy name

variable {s : Store} {name : String}

/-- A follower hears of all that a store announces, and of nothing else. -/
theorem heardBy_announce (h : s.audience.HasFollower name) (events : List Event) :
    (s.announce events).audience.HasFollower name ∧
      (s.announce events).heardBy name = s.heardBy name ++ events.map (·.change) :=
  h.raises (raises_announce s events)

/-- Nobody stops following when a store comes to read from somewhere. -/
theorem hasFollower_moveTo (h : s.audience.HasFollower name) (place : Container) :
    (s.moveTo place).audience.HasFollower name := by
  unfold moveTo
  split
  · exact h
  · exact (heardBy_announce h _).1

theorem perform_bind (s : Store) (kind : EventKind) (key : Option String) (listener : String)
    (script : List Action) (times : Nat) :
    s.perform (.bind kind key listener script times) =
      { s with audience := s.audience.register (.bind kind key listener script times) } := by
  simp only [perform, Audience.perform, Audience.run]

/-- A store in which a listener has registered for the events of every kind. -/
def followedBy (s : Store) (name : String) : Store :=
  ((s.perform (.bind .recipe none name [] 0)).perform (.bind .bag none name [] 0)).perform
    (.bind .tiddler none name [] 0)

theorem followedBy_eq (s : Store) (name : String) :
    s.followedBy name = { s with audience := s.audience.followedBy name } := by
  rw [followedBy, perform_bind, perform_bind, perform_bind]
  rfl

/-- Where nobody has listened yet, whoever registers for the events of every kind follows them, and
has heard of nothing. -/
theorem followedBy_of_empty (h : s.audience = {}) (name : String) :
    (s.followedBy name).audience.HasFollower name ∧ (s.followedBy name).heardBy name = [] := by
  rw [followedBy_eq, h]
  refine ⟨(Audience.spares_empty name).hasFollower fun e => ?_, ?_⟩
  · rw [Audience.called_empty, List.count_nil]
  · have hnothing : (({} : Audience).followedBy name).heard = [] := by
      unfold Audience.followedBy
      rw [Audience.heard_register, Audience.heard_register, Audience.heard_register]
    rw [heardBy, Audience.heardBy, hnothing]
    rfl

end Store

end TiddlerShelf
