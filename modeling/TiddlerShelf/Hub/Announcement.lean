import TiddlerShelf.Hub.Audience

/-!
# Announcements

An announcement calls listeners, what they do may lead to further calls, and so on until nothing is
due. What a listener announces is heard before the next listener is called. This ends, since each
action that is taken uses up part of what listeners may still do, which `Audience.potential`
measures.
-/

namespace TiddlerShelf

mutual

/-- How much of what listeners may do an action can add or use up. -/
def Action.weight : Action → Nat
  | .bind _ _ _ script times | .bindFilter _ _ _ script times =>
    1 + times * (1 + Action.totalWeight script)
  | _ => 1

/-- The weight of actions together. -/
def Action.totalWeight : List Action → Nat
  | [] => 0
  | a :: as => a.weight + totalWeight as

end

/-- How much a listener may still do. -/
def Listener.potential (l : Listener) : Nat := l.remaining * (1 + Action.totalWeight l.script)

namespace Audience

/-- How much all listeners may still do. -/
def potential (a : Audience) : Nat := total Listener.potential a.listeners.values

/-- Something that is due: a call of a listener, or an action of one. -/
inductive Errand
  | call (listener : String) (change : Change)
  | perform (action : Action)

/-- The calls that an event leads to. -/
def callsFor (a : Audience) (e : Event) : List Errand :=
  (a.hub.called e).map fun listener => .call listener e.change

/-- The weight of an errand: that of its action. A call has none. -/
def Errand.weight : Errand → Nat
  | .call .. => 0
  | .perform action => action.weight

/-- The weight of errands together. -/
def errandWeight (errands : List Errand) : Nat := total Errand.weight errands

theorem errandWeight_append (xs ys : List Errand) :
    errandWeight (xs ++ ys) = errandWeight xs + errandWeight ys :=
  total_append _ _ _

theorem errandWeight_perform (script : List Action) :
    errandWeight (script.map .perform) = Action.totalWeight script := by
  induction script with
  | nil => rfl
  | cons action script ih =>
    simp only [errandWeight, List.map_cons, total, Errand.weight, Action.totalWeight] at ih ⊢
    rw [ih]

theorem errandWeight_callsFor (a : Audience) (e : Event) : errandWeight (a.callsFor e) = 0 := by
  simp only [errandWeight, callsFor, total_map, Errand.weight]
  induction a.hub.called e with
  | nil => rfl
  | cons l ls ih => rw [total, ih]

theorem errandWeight_callsFor_all (a : Audience) (es : List Event) :
    errandWeight (es.flatMap a.callsFor) = 0 := by
  induction es with
  | nil => rfl
  | cons e es ih => simp [errandWeight_append, errandWeight_callsFor, ih]

theorem potential_noteWithdrawn (a : Audience) (title : String) :
    (a.noteWithdrawn title).potential = a.potential := rfl

theorem potential_meet_le (a : Audience) (name : String) (l : Listener) :
    (a.meet name l).potential ≤ a.potential + l.potential := by
  unfold meet
  split
  · exact Nat.le_add_right _ _
  · have := Keyed.total_insert Listener.potential a.listeners name l
    simp only [potential]
    omega

/-- An action that is taken adds less than its weight to what listeners may still do. -/
theorem potential_register_lt (a : Audience) (action : Action) :
    (a.register action).potential < a.potential + action.weight := by
  cases action with
  | bind kind name listener script times =>
    have := potential_meet_le a listener ⟨script, times⟩
    simp only [register, Action.weight, Listener.potential, potential] at this ⊢
    omega
  | unbind kind name listener =>
    cases listener with
    | none => simp [register, Action.weight, potential]
    | some listener =>
      have := potential_meet_le a listener {}
      simp only [register, Action.weight, Listener.potential, potential] at this ⊢
      omega
  | bindFilter label filter listener script times =>
    have hmeet := potential_meet_le a listener ⟨script, times⟩
    have hpred : ∀ b : Audience, (b.predicate label filter).2.potential = b.potential := by
      intro b
      unfold predicate
      split <;> rfl
    have := hpred (a.meet listener ⟨script, times⟩)
    simp only [register, Action.weight, Listener.potential, potential] at this hmeet ⊢
    omega
  | unbindFilter label =>
    simp only [register, Action.weight]
    split <;> simp [potential]
  | announce event => simp [register, Action.weight]
  | withdraw title => simp [register, Action.weight]

/-- A listener that is called uses up at least the weight of the actions it takes, or takes none. -/
theorem potential_hear (a : Audience) (name : String) (change : Change) :
    let (b, script) := a.hear name change
    b.potential + Action.totalWeight script < a.potential ∨
      (b.potential = a.potential ∧ script = []) := by
  unfold hear
  dsimp only
  split
  · rename_i script remaining hget
    have hsum := Keyed.total_insert Listener.potential a.listeners name ⟨script, remaining⟩
    rw [hget] at hsum
    simp only [Option.map_some, Option.getD_some, Listener.potential, Nat.succ_mul] at hsum
    left
    simp only [potential] at *
    omega
  · right
    exact ⟨rfl, rfl⟩

/-- Runs errands until none is due. What a listener does comes before the errands that were due
already, and an event that is announced calls those who are registered at that moment. `withdraw`
drops an edit, if there is one, and gives the event that tells of it. -/
def run {τ : Type} (withdraw : String → τ → τ × Option Event) (a : Audience) (state : τ) :
    List Errand → Audience × τ
  | [] => (a, state)
  | .call listener change :: rest =>
    match hhear : a.hear listener change with
    | (b, script) => run withdraw b state (script.map .perform ++ rest)
  | .perform (.announce e) :: rest => run withdraw a state (a.callsFor e ++ rest)
  | .perform (.withdraw title) :: rest =>
    match withdraw title state with
    | (state, event) =>
      run withdraw (a.noteWithdrawn title) state (event.toList.flatMap a.callsFor ++ rest)
  | .perform action :: rest => run withdraw (a.register action) state rest
termination_by errands => (a.potential + errandWeight errands, errands.length)
decreasing_by
  · have h := potential_hear a listener change
    rw [hhear] at h
    rw [errandWeight_append, errandWeight_perform]
    rcases h with h | ⟨h, hs⟩
    · apply Prod.Lex.left
      simp only [errandWeight, total, Errand.weight]
      omega
    · subst hs
      rw [h]
      simp [errandWeight, total, Errand.weight, Action.totalWeight, Prod.lex_def]
  · apply Prod.Lex.left
    rw [errandWeight_append, errandWeight_callsFor]
    simp [errandWeight, total, Errand.weight, Action.weight]
  · apply Prod.Lex.left
    rw [errandWeight_append, errandWeight_callsFor_all, potential_noteWithdrawn]
    simp [errandWeight, total, Errand.weight, Action.weight]
  · apply Prod.Lex.left
    have := potential_register_lt a action
    simp only [errandWeight, total, Errand.weight]
    omega

/-- Announces events one after the other. -/
def announceAll {τ : Type} (withdraw : String → τ → τ × Option Event) (a : Audience) (state : τ)
    (events : List Event) : Audience × τ :=
  run withdraw a state (events.map fun e => .perform (.announce e))

/-- Takes an action. -/
def perform {τ : Type} (withdraw : String → τ → τ × Option Event) (a : Audience) (state : τ)
    (action : Action) : Audience × τ :=
  run withdraw a state [.perform action]

/-- Takes an action where there is no edit to withdraw. -/
def performAlone (a : Audience) (action : Action) : Audience :=
  (a.perform (fun _ state => (state, none)) () action).1

end Audience

end TiddlerShelf
