import TiddlerShelf.Proofs.Tier
import TiddlerShelf.Store.Basic

/-! # What announcements do to edits

Listeners can drop edits and do nothing else to them. Whatever they do in answer to an announcement,
the edits are afterwards those from before without the titles that listeners have had withdrawn, and
the audience has noted these titles (`withdrawAll_announce`). -/

namespace TiddlerShelf

namespace Audience

@[simp] theorem withdrawn_meet (a : Audience) (name : String) (l : Listener) :
    (a.meet name l).withdrawn = a.withdrawn := by
  unfold meet
  split <;> rfl

@[simp] theorem withdrawn_predicate (a : Audience) (label : String) (filter : Filter) :
    (a.predicate label filter).2.withdrawn = a.withdrawn := by
  unfold predicate
  split <;> rfl

@[simp] theorem withdrawn_bindFresh (a : Audience) (label : String) (filter : Filter)
    (listener : String) : (a.bindFresh label filter listener).withdrawn = a.withdrawn :=
  withdrawn_meet a listener {}

@[simp] theorem withdrawn_register (a : Audience) (action : Action) :
    (a.register action).withdrawn = a.withdrawn := by
  cases action with
  | bind kind name listener script times => exact withdrawn_meet _ _ _
  | unbind kind name listener =>
    cases listener with
    | none => rfl
    | some listener => exact withdrawn_meet _ _ _
  | bindFilter label filter listener script times =>
    exact (withdrawn_predicate _ _ _).trans (withdrawn_meet _ _ _)
  | unbindFilter label =>
    simp only [register]
    split <;> rfl
  | announce event => rfl
  | withdraw title => rfl

@[simp] theorem withdrawn_hear (a : Audience) (name : String) (change : Change) :
    (a.hear name change).1.withdrawn = a.withdrawn := by
  unfold hear
  dsimp only
  split <;> rfl

/-- Running errands drops the edits of some titles, one after the other, and notes the titles. -/
theorem withdrawAll_run (a : Audience) (edits : Tier) (errands : List Errand) :
    ∃ titles, (run Store.withdrawEdit a edits errands).2 = edits.withdrawAll titles ∧
      (run Store.withdrawEdit a edits errands).1.withdrawn = a.withdrawn ++ titles := by
  fun_induction run Store.withdrawEdit a edits errands with
  | case1 a edits => exact ⟨[], rfl, (List.append_nil _).symm⟩
  | case2 a edits listener change rest b script hhear ih =>
    obtain ⟨titles, htier, hlog⟩ := ih
    have hb : b.withdrawn = a.withdrawn := by
      rw [← withdrawn_hear a listener change, hhear]
    exact ⟨titles, htier, hlog.trans (by rw [hb])⟩
  | case3 a edits e rest ih => exact ih
  | case4 a edits title rest edits' event hwithdraw ih =>
    obtain ⟨titles, htier, hlog⟩ := ih
    have hedits : edits' = (edits.withdraw { title }).1 := (congrArg Prod.fst hwithdraw).symm
    refine ⟨title :: titles, ?_, ?_⟩
    · rw [htier, hedits]
      rfl
    · rw [hlog]
      exact List.append_assoc _ _ _
  | case5 a edits action rest hannounce hwithdraw ih =>
    obtain ⟨titles, htier, hlog⟩ := ih
    exact ⟨titles, htier, hlog.trans (by rw [withdrawn_register])⟩

/-- Whether no event calls anybody. -/
def Silent (a : Audience) : Prop := ∀ e, a.callsFor e = []

theorem silent_empty : Silent {} := by
  rintro ⟨kind, name, change⟩
  cases name <;> cases kind <;> cases change <;> rfl

theorem announceAll_of_silent {a : Audience} (h : a.Silent) (edits : Tier) (events : List Event) :
    a.announceAll Store.withdrawEdit edits events = (a, edits) := by
  unfold announceAll
  induction events with
  | nil => rw [List.map_nil, run]
  | cons e events ih => rw [List.map_cons, run, h e, List.nil_append, ih]

end Audience

namespace Store

/-- Where nobody listens, announcing changes nothing. -/
theorem announce_of_silent {s : Store} (h : s.audience.Silent) (events : List Event) :
    s.announce events = s := by
  unfold announce
  rw [Audience.announceAll_of_silent h]

/-- To announce nothing is to do nothing. -/
theorem announce_nil (s : Store) : s.announce [] = s := by
  unfold announce Audience.announceAll
  rw [List.map_nil, Audience.run]

theorem withdrawAll_announce (s : Store) (events : List Event) :
    ∃ titles, (s.announce events).modified = s.modified.withdrawAll titles ∧
      (s.announce events).audience.withdrawn = s.audience.withdrawn ++ titles :=
  Audience.withdrawAll_run _ _ _

theorem withdrawAll_perform (s : Store) (action : Action) :
    ∃ titles, (s.perform action).modified = s.modified.withdrawAll titles ∧
      (s.perform action).audience.withdrawn = s.audience.withdrawn ++ titles :=
  Audience.withdrawAll_run _ _ _

end Store

end TiddlerShelf
