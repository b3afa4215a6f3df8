import TiddlerShelf.Proofs.Fates
import TiddlerShelf.Proofs.Unheard

/-! # Filing late

What is added without a bag is filed once more, in the default container, when that is known. What
has happened to the title in the meantime makes no difference: the tiddler is then pending in its
new place, whatever was there, and the title's place without a bag is cleared if the new one is a
bag. -/

namespace TiddlerShelf

open Program

@[simp] theorem Tiddler.title_placeIn (t : Tiddler) (c : Container) :
    (t.placeIn c).title = t.title := by
  unfold placeIn
  cases c.kind <;> rfl

/-- What filing an edit does to what is pending of its title. -/
theorem Store.pending_fileModified_iff {s : Store} (h : s.Sound) {t x : Tiddler}
    (hnot : x.title ∉ s.withdrawnSince (s.fileModified t).2) :
    (s.fileModified t).2.Pending x ↔ t.asEdit.sameAs x ∨
      x.key ≠ t.key ∧ ¬(t.bag.isSome ∧ x.key = Key.ofNames "" t.title) ∧ s.Pending x :=
  ((quiet_fileModified h t).toSpares.pending_iff (h.withEdit t) hnot).trans Tier.holds_file_iff

/-- What a call that adds a tiddler without a bag does when it learns of the defaults. -/
theorem Call.edits_placed {c : Call} {t : Tiddler} (hc : c.added? = some t) {d : Defaults}
    {s₀ s : Store} {halt : Halt} (h : c.Edits (.resolved (.ok d)) s₀ s halt) :
    s = ((s₀.moveTo d.pullFrom).fileModified (t.placeIn d.pushTo)).2 := by
  have hplaces : ∀ {u}, some u = some t → Call.AddEdits u (.resolved (.ok d)) s₀ s halt →
      s = ((s₀.moveTo d.pullFrom).fileModified (t.placeIn d.pushTo)).2 := by
    intro u hu h
    obtain rfl := Option.some.inj hu
    cases h with
    | places _ => rfl
  cases c with
  | add u => exact hplaces hc h
  | addToCollection c u => exact hplaces hc h
  | _ => cases hc

namespace Activity

/-- When what was added without a bag is filed in the default container, it is pending there, and
what was pending of its title by then stays so exactly if it has the same content, or neither has
the same key nor stands in the place without a bag that is cleared. -/
theorem pending_after_late_filing {a₀ a₁ a b : Activity} {h : List Transition} {id : TaskId}
    {c : Call} {t : Tiddler} {d : Defaults} (ha : a₀.Reachable) (hc : c.added? = some t)
    (hcall : Step a₀ (.go id c .called) a₁) (hrun : Run a₁ h a)
    (hresume : Step a (.go id c (.resolved (.ok d))) b)
    (hnot : t.title ∉ a.store.withdrawnSince b.store) :
    b.store.Pending (t.placeIn d.pushTo).asEdit ∧
      ∀ x, x.title = t.title → a.store.Pending x →
        (b.store.Pending x ↔ (t.placeIn d.pushTo).asEdit.sameAs x ∨
          x.key ≠ (t.placeIn d.pushTo).key ∧
            ¬((t.placeIn d.pushTo).bag.isSome ∧ x.key = Key.ofNames "" t.title)) := by
  have hsound := ((ha.step hcall).run hrun).sound
  obtain ⟨s₀, s, halt, hedits, ⟨resolver, rfl, -⟩, ⟨resolver', hafter, -⟩, -⟩ := hresume.went hsound
  have hmoved := Store.quiet_moveTo (a.store.withResolver resolver) d.pullFrom
  have hs := hmoved.sound (hsound.store.withResolver resolver)
  have hspares := (Store.spares_withResolver a.store resolver).trans hmoved.toSpares
  have hlog := (hs.steady.fileModified (t.placeIn d.pushTo)).log
  rw [hafter, Call.edits_placed hc hedits] at hnot ⊢
  have hnot' := (Store.mem_withdrawnSince_trans hspares.log hlog).not.1 hnot
  rw [not_or] at hnot'
  constructor
  · apply Store.pending_fileModified hs
    rw [Tiddler.title_placeIn]
    exact hnot'.2
  · intro x hx hpending
    apply (Store.pending_fileModified_iff hs (hx ▸ hnot'.2)).trans
    rw [Tiddler.title_placeIn]
    apply or_congr_right
    apply and_congr_right
    intro _
    apply and_iff_left
    exact (hspares.pending_iff hsound.store (hx ▸ hnot'.1)).2 hpending

/-- A run in which a tiddler of the title "T" is filed late, in the bag "notes", after another one
has been added. -/
theorem exists_late_filing (later : Tiddler) (hb : later.bag.isSome) :
    ∃ a₀ a₁ a b : Activity, a₀.Reachable ∧ (∀ d, a₀.store.resolver ≠ .resolved d) ∧
      Step a₀ (.go 0 (.add { title := "T" }) .called) a₁ ∧
      Step a₁ (.go 1 (.add later) .called) a ∧
      Step a (.go 0 (.add { title := "T" }) (.resolved (.ok (.single (.bag "notes"))))) b ∧
      a.store.Pending later.asEdit ∧ b.store.audience = a.store.audience := by
  let a₀ := start {} ⟨0, 0⟩ none .none
  let a₁ := a₀.call (.add { title := "T" })
  let a := a₁.added later
  have hreach₀ : a₀.Reachable := .start _ _ _ _
  have hcall : Step a₀ (.go 0 (.add { title := "T" }) .called) a₁ := step_call a₀ _
  have hreach₁ : a₁.Reachable := hreach₀.step hcall
  have hsilent : a₁.store.audience.Silent := by
    rw [hcall.audience_of_go hreach₀.sound Audience.silent_empty]
    exact Audience.silent_empty
  have hlater : Step a₁ (.go 1 (.add later) .called) a := step_added hreach₁.sound hsilent hb
  have hreach : a.Reachable := hreach₁.step hlater
  obtain ⟨next, htask⟩ : ∃ next,
      a.tasks 0 = some ⟨.add { title := "T" }, .discovering next⟩ := ⟨_, rfl⟩
  have hanswer : Session.defaultsOf a.store.host (.ok { bag := some "notes" }) =
      .ok (.single (.bag "notes")) := by
    show Session.defaultsOf "/" _ = _
    decide +kernel
  have hresume := step_discover htask hanswer
  exact ⟨a₀, a₁, a, _, hreach₀, nofun, hcall, hlater, hresume, Store.pending_withEdit_self _ later,
    hresume.audience_of_go hreach.sound hsilent⟩

/-- An edit in another bag than the default one stays where an earlier tiddler of its title is filed
late. -/
theorem other_bag_pending_after_late_filing :
    ∃ (a b : Activity) (d : Defaults) (t later : Tiddler), a.Reachable ∧ t.bag = none ∧
      later.title = t.title ∧ a.store.Pending later ∧
      Step a (.go 0 (.add t) (.resolved (.ok d))) b ∧
      b.store.Pending (t.placeIn d.pushTo).asEdit ∧ b.store.Pending later := by
  obtain ⟨a₀, a₁, a, b, hreach, -, hcall, hlater, hresume, hpending, haudience⟩ :=
    exists_late_filing (Tiddler.draft "other" "two") rfl
  have hfiled := pending_after_late_filing hreach rfl hcall (.cons hlater (.nil _)) hresume
    (Store.not_mem_withdrawnSince haudience _)
  refine ⟨a, b, .single (.bag "notes"), { title := "T" }, Tiddler.draft "other" "two",
    (hreach.step hcall).step hlater, rfl, rfl, hpending, hresume, hfiled.1, ?_⟩
  exact (hfiled.2 (Tiddler.draft "other" "two").asEdit rfl hpending).2
    (.inr ⟨by decide, by decide⟩)

/-- What is filed late can take the place of what was added to its bag in the meantime. -/
theorem later_add_lost_to_late_filing :
    ¬∀ {a₀ a₁ a b : Activity} {h : List Transition} {id : TaskId} {c : Call} {t : Tiddler}
      {d : Defaults}, a₀.Reachable → (∀ d, a₀.store.resolver ≠ .resolved d) →
      c.added? = some t → t.bag = none → Step a₀ (.go id c .called) a₁ → Run a₁ h a →
      Step a (.go id c (.resolved (.ok d))) b → t.title ∉ a.store.withdrawnSince b.store →
      (∀ tr ∈ h, ∀ x u, tr.move = .go x (.add u) .called → u.title = t.title →
        a.store.Pending u.asEdit → b.store.Pending u.asEdit) ∧
      ((∃ tr ∈ h, ∃ target, tr.move = .deed (.remove target) ∧ target.name = t.title) →
        (∀ x, x.title = t.title → ¬a.store.Pending x) →
          ∀ x, x.title = t.title → ¬b.store.Pending x) := by
  intro hclaim
  obtain ⟨a₀, a₁, a, b, hreach, hne, hcall, hlater, hresume, hpending, haudience⟩ :=
    exists_late_filing (Tiddler.draft "notes" "two") rfl
  have hboth := hclaim hreach hne rfl rfl hcall (.cons hlater (.nil _)) hresume
    (Store.not_mem_withdrawnSince haudience _)
  have hkept := hboth.1 _ List.mem_cons_self 1 _ rfl rfl hpending
  have hsound := ((hreach.step hcall).step hlater).sound
  have hfate := hresume.fate hsound (by decide) hpending
  exact hfate.kept hkept (.replaces (.placed rfl rfl) (by decide) (by decide))

end Activity

end TiddlerShelf
