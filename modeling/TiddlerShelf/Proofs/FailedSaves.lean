import TiddlerShelf.Proofs.LateFiling

/-! # Saves that fail

A copy that could not be sent goes back among the edits if no edit of its title is pending by then,
or if the one that is has been there since before the sending and the copy is another. Why no edit
is pending makes no difference: an edit that has been dropped in the meantime comes back. -/

namespace TiddlerShelf

open Program

namespace Store

/-- Whether no edit of a title is pending. -/
def Lacks (s : Store) (title : String) : Prop := ∀ x, x.title = title → ¬s.Pending x

/-- Whether what stands for a tiddler is still what stood for it in an earlier state, and the
tiddler itself did not. -/
def Yields (since s : Store) (t : Tiddler) : Prop :=
  (∃ e, since.StandsFor e t ∧ s.StandsFor e t) ∧ ¬since.StandsFor t t

/-- Where nobody listens, dropping on request drops the edit that a lookup finds and does nothing
else. -/
theorem remove_of_silent {s : Store} (h : s.audience.Silent) (target : Tiddler.Target) :
    (s.remove target).2 = s.dropping (s.modified.get? target.wanted) := by
  unfold remove Tier.withdraw
  cases s.modified.get? target.wanted with
  | none => rfl
  | some edit => exact announce_of_silent (s := s.dropModified edit) h _

/-- Nothing stands for a tiddler exactly if no edit of its title is pending. -/
theorem modifiedCopy?_eq_none_iff {s : Store} (h : s.Sound) {t : Tiddler} :
    s.modifiedCopy? t = none ↔ s.Lacks t.title := by
  constructor
  · rintro hnone x htitle ⟨edit, hedit, hsame⟩
    rw [← Tiddler.key_eq_of_sameAs hsame] at hedit
    have hfound := h.modified.isSome_get? (w := { title := t.title }) hedit rfl
      ((Tiddler.title_eq_of_sameAs hsame).trans htitle)
    rw [(Option.or_eq_none_iff.1 hnone).2] at hfound
    contradiction
  · intro hlacks
    cases hcopy : s.modifiedCopy? t with
    | none => rfl
    | some edit =>
      obtain ⟨hedit, htitle⟩ := h.of_modifiedCopy? hcopy
      exact absurd (Tier.holds_of_get? hedit) (hlacks edit htitle)

/-- Filing an edit and dropping it again leaves no edit of the title where there was none before. -/
theorem Lacks.dropping_withEdit {s : Store} {t : Tiddler} (h : s.Lacks t.title) :
    ((s.withEdit t).dropping (some t.asEdit)).Lacks t.title := by
  intro x htitle hx
  obtain ⟨hkey, hx⟩ := pending_dropping_iff.1 hx
  rcases Tier.holds_file_iff.1 hx with hsame | ⟨-, -, hold⟩
  · exact hkey _ rfl (Tiddler.key_eq_of_sameAs hsame).symm
  · exact h x htitle hold

theorem lacks_fresh (config : Config) (clock : Instant) (defaults : Option Defaults)
    (cache : Cache) (title : String) : (fresh config clock defaults cache).Lacks title := by
  rintro x - ⟨edit, hedit, -⟩
  cases hedit

/-- When a copy that could not be sent belongs among the edits again. -/
theorem mustRestore_iff {s : Store} (h : s.Sound) {since : Store} {t : Tiddler} :
    s.mustRestore (since.modifiedCopy? t) t = true ↔ s.Lacks t.title ∨ since.Yields s t := by
  rw [← modifiedCopy?_eq_none_iff h]
  unfold mustRestore Yields StandsFor
  cases s.modifiedCopy? t with
  | none => simp
  | some current =>
    cases since.modifiedCopy? t with
    | none => simp
    | some before =>
      have hstill : current.sameAs before = true ↔
          ∃ e, before.sameAs e = true ∧ current.sameAs e = true := by
        constructor
        · intro hsame
          exact ⟨before, before.sameAs_refl, hsame⟩
        · rintro ⟨e, hbefore, hcurrent⟩
          exact Tiddler.sameAs_trans hcurrent (Tiddler.sameAs_symm hbefore)
      simp [hstill, Tiddler.sameAs_comm t before, and_comm]

/-- What is pending of a title after a copy of it could not be sent. -/
theorem pending_takeBack_iff {s : Store} (h : s.Sound) {since : Store} {t x : Tiddler}
    (hnot : x.title ∉ s.withdrawnSince (s.takeBack (since.modifiedCopy? t) t)) :
    (s.takeBack (since.modifiedCopy? t) t).Pending x ↔
      (s.Lacks t.title ∨ since.Yields s t) ∧ (t.asEdit.sameAs x ∨
        x.key ≠ t.key ∧ ¬(t.bag.isSome ∧ x.key = Key.ofNames "" t.title) ∧ s.Pending x) ∨
      ¬(s.Lacks t.title ∨ since.Yields s t) ∧ s.Pending x := by
  rw [← mustRestore_iff h]
  unfold takeBack at hnot ⊢
  by_cases hrestore : s.mustRestore (since.modifiedCopy? t) t = true
  · rw [if_pos hrestore] at hnot ⊢
    rw [pending_fileModified_iff h hnot]
    simp [hrestore]
  · rw [if_neg hrestore]
    simp [hrestore]

end Store

/-- What a call does when a copy could not be sent: it takes that back, and is quiet from there
on. -/
theorem Call.quiet_of_failed_put {c : Call} {since s₀ s : Store} {t : Tiddler} {cause : RemoteError}
    {halt : Halt} (h : c.Edits (.answered since (.put t) (.error cause)) s₀ s halt) :
    (s₀.takeBack (since.modifiedCopy? t) t).Quiet s := by
  have hsaved : Call.Saved (.answered since (.put t) (.error cause)) s₀ s →
      (s₀.takeBack (since.modifiedCopy? t) t).Quiet s := by
    rintro ⟨⟩
    assumption
  have hread : ¬Call.Read (.answered since (.put t) (.error cause)) s₀ s := by
    intro h
    cases h with
    | answered hr _ => exact hr
  cases c with
  | save target => exact hsaved h.saved
  | saveAll => exact hsaved h.1
  | saveCollection c => exact hsaved h.1
  | add u => cases h
  | addToCollection c u => cases h
  | destroy target => cases h
  | getDefaults => exact absurd h.1 hread
  | get target options => exact absurd h.1 hread
  | refresh => exact absurd h.1 hread
  | search query => exact absurd h.1 hread

namespace Activity

/-- What is pending of a title after the step in which the server has failed to store a copy. -/
theorem Step.pending_of_failed_put {a b : Activity} {id : TaskId} {c : Call} {since : Store}
    {t : Tiddler} {cause : RemoteError}
    (h : Step a (.go id c (.answered since (.put t) (.error cause))) b) (ha : a.Sound)
    {x : Tiddler} (hnot : x.title ∉ a.store.withdrawnSince b.store) :
    b.store.Pending x ↔ (a.store.Lacks t.title ∨ since.Yields a.store t) ∧ (t.asEdit.sameAs x ∨
        x.key ≠ t.key ∧ ¬(t.bag.isSome ∧ x.key = Key.ofNames "" t.title) ∧ a.store.Pending x) ∨
      ¬(a.store.Lacks t.title ∨ since.Yields a.store t) ∧ a.store.Pending x := by
  obtain ⟨s₀, s, halt, hedits, ⟨resolver, hbefore, hresolver⟩, ⟨resolver', hafter, -⟩, -⟩ :=
    h.went ha
  obtain rfl : s₀ = a.store := by
    rw [hbefore, hresolver fun _ => nofun]
    rfl
  have hquiet := Call.quiet_of_failed_put hedits
  have hsteady := ha.store.steady.afterPut since t (.error cause)
  rw [hafter] at hnot ⊢
  have hnot' := (Store.mem_withdrawnSince_trans hsteady.log hquiet.toSpares.log).not.1 hnot
  rw [not_or] at hnot'
  exact (hquiet.toSpares.pending_iff hsteady.sound hnot'.2).trans
    (Store.pending_takeBack_iff ha.store hnot'.1)

/-- When a save fails and no edit of the title is pending by then, what was sent is pending
afterwards and nothing else is. Where an edit is pending, it gives way to what was sent if it has
been there since before the sending and that is another, and it stays as it is otherwise. -/
theorem pending_after_failed_put {a b : Activity} {id : TaskId} {c : Call} {since : Store}
    {t : Tiddler} {cause : RemoteError} (ha : a.Reachable)
    (h : Step a (.go id c (.answered since (.put t) (.error cause))) b)
    (hnot : t.title ∉ a.store.withdrawnSince b.store) :
    (a.store.Lacks t.title →
      ∀ x, x.title = t.title → (b.store.Pending x ↔ t.asEdit.sameAs x)) ∧
    (since.Yields a.store t → ∀ x, x.title = t.title →
      (b.store.Pending x ↔ t.asEdit.sameAs x ∨ x.key ≠ t.key ∧
        ¬(t.bag.isSome ∧ x.key = Key.ofNames "" t.title) ∧ a.store.Pending x)) ∧
    (¬a.store.Lacks t.title → ¬since.Yields a.store t →
      ∀ x, x.title = t.title → (b.store.Pending x ↔ a.store.Pending x)) := by
  refine ⟨?_, ?_, ?_⟩
  · intro hlacks x hx
    rw [h.pending_of_failed_put ha.sound (hx ▸ hnot)]
    simp [hlacks, hlacks x hx]
  · intro hyields x hx
    rw [h.pending_of_failed_put ha.sound (hx ▸ hnot)]
    simp [hyields]
  · intro hlacks hyields x hx
    rw [h.pending_of_failed_put ha.sound (hx ▸ hnot)]
    simp [hlacks, hyields]

/-- What drops the edit of a title: a removal, a deletion, or the answer that a copy of it is
stored. -/
inductive Discards (title : String) : Move → Prop
  | removed {target : Tiddler.Target} (h : target.name = title) :
    Discards title (.deed (.remove target))
  | deleted {id : TaskId} {target : Tiddler.Target} {k : Cause} (h : target.name = title) :
    Discards title (.go id (.destroy target) k)
  | stored {id : TaskId} {c : Call} {since : Store} {t response : Tiddler} (h : t.title = title) :
    Discards title (.go id c (.answered since (.put t) (.ok response)))

/-- A run in which the edit of the title "T" is removed while it is saved, and the save fails. -/
theorem exists_failed_save (cause : RemoteError) :
    ∃ (a₀ a₁ a b : Activity) (next : _), a₀.Reachable ∧
      Step a₀ (.go 1 (.save (.title "T")) .called) a₁ ∧
      a₁.tasks 1 = some ⟨.save (.title "T"), .asking (.put (.draft "notes" "one")) a₀.store next⟩ ∧
      a₀.store.Pending (.draft "notes" "one") ∧ a₁.store.Pending (.draft "notes" "one") ∧
      Step a₁ (.deed (.remove (.title "T"))) a ∧ a.store.Lacks "T" ∧
      Step a (.go 1 (.save (.title "T"))
        (.answered a₀.store (.put (.draft "notes" "one")) (.error cause))) b ∧
      b.store.audience = a.store.audience := by
  let draft := Tiddler.draft "notes" "one"
  let a₀ := (start {} ⟨0, 0⟩ (some (.single (.bag "notes"))) .none).added draft
  have hsilent : a₀.store.audience.Silent := Audience.silent_empty
  have hreach : a₀.Reachable := (Reachable.start _ _ _ _).added Audience.silent_empty rfl
  have hpending : a₀.store.Pending draft := Store.pending_withEdit_self _ draft
  have hfound : a₀.store.modified.get? { title := "T" } = some draft := by decide +kernel
  have hdropped : (a₀.store.dropping (some draft)).Lacks "T" :=
    (Store.lacks_fresh _ _ _ _ "T").dropping_withEdit (t := draft)
  have hstore := Store.remove_of_silent hsilent (.title "T")
  rw [show (Tiddler.Target.title "T").wanted = { title := "T" } from rfl, hfound] at hstore
  obtain ⟨next, hask⟩ := exists_step_asked (proceed_save (.title "T") hfound rfl)
  have hfresh : a₀.fresh = 1 := rfl
  generalize a₀ = a₀ at *
  let a₁ := a₀.asked (.save (.title "T")) (.put draft) next
  let a : Activity := { a₁ with store := (a₁.store.remove (.title "T")).2 }
  rw [hfresh] at hask
  have hremove : Step a₁ (.deed (.remove (.title "T"))) a := .deed _
  have htask : a₁.tasks 1 = some ⟨.save (.title "T"), .asking (.put draft) a₀.store next⟩ := by
    show Function.update a₀.tasks a₀.fresh _ 1 = _
    rw [hfresh, Function.update_self]
  have hanswer : Step a _ _ := .answer (a := a) htask (.error cause)
  have hsound := ((hreach.step hask).step hremove).sound
  have hstore' : a.store = a₀.store.dropping (some draft) := hstore
  have haudience := hanswer.audience_of_go hsound (hstore' ▸ hsilent)
  exact ⟨a₀, a₁, a, _, next, hreach, hask, htask, hpending, hpending, hremove, hstore' ▸ hdropped,
    hanswer, haudience⟩

/-- The edit that was removed is pending again after the save of it has failed. -/
theorem removed_edit_returns_after_failed_save :
    ∃ (a b : Activity) (since : Store) (t : Tiddler), a.Reachable ∧ a.store.Lacks t.title ∧
      Step a (.go 1 (.save (.title "T"))
        (.answered since (.put t) (.error (.transport "down")))) b ∧ b.store.Pending t := by
  obtain ⟨a₀, a₁, a, b, next, hreach, hask, htask, -, -, hremove, hlacks, hanswer, haudience⟩ :=
    exists_failed_save (.transport "down")
  have ha := (hreach.step hask).step hremove
  have hreturns := (pending_after_failed_put ha hanswer
    (Store.not_mem_withdrawnSince haudience _)).1 hlacks
  exact ⟨a, b, a₀.store, .draft "notes" "one", ha, hlacks, hanswer,
    (hreturns _ rfl).2 (Tiddler.sameAs_refl _)⟩

/-- A copy that is dropped while it is sent need not stay away when the sending fails. -/
theorem dropped_edit_returns :
    ¬∀ {a₀ a₁ a₂ a₃ a b : Activity} {h₁ h₂ : List Transition} {id : TaskId} {c : Call} {k : Cause}
      {m : Move} {since : Store} {t edit : Tiddler}
      {next : Except RemoteError Tiddler → Program Call.Outcome} {cause : RemoteError},
      a₀.Reachable → c.Saves → Step a₀ (.go id c k) a₁ →
      a₁.tasks id = some ⟨c, .asking (.put t) since next⟩ → edit.title = t.title →
      since.Pending edit → Run a₁ h₁ a₂ → a₂.store.Pending edit → Step a₂ m a₃ →
      Discards t.title m → ¬a₃.store.Pending edit → Run a₃ h₂ a →
      (∀ tr ∈ h₂, ∀ x c k u, tr.move = .go x c k → c.added? = some u → u.title ≠ t.title) →
      a.store.Lacks t.title → Step a (.go id c (.answered since (.put t) (.error cause))) b →
      t.title ∉ a.store.withdrawnSince b.store → b.store.Lacks t.title := by
  intro hclaim
  obtain ⟨a₀, a₁, a, b, next, hreach, hask, htask, hpending, hpending₁, hremove, hlacks, hanswer,
    haudience⟩ := exists_failed_save (.transport "down")
  have hnot := Store.not_mem_withdrawnSince haudience "T"
  have hstays := hclaim (c := .save (.title "T")) hreach trivial hask htask rfl hpending (.nil a₁)
    hpending₁ hremove (.removed rfl) (hlacks _ rfl) (.nil a)
    (fun _ htr => absurd htr List.not_mem_nil) hlacks hanswer hnot
  have hsound := ((hreach.step hask).step hremove).sound
  exact hstays (.draft "notes" "one") rfl ((hanswer.pending_of_failed_put hsound hnot).2
    (.inl ⟨.inl hlacks, .inl (Tiddler.sameAs_refl _)⟩))

end Activity

end TiddlerShelf
