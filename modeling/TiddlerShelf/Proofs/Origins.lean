import TiddlerShelf.Proofs.Fates

/-! # Where edits come from

Whatever is among the edits after a stretch of work was there before, or the stretch has filed it,
or it is a copy that could not be sent (`Call.editsFrom`). -/

namespace TiddlerShelf

open Program

namespace Store

/-- Whether every edit after a change was there before or is of some kind. -/
def EditsFrom (P : Tiddler → Prop) (s s' : Store) : Prop :=
  ∀ k t, s'.modified.entries.get? k = some t → s.modified.entries.get? k = some t ∨ P t

variable {P : Tiddler → Prop} {s s' s'' : Store}

theorem EditsFrom.refl (P : Tiddler → Prop) (s : Store) : EditsFrom P s s := fun _ _ h => .inl h

theorem EditsFrom.spares (h : EditsFrom P s s') (h' : s'.Spares s'') : EditsFrom P s s'' := by
  intro k t ht
  obtain ⟨titles, htier, -⟩ := h'.edits
  rw [htier] at ht
  exact h k t (Tier.get?_of_get?_withdrawAll ht)

theorem EditsFrom.dropping (h : EditsFrom P s s') (edit : Option Tiddler) :
    EditsFrom P s (s'.dropping edit) := by
  intro k t ht
  cases edit with
  | none => exact h k t ht
  | some edit => exact h k t (Tier.get?_of_get?_remove ht)

theorem EditsFrom.withEdit (h : EditsFrom P s s') {t : Tiddler} (ht : P t.asEdit) :
    EditsFrom P s (s'.withEdit t) := by
  intro k u hu
  have hget := (Tier.get?_file s'.modified t.asEdit k).symm.trans hu
  split at hget
  · obtain rfl := Option.some.inj hget
    exact .inr ht
  · split at hget
    · contradiction
    · exact h k u hget

theorem EditsFrom.fileModified (h : EditsFrom P s s') (hs : s'.Sound) {t : Tiddler}
    (ht : P t.asEdit) : EditsFrom P s (s'.fileModified t).2 :=
  (h.withEdit ht).spares (quiet_fileModified hs t).toSpares

theorem EditsFrom.forget (h : EditsFrom P s s') (t : Tiddler) : EditsFrom P s (s'.forget t) :=
  (h.dropping _).spares (quiet_forget s' t).toSpares

/-- The answer to a copy that was sent brings in nothing but that copy, and only if it could not be
stored. -/
theorem EditsFrom.afterPut (h : EditsFrom P s s') (hs : s'.Sound) {since : Store} {t : Tiddler}
    {answer : Except RemoteError Tiddler} (ht : ∀ cause, answer = .error cause → P t.asEdit) :
    EditsFrom P s (s'.afterPut since t answer) := by
  cases answer with
  | ok response => exact (h.dropping _).spares (quiet_acknowledge s' _ t response).toSpares
  | error cause =>
    refine EditsFrom.spares ?_ (quiet_takeBack hs _ t).toSpares
    split
    · exact h.withEdit (ht cause rfl)
    · exact h

end Store

namespace Call

/-- What a stretch of a call may bring among the edits. -/
inductive Brings (c : Call) (k : Cause) (resolver : Resolver) : Tiddler → Prop
  | files {t : Tiddler} (h : c.Files k resolver t) : Brings c k resolver t.asEdit
  | comesBack {since : Store} {t : Tiddler} {cause : RemoteError}
    (h : k = .answered since (.put t) (.error cause)) : Brings c k resolver t.asEdit

theorem editsFrom_of_saved {c : Call} {k : Cause} {s₀ s : Store} (h : Saved k s₀ s)
    (hs : s₀.Sound) : s₀.EditsFrom (c.Brings k s₀.resolver) s := by
  have hself := Store.EditsFrom.refl (c.Brings k s₀.resolver) s₀
  cases h with
  | called h => exact hself.spares h.toSpares
  | resolved h => exact hself.spares h.toSpares
  | @answered _ _ since t answer h =>
    refine (hself.afterPut hs fun cause hcause => ?_).spares h.toSpares
    subst hcause
    exact .comesBack rfl

theorem editsFrom_of_addEdits {c : Call} {t : Tiddler} {k : Cause} {s₀ s : Store} {halt : Halt}
    (hc : c.added? = some t) (h : AddEdits t k s₀ s halt) (hs : s₀.Sound) :
    s₀.EditsFrom (c.Brings k s₀.resolver) s := by
  have hgiven : (Cause.called = k) →
      s₀.EditsFrom (c.Brings k s₀.resolver) (s₀.fileModified t).2 := by
    rintro rfl
    exact (Store.EditsFrom.refl _ s₀).fileModified hs (.files (.given hc))
  cases h with
  | files _ => exact hgiven rfl
  | filesAndWaits _ _ => exact hgiven rfl
  | @filesAndPlaces _ d hbag hd =>
    have hmoved := Store.quiet_moveTo (s₀.fileModified t).2 d.pullFrom
    apply ((hgiven rfl).spares hmoved.toSpares).fileModified (hmoved.sound (hs.fileModified t))
    rw [hd]
    exact .files (.placedAtOnce hc hbag)
  | @places _ d hbag =>
    have hmoved := Store.quiet_moveTo s₀ d.pullFrom
    apply ((Store.EditsFrom.refl _ s₀).spares hmoved.toSpares).fileModified (hmoved.sound hs)
    exact .files (.placed hc hbag)
  | fails _ => exact .refl _ s₀

/-- What is among the edits after a stretch of a call was there before, or the stretch has brought
it. -/
theorem editsFrom {c : Call} {k : Cause} {s₀ s : Store} {halt : Halt} (h : c.Edits k s₀ s halt)
    (hs : s₀.Sound) : s₀.EditsFrom (c.Brings k s₀.resolver) s := by
  have hself := Store.EditsFrom.refl (c.Brings k s₀.resolver) s₀
  have hread : within Read Request.IsRead k s₀ s halt →
      s₀.EditsFrom (c.Brings k s₀.resolver) s := by
    rintro ⟨h, -⟩
    cases h with
    | called h => exact hself.spares h.toSpares
    | resolved h => exact hself.spares h.toSpares
    | answered _ h => exact hself.spares h.toSpares
  cases c with
  | add t => exact editsFrom_of_addEdits rfl h hs
  | addToCollection c t => exact editsFrom_of_addEdits rfl h hs
  | save target => exact editsFrom_of_saved h.saved hs
  | saveAll => exact editsFrom_of_saved h.1 hs
  | saveCollection c => exact editsFrom_of_saved h.1 hs
  | destroy target =>
    cases h with
    | asks _ => exact hself
    | forgets _ _ => exact hself.forget _
    | nothing _ _ => exact hself
    | deleted _ => exact hself.forget _
    | fails => exact hself
  | getDefaults => exact hread h
  | get target options => exact hread h
  | refresh => exact hread h
  | search query => exact hread h

end Call

end TiddlerShelf
