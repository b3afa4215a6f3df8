import Mathlib.Data.List.Induction
import TiddlerShelf.Proofs.Quiet

/-! # What becomes of an edit

Each way in which a store changes its edits is a plain change of the modified tier, to file an edit
or to drop one, followed by a quiet one. So the fate of an edit in a named bag follows from the
plain change alone, unless a listener has its title withdrawn. -/

namespace TiddlerShelf.Store

/-- Whether an edit of that content is pending. -/
def Pending (s : Store) (e : Tiddler) : Prop := s.modified.Holds e

/-- The titles that listeners have had withdrawn between two states. -/
def withdrawnSince (s s' : Store) : List String :=
  s'.audience.withdrawn.drop s.audience.withdrawn.length

theorem withdrawnSince_eq {s s' : Store} {titles : List String}
    (h : s'.audience.withdrawn = s.audience.withdrawn ++ titles) :
    s.withdrawnSince s' = titles := by
  rw [withdrawnSince, h, List.drop_left]

theorem mem_withdrawnSince_trans {s s' s'' : Store} {title : String}
    (h : s.audience.withdrawn <+: s'.audience.withdrawn)
    (h' : s'.audience.withdrawn <+: s''.audience.withdrawn) :
    title ∈ s.withdrawnSince s'' ↔ title ∈ s.withdrawnSince s' ∨ title ∈ s'.withdrawnSince s'' := by
  obtain ⟨xs, hxs⟩ := h
  obtain ⟨ys, hys⟩ := h'
  have hall : s''.audience.withdrawn = s.audience.withdrawn ++ (xs ++ ys) := by
    rw [← hys, ← hxs, List.append_assoc]
  rw [withdrawnSince_eq hall, withdrawnSince_eq hxs.symm, withdrawnSince_eq hys.symm,
    List.mem_append]

theorem not_mem_withdrawnSince {s s' : Store} (h : s'.audience = s.audience) (title : String) :
    title ∉ s.withdrawnSince s' := by
  rw [show s.withdrawnSince s' = [] from withdrawnSince_eq (by rw [h, List.append_nil])]
  exact List.not_mem_nil

/-! ## Changes that spare the edits -/

theorem Spares.log {s s' : Store} (h : Spares s s') :
    s.audience.withdrawn <+: s'.audience.withdrawn := by
  obtain ⟨titles, -, hlog⟩ := h.edits
  exact ⟨titles, hlog.symm⟩

theorem Spares.agreeOn {s s' : Store} (h : Spares s s') (hs : s.Sound) {title : String}
    (hnot : title ∉ s.withdrawnSince s') : Tier.AgreeOn title s.modified s'.modified := by
  obtain ⟨titles, htier, hlog⟩ := h.edits
  rw [withdrawnSince_eq hlog] at hnot
  rw [htier]
  exact Tier.agreeOn_withdrawAll hs.modified hnot

theorem Spares.pending_iff {s s' : Store} (h : Spares s s') (hs : s.Sound) {e : Tiddler}
    (hnot : e.title ∉ s.withdrawnSince s') : s'.Pending e ↔ s.Pending e :=
  Tier.holds_iff_of_get?_eq (h.agreeOn hs hnot).get?_key

/-- Such a change brings no edit in. -/
theorem Spares.pending_of {s s' : Store} (h : Spares s s') {e : Tiddler} (he : s'.Pending e) :
    s.Pending e := by
  obtain ⟨titles, htier, -⟩ := h.edits
  obtain ⟨t, ht, hsame⟩ := he
  rw [htier] at ht
  exact ⟨t, Tier.get?_of_get?_withdrawAll ht, hsame⟩

/-! ## Finding an edit -/

/-- What stands for an edit is an entry of its title, under its own key. -/
theorem Sound.of_modifiedCopy? {s : Store} (h : s.Sound) {t edit : Tiddler}
    (hedit : s.modifiedCopy? t = some edit) :
    s.modified.entries.get? edit.key = some edit ∧ edit.title = t.title := by
  unfold modifiedCopy? at hedit
  rcases Option.or_eq_some_iff.1 hedit with hget | ⟨-, hget⟩
  · exact ⟨(h.modified.of_get? hget).1, (h.modified.of_get? hget).2.1⟩
  · exact ⟨(h.modified.of_get? hget).1, (h.modified.of_get? hget).2.1⟩

theorem modifiedCopy?_of_key {s : Store} {t edit : Tiddler}
    (h : s.modified.entries.get? t.key = some edit) : s.modifiedCopy? t = some edit := by
  rw [modifiedCopy?, Tier.get?_of_key h, Option.some_or]

theorem modifiedCopy?_eq_of_agreeOn {s s' : Store} {t : Tiddler}
    (h : Tier.AgreeOn t.title s.modified s'.modified) : s'.modifiedCopy? t = s.modifiedCopy? t := by
  have htitle : s'.modified.get? { title := t.title } = s.modified.get? { title := t.title } :=
    Tier.AgreeOn.get?_eq (w := { title := t.title }) h
  rw [modifiedCopy?, modifiedCopy?, h.get?_eq, htitle]

/-- The entry at the key of a pending edit has its content. -/
theorem Pending.sameAs_of_key {s : Store} {e edit : Tiddler} (he : s.Pending e)
    (hedit : s.modified.entries.get? edit.key = some edit) (hkey : edit.key = e.key) :
    edit.sameAs e := by
  obtain ⟨t, ht, hsame⟩ := he
  rw [← hkey, hedit] at ht
  rwa [Option.some.inj ht]

/-! ## Filing and dropping edits -/

/-- A store without an edit, if one is given, before anything is announced. -/
def dropping (s : Store) : Option Tiddler → Store
  | some edit => s.dropModified edit
  | none => s

theorem Sound.dropping {s : Store} (h : s.Sound) (edit : Option Tiddler) :
    (s.dropping edit).Sound := by
  cases edit with
  | none => exact h
  | some edit => exact h.dropModified edit

theorem pending_withEdit_iff {s : Store} {t e : Tiddler} (he : e.IsBagged) :
    (s.withEdit t).Pending e ↔ t.asEdit.sameAs e ∨ e.key ≠ t.key ∧ s.Pending e := by
  refine Tier.holds_file_iff.trans (or_congr Iff.rfl (and_congr_right fun _ => ?_))
  exact and_iff_right fun hcleared => he.key_ne t.title hcleared.2

theorem pending_withEdit_self (s : Store) (t : Tiddler) : (s.withEdit t).Pending t.asEdit :=
  Tier.holds_of_get? (Tier.get?_file_self s.modified t.asEdit)

theorem pending_dropping_iff {s : Store} {edit : Option Tiddler} {e : Tiddler} :
    (s.dropping edit).Pending e ↔ (∀ d ∈ edit, e.key ≠ d.key) ∧ s.Pending e := by
  cases edit with
  | none =>
    exact ⟨fun h => ⟨fun _ hd => absurd hd (Option.not_mem_none _), h⟩, fun h => h.2⟩
  | some d =>
    constructor
    · intro h
      obtain ⟨hne, hs⟩ := Tier.holds_remove_iff.1 h
      exact ⟨fun _ hd => Option.mem_some.1 hd ▸ hne, hs⟩
    · intro h
      exact Tier.holds_remove_iff.2 ⟨h.1 d rfl, h.2⟩

theorem fst_fileModified {s : Store} (h : s.Sound) (t : Tiddler) :
    (s.fileModified t).1 = t.asEdit :=
  Tier.stamped_modified h.kind_modified s.clock t

theorem quiet_fileModified {s : Store} (h : s.Sound) (t : Tiddler) :
    Quiet (s.withEdit t) (s.fileModified t).2 := by
  have htier : (s.modified.reconcile s.clock t).tier = s.modified.file t.asEdit :=
    congrArg s.modified.file (Tier.stamped_modified h.kind_modified s.clock t)
  unfold withEdit
  rw [← htier]
  exact quiet_announce _ _

/-- A tiddler that has been filed is pending, unless a listener has its title withdrawn. -/
theorem pending_fileModified {s : Store} (h : s.Sound) {t : Tiddler}
    (hnot : t.title ∉ s.withdrawnSince (s.fileModified t).2) :
    (s.fileModified t).2.Pending t.asEdit :=
  ((quiet_fileModified h t).toSpares.pending_iff (e := t.asEdit) (h.withEdit t) hnot).2
    (pending_withEdit_self s t)

theorem Sound.fileModified {s : Store} (h : s.Sound) (t : Tiddler) :
    (s.fileModified t).2.Sound :=
  (quiet_fileModified h t).sound (h.withEdit t)

/-- Dropping on request drops the edit that a lookup finds. -/
theorem quiet_remove (s : Store) (target : Tiddler.Target) :
    Quiet (s.dropping (s.modified.get? target.wanted)) (s.remove target).2 := by
  unfold remove Tier.withdraw
  cases s.modified.get? target.wanted with
  | none => exact .refl s
  | some edit => exact quiet_announce (s.dropModified edit) _

/-- The edit that an acknowledgement drops: what stands for the copy that was sent, if its content
is the one from before the sending. -/
def acknowledged? (s : Store) (before : Option Tiddler) (sent : Tiddler) : Option Tiddler :=
  (s.modifiedCopy? sent).filter fun current => before.any current.sameAs

theorem quiet_acknowledge (s : Store) (before : Option Tiddler) (sent response : Tiddler) :
    Quiet (s.dropping (s.acknowledged? before sent)) (s.acknowledge before sent response).2 := by
  have heq : (s.acknowledge before sent response).2 =
      ((s.dropping (s.acknowledged? before sent)).fileSynced response).2 := by
    unfold acknowledge acknowledged?
    cases s.modifiedCopy? sent with
    | none => rfl
    | some current =>
      dsimp only [Option.filter]
      split <;> rfl
  rw [heq]
  exact quiet_fileSynced _ _

theorem quiet_takeBack {s : Store} (h : s.Sound) (before : Option Tiddler) (sent : Tiddler) :
    Quiet (if s.mustRestore before sent then s.withEdit sent else s) (s.takeBack before sent) := by
  unfold takeBack
  split
  · exact quiet_fileModified h sent
  · exact .refl s

/-- Forgetting a tiddler drops the confirmed copy and what stands for it among the edits, and tells
of it once. -/
theorem forget_eq (s : Store) (t : Tiddler) : s.forget t =
    ((s.dropSynced t).dropping (s.modifiedCopy? t)).announce [.deleted t] := by
  unfold forget
  show (match s.modifiedCopy? t with
    | some edit => (s.dropSynced t).dropModified edit
    | none => s.dropSynced t).announce [.deleted t] = _
  cases s.modifiedCopy? t <;> rfl

theorem quiet_forget (s : Store) (t : Tiddler) :
    Quiet (s.dropping (s.modifiedCopy? t)) (s.forget t) := by
  have hsynced : Quiet (s.dropping (s.modifiedCopy? t))
      ((s.dropSynced t).dropping (s.modifiedCopy? t)) := by
    cases s.modifiedCopy? t with
    | none => exact quiet_dropSynced s t
    | some edit => exact quiet_dropSynced (s.dropModified edit) t
  rw [forget_eq]
  exact hsynced.trans (quiet_announce _ _)

/-- Takes note of the answer to a copy that was sent when the store was in an earlier state. -/
def afterPut (s since : Store) (sent : Tiddler) : Except RemoteError Tiddler → Store
  | .ok response => (s.acknowledge (since.modifiedCopy? sent) sent response).2
  | .error _ => s.takeBack (since.modifiedCopy? sent) sent

/-! ## What all changes keep up -/

/-- Whether a property of stores is kept up by quiet changes, by filing edits of a kind, and by
dropping edits. -/
structure Kept (E : Tiddler → Prop) (P : Store → Prop) : Prop where
  sound : ∀ {s}, P s → s.Sound
  quiet : ∀ {s s'}, P s → s.Quiet s' → P s'
  withEdit : ∀ {s t}, P s → E t → P (s.withEdit t)
  dropping : ∀ {s}, P s → ∀ edit, P (s.dropping edit)

section

variable {E : Tiddler → Prop} {P : Store → Prop} {s : Store}

theorem Kept.fileModified (h : Kept E P) (hs : P s) {t : Tiddler} (ht : E t) :
    P (s.fileModified t).2 :=
  h.quiet (h.withEdit hs ht) (quiet_fileModified (h.sound hs) t)

theorem Kept.remove (h : Kept E P) (hs : P s) (target : Tiddler.Target) : P (s.remove target).2 :=
  h.quiet (h.dropping hs _) (quiet_remove s target)

theorem Kept.forget (h : Kept E P) (hs : P s) (t : Tiddler) : P (s.forget t) :=
  h.quiet (h.dropping hs _) (quiet_forget s t)

theorem Kept.afterPut (h : Kept E P) (hs : P s) (since : Store) {sent : Tiddler} (hsent : E sent)
    (answer : Except RemoteError Tiddler) : P (s.afterPut since sent answer) := by
  cases answer with
  | ok response => exact h.quiet (h.dropping hs _) (quiet_acknowledge s _ sent response)
  | error cause =>
    refine h.quiet ?_ (quiet_takeBack (h.sound hs) _ sent)
    split
    · exact h.withEdit hs hsent
    · exact hs

theorem Kept.retrieveCached (h : Kept E P) (hs : P s)
    (hcached : ∀ t ∈ s.modified.cache.list, E t) : P s.retrieveCached.2 :=
  List.foldlRecOn (motive := P) s.modified.cache.list (fun s t => (s.fileModified t).2) hs
    fun _ hs' t ht => h.fileModified hs' (hcached t ht)

end

/-! ## The fate of an edit -/

/-- What becomes of an edit between two states: in the end it is pending only if `kept` holds, and
if `kept` holds it is pending unless a listener has had its title withdrawn. -/
structure Fate (e : Tiddler) (s s' : Store) (kept : Prop) : Prop where
  log : s.audience.withdrawn <+: s'.audience.withdrawn
  pending : kept → e.title ∉ s.withdrawnSince s' → s'.Pending e
  kept : s'.Pending e → kept

theorem Fate.refl (e : Tiddler) (s : Store) : Fate e s s (s.Pending e) :=
  ⟨List.prefix_rfl, fun h _ => h, id⟩

theorem Fate.congr {e : Tiddler} {s s' : Store} {kept kept' : Prop} (h : Fate e s s' kept)
    (hiff : kept ↔ kept') : Fate e s s' kept' :=
  ⟨h.log, fun hk => h.pending (hiff.2 hk), fun he => hiff.1 (h.kept he)⟩

theorem Fate.spares {e : Tiddler} {s s' s'' : Store} {kept : Prop} (h : Fate e s s' kept)
    (hs : s'.Sound) (hq : s'.Spares s'') : Fate e s s'' kept := by
  refine ⟨h.log.trans hq.log, ?_, fun he => h.kept (hq.pending_of he)⟩
  intro hk hnot
  rw [mem_withdrawnSince_trans h.log hq.log, not_or] at hnot
  exact (hq.pending_iff hs hnot.2).2 (h.pending hk hnot.1)

theorem Fate.fileModified {e : Tiddler} {s s' : Store} {kept : Prop} (h : Fate e s s' kept)
    (hs : s'.Sound) (he : e.IsBagged) (t : Tiddler) :
    Fate e s (s'.fileModified t).2 (t.asEdit.sameAs e ∨ e.key ≠ t.key ∧ kept) := by
  have hfile : Fate e s (s'.withEdit t) (t.asEdit.sameAs e ∨ e.key ≠ t.key ∧ kept) := by
    refine ⟨h.log, ?_, ?_⟩
    · rintro (hsame | ⟨hne, hk⟩) hnot
      · exact (pending_withEdit_iff he).2 (.inl hsame)
      · exact (pending_withEdit_iff he).2 (.inr ⟨hne, h.pending hk hnot⟩)
    · intro hp
      rcases (pending_withEdit_iff he).1 hp with hsame | ⟨hne, hp⟩
      · exact .inl hsame
      · exact .inr ⟨hne, h.kept hp⟩
  exact hfile.spares (hs.withEdit t) (quiet_fileModified hs t).toSpares

theorem Fate.dropping {e : Tiddler} {s s' : Store} {kept : Prop} (h : Fate e s s' kept)
    (edit : Option Tiddler) :
    Fate e s (s'.dropping edit) ((∀ d ∈ edit, e.key ≠ d.key) ∧ kept) := by
  have hlog : (s'.dropping edit).audience = s'.audience := by
    cases edit <;> rfl
  refine ⟨hlog ▸ h.log, ?_, ?_⟩
  · rintro ⟨hne, hk⟩ hnot
    rw [withdrawnSince, hlog] at hnot
    exact pending_dropping_iff.2 ⟨hne, h.pending hk hnot⟩
  · intro hp
    obtain ⟨hne, hp⟩ := pending_dropping_iff.1 hp
    exact ⟨hne, h.kept hp⟩

/-- Whether what stands for a tiddler among the edits has a given content. -/
def StandsFor (s : Store) (e t : Tiddler) : Prop :=
  ∃ edit, s.modifiedCopy? t = some edit ∧ edit.sameAs e

theorem Pending.standsFor {s : Store} {e t : Tiddler} (he : s.Pending e) (hkey : t.key = e.key) :
    s.StandsFor e t := by
  obtain ⟨edit, hedit, hsame⟩ := he
  exact ⟨edit, modifiedCopy?_of_key (hkey ▸ hedit), hsame⟩

/-- Only an edit under its own key stands for a tiddler, if there is one. -/
theorem StandsFor.sameAs {s : Store} {e e' t : Tiddler} (h : s.StandsFor e t) (he : s.Pending e')
    (hkey : t.key = e'.key) : e'.sameAs e := by
  obtain ⟨edit, hedit, hsame⟩ := h
  obtain ⟨edit', hedit', hsame'⟩ := he
  rw [modifiedCopy?_of_key (hkey ▸ hedit')] at hedit
  obtain rfl := Option.some.inj hedit
  exact Tiddler.sameAs_trans (Tiddler.sameAs_symm hsame') hsame

theorem StandsFor.title_eq {s : Store} (h : s.Sound) {e t : Tiddler} (hst : s.StandsFor e t) :
    t.title = e.title := by
  obtain ⟨edit, hedit, hsame⟩ := hst
  rw [← (h.of_modifiedCopy? hedit).2, Tiddler.title_eq_of_sameAs hsame]

/-- Where an edit is pending, it stands for a tiddler exactly if what does so has its key. -/
theorem standsFor_iff {s : Store} (h : s.Sound) {e t : Tiddler} (he : s.Pending e) :
    s.StandsFor e t ↔ ∃ edit, s.modifiedCopy? t = some edit ∧ e.key = edit.key := by
  constructor
  · rintro ⟨edit, hedit, hsame⟩
    exact ⟨edit, hedit, (Tiddler.key_eq_of_sameAs hsame).symm⟩
  · rintro ⟨edit, hedit, hkey⟩
    exact ⟨edit, hedit, he.sameAs_of_key (h.of_modifiedCopy? hedit).1 hkey.symm⟩

theorem fate_forget {s : Store} (h : s.Sound) {e : Tiddler} (he : s.Pending e) (t : Tiddler) :
    Fate e s (s.forget t) (¬s.StandsFor e t) := by
  apply (((Fate.refl e s).dropping _).spares (h.dropping _) (quiet_forget s t).toSpares).congr
  rw [standsFor_iff h he]
  constructor
  · rintro ⟨hne, -⟩ ⟨edit, hedit, hkey⟩
    exact hne edit hedit hkey
  · intro hnot
    exact ⟨fun edit hedit hkey => hnot ⟨edit, hedit, hkey⟩, he⟩

theorem title_wanted (target : Tiddler.Target) : target.wanted.title = target.name := by
  cases target <;> rfl

/-- Dropping on request takes away what a lookup finds, which has the title looked for. -/
theorem fate_remove {s : Store} (h : s.Sound) {e : Tiddler} (target : Tiddler.Target)
    (hne : target.name ≠ e.title) : Fate e s (s.remove target).2 (s.Pending e) := by
  have hdropped := (Fate.refl e s).dropping (s.modified.get? target.wanted)
  apply (hdropped.spares (h.dropping _) (quiet_remove s target).toSpares).congr
  apply and_iff_right
  intro edit hedit hkey
  apply hne
  rw [← title_wanted, ← (h.modified.of_get? hedit).2.1, Tiddler.title_eq_of_key_eq hkey]

/-- An acknowledgement takes an edit away exactly if it stands for the copy that was sent, now and
when that was sent. -/
theorem fate_acknowledge {s : Store} (h : s.Sound) {e : Tiddler} (he : s.Pending e)
    (since : Store) (sent response : Tiddler) :
    Fate e s (s.acknowledge (since.modifiedCopy? sent) sent response).2
      (¬(since.StandsFor e sent ∧ s.StandsFor e sent)) := by
  refine (((Fate.refl e s).dropping _).spares (h.dropping _)
    (quiet_acknowledge s _ sent response).toSpares).congr ?_
  constructor
  · rintro ⟨hne, -⟩ ⟨⟨before, hbefore, hsame'⟩, edit, hedit, hsame⟩
    refine hne edit (Option.filter_eq_some_iff.2 ⟨hedit, ?_⟩)
      (Tiddler.key_eq_of_sameAs hsame).symm
    rw [hbefore]
    exact Tiddler.sameAs_trans hsame (Tiddler.sameAs_symm hsame')
  · intro hnot
    refine ⟨fun edit hedit hkey => hnot ?_, he⟩
    obtain ⟨hget, hany⟩ := Option.filter_eq_some_iff.1 hedit
    obtain ⟨before, hbefore, hsame'⟩ := (Option.any_eq_true _ _).1 hany
    have hsame : edit.sameAs e := he.sameAs_of_key (h.of_modifiedCopy? hget).1 hkey.symm
    exact ⟨⟨before, hbefore, Tiddler.sameAs_trans (Tiddler.sameAs_symm hsame') hsame⟩,
      edit, hget, hsame⟩

/-- A copy that comes back takes an edit away exactly if it has the key of the edit but not its
content, and the edit stood for it already when it was sent. -/
theorem fate_takeBack {s : Store} (h : s.Sound) {e : Tiddler} (hb : e.IsBagged) (he : s.Pending e)
    (since : Store) (sent : Tiddler) :
    Fate e s (s.takeBack (since.modifiedCopy? sent) sent)
      (¬(since.StandsFor e sent ∧ sent.key = e.key ∧ ¬sent.asEdit.sameAs e)) := by
  obtain ⟨edit, hedit, hsame⟩ := id he
  -- Where the keys agree, the edit itself is what the copy is compared with.
  have hmust : sent.key = e.key → s.mustRestore (since.modifiedCopy? sent) sent =
      (!(since.modifiedCopy? sent).any sent.sameAs &&
        (since.modifiedCopy? sent).any edit.sameAs) := by
    intro hkey
    have hcopy : s.modifiedCopy? sent = some edit := modifiedCopy?_of_key (hkey ▸ hedit)
    rw [mustRestore, hcopy]
  unfold takeBack
  by_cases hrestore : s.mustRestore (since.modifiedCopy? sent) sent
  · rw [if_pos hrestore]
    apply ((Fate.refl e s).fileModified h hb sent).congr
    constructor
    · rintro hkept ⟨-, hkey, hne⟩
      rcases hkept with hsent | ⟨hkey', -⟩
      · exact hne hsent
      · exact hkey' hkey.symm
    · intro hnot
      by_cases hkey : sent.key = e.key
      · by_cases hsent : sent.asEdit.sameAs e
        · exact .inl hsent
        · rw [hmust hkey, Bool.and_eq_true] at hrestore
          obtain ⟨before, hbefore, hsame'⟩ := (Option.any_eq_true _ _).1 hrestore.2
          have hstood : before.sameAs e :=
            Tiddler.sameAs_trans (Tiddler.sameAs_symm hsame') hsame
          exact absurd ⟨⟨before, hbefore, hstood⟩, hkey, hsent⟩ hnot
      · exact .inr ⟨fun hk => hkey hk.symm, he⟩
  · rw [if_neg hrestore]
    refine (Fate.refl e s).congr ⟨?_, fun _ => he⟩
    rintro - ⟨⟨before, hbefore, hstood⟩, hkey, hne⟩
    have hsame' : edit.sameAs before := Tiddler.sameAs_trans hsame (Tiddler.sameAs_symm hstood)
    rw [hmust hkey, hbefore] at hrestore
    have hsent : sent.sameAs before := by
      simpa [hsame'] using hrestore
    have hunsynced : sent.isSynced = false := by
      have hstamp := h.modified.stamped hedit
      rw [h.kind_modified] at hstamp
      rw [Tiddler.isSynced, Tiddler.lastSync_eq_of_sameAs hsent,
        ← Tiddler.lastSync_eq_of_sameAs hsame']
      exact hstamp
    rw [Tiddler.asEdit_of_not_synced hunsynced] at hne
    exact hne (Tiddler.sameAs_trans hsent hstood)

/-- Whether the last of some tiddlers with the key of an edit, if there is one, has its content. -/
def Outlasts (e : Tiddler) (ts : List Tiddler) : Prop :=
  ∀ t, ts.reverse.find? (fun t => t.key = e.key) = some t → t.asEdit.sameAs e

theorem outlasts_concat {e t : Tiddler} {ts : List Tiddler} :
    Outlasts e (ts ++ [t]) ↔ t.asEdit.sameAs e ∨ e.key ≠ t.key ∧ Outlasts e ts := by
  unfold Outlasts
  rw [List.reverse_append, List.reverse_singleton, List.singleton_append, List.find?_cons]
  by_cases hkey : t.key = e.key
  · simp [hkey]
  · have hsame : ¬t.asEdit.sameAs e := by
      intro h
      exact hkey ((Tiddler.key_asEdit t).symm.trans (Tiddler.key_eq_of_sameAs h))
    simp [hkey, hsame, Ne.symm hkey]

/-- Filing the tiddlers of the cache takes an edit away exactly if the cache holds something else
under its key. -/
theorem fate_retrieveCached {s : Store} (h : s.Sound) {e : Tiddler} (hb : e.IsBagged)
    (he : s.Pending e) :
    Fate e s s.retrieveCached.2 (Outlasts e s.modified.cache.list) := by
  have hfold : ∀ ts : List Tiddler, (ts.foldl (fun s t => (s.fileModified t).2) s).Sound ∧
      Fate e s (ts.foldl (fun s t => (s.fileModified t).2) s) (Outlasts e ts) := by
    intro ts
    induction ts using List.reverseRecOn with
    | nil => exact ⟨h, (Fate.refl e s).congr (iff_of_true he fun _ ht => nomatch ht)⟩
    | append_singleton ts t ih =>
      rw [List.foldl_append, List.foldl_cons, List.foldl_nil]
      exact ⟨ih.1.fileModified t, (ih.2.fileModified ih.1 hb t).congr outlasts_concat.symm⟩
  exact (hfold _).2

end TiddlerShelf.Store
