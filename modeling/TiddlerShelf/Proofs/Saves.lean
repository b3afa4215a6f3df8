import Mathlib.Data.List.Perm.Subperm
import Mathlib.Data.Set.List
import TiddlerShelf.Proofs.Course
import TiddlerShelf.Proofs.FailedSaves
import TiddlerShelf.Proofs.Served

/-! # Saves in one go

A save that nothing disturbs sends one copy, at once if it is known where to, and looks at the edits
right before it is answered. So when the server cannot store the copy, what was sent is among the
edits afterwards, wherever it came from, and other edits are left alone. When all edits are saved
and the server stores each copy, each answer takes away an edit of the title that was sent, which
leaves none in the end. -/

namespace TiddlerShelf

open Program

/-- A tiddler as it is sent where the defaults are known. -/
def Tiddler.placedBy (t : Tiddler) (d : Defaults) : Tiddler :=
  if t.hasContainer then t else t.placeIn d.pushTo

@[simp] theorem Tiddler.title_placedBy (t : Tiddler) (d : Defaults) :
    (t.placedBy d).title = t.title := by
  unfold placedBy
  split
  · rfl
  · exact t.title_placeIn d.pushTo

namespace Keyed

variable {κ α : Type} [DecidableEq κ]

/-- What stands under a key and what stands under the others is all there is. -/
theorem values_perm_erase {t : Keyed κ α} {k : κ} {a : α} (h : t.get? k = some a) :
    t.values.Perm (a :: (t.erase k).values) := by
  obtain ⟨es, hnodup⟩ := t
  show (es.map Prod.snd).Perm (a :: (es.filter fun e => e.1 ≠ k).map Prod.snd)
  replace h : lookup k es = some a := h
  induction es with
  | nil => contradiction
  | cons e es ih =>
    obtain ⟨k', b⟩ := e
    obtain ⟨hfirst, hrest⟩ := List.nodup_cons.1 hnodup
    by_cases hk : k' = k
    · have hothers : (es.filter fun e => e.1 ≠ k) = es := by
        apply List.filter_eq_self.2
        intro e he
        have hne : e.1 ≠ k := fun heq => hfirst (List.mem_map.2 ⟨e, he, heq.trans hk.symm⟩)
        simp [hne]
      obtain rfl : b = a := by simpa [lookup, hk] using h
      rw [List.filter_cons_of_neg (by simp [hk]), hothers]
      rfl
    · have hperm := ih hrest (by simpa [lookup, hk] using h)
      simpa [hk] using (hperm.cons b).trans (.swap a b _)

end Keyed

namespace Tier

theorem tiddlers_remove_sublist (tier : Tier) (t : Tiddler) :
    (tier.remove t).tiddlers.Sublist tier.tiddlers :=
  List.filter_sublist.map Prod.snd

theorem tiddlers_withdrawAll_sublist (tier : Tier) (titles : List String) :
    (tier.withdrawAll titles).tiddlers.Sublist tier.tiddlers := by
  induction titles generalizing tier with
  | nil => exact .refl _
  | cons title titles ih =>
    have hfirst : (tier.withdraw { title }).1.tiddlers.Sublist tier.tiddlers := by
      unfold withdraw
      split
      · exact tier.tiddlers_remove_sublist _
      · exact .refl _
    exact (ih _).trans hfirst

end Tier

namespace Store

variable {s s' : Store} {t : Tiddler}

/-! ## One save -/

/-- What the save of a copy gives when the server answers: the server's copy as it is filed, or why
the copy could not be stored. -/
def saved (s : Store) (t : Tiddler) : Except RemoteError Tiddler → Except StoreError Tiddler
  | .ok response => .ok (s.synced.stamped s.clock response)
  | .error cause => .error (.save t.title cause)

theorem fst_acknowledge (s : Store) (before : Option Tiddler) (t response : Tiddler) :
    (s.acknowledge before t response).1 = s.synced.stamped s.clock response := by
  unfold acknowledge
  cases s.modifiedCopy? t with
  | none => rfl
  | some current =>
    dsimp only
    split <;> rfl

/-- What a save gives depends on the kind of the confirmed copies and on the clock alone. -/
theorem saved_congr (hkind : s'.synced.kind = s.synced.kind) (hclock : s'.clock = s.clock) :
    s'.saved = s.saved := by
  funext t answer
  cases answer with
  | ok response =>
    have hstamped : s'.synced.stamped s'.clock response = s.synced.stamped s.clock response := by
      rw [hclock, Tier.stamped_of_kind_eq hkind]
    exact congrArg Except.ok hstamped
  | error cause => rfl

theorem synced_takeBack (s : Store) (before : Option Tiddler) (t : Tiddler) :
    (s.takeBack before t).synced = s.synced := by
  unfold takeBack
  split <;> rfl

section

variable {σ : Type} (remote : Remote σ)

/-- A copy is sent once, and the store takes note of the answer. -/
theorem served_send (t : Tiddler) (s : Store) (w : σ) :
    (send t).served remote s w = some
      { result := s.saved t (remote (.put t) w).1
        store := s.afterPut s t (remote (.put t) w).1
        remote := (remote (.put t) w).2
        exchanged := [⟨.put t, (remote (.put t) w).1⟩] } := by
  unfold send
  rw [served_store, served_request]
  cases (remote (.put t) w).1 with
  | ok response =>
    rw [saved, ← s.fst_acknowledge (s.modifiedCopy? t) t response]
    rfl
  | error cause => rfl

/-- Before a copy is sent, the store comes to know the place if need be. That leaves the edits
alone, but for those that listeners have withdrawn, and the confirmed copies as they are. -/
theorem exists_served_placed {d : Defaults} (h : t.hasContainer ∨ s.resolver = .resolved d)
    (w : σ) : ∃ s', s.Quiet s' ∧ s'.synced = s.synced ∧ s'.clock = s.clock ∧
      (placed t).served remote s w = some ⟨.ok (t.placedBy d), s', w, []⟩ := by
  unfold placed Tiddler.placedBy
  by_cases hc : t.hasContainer
  · refine ⟨s, .refl s, rfl, rfl, ?_⟩
    rw [if_pos hc, if_pos hc]
    rfl
  · have hd : s.resolver = .resolved d := h.resolve_left hc
    obtain ⟨hsynced, hclock⟩ := s.synced_moveTo d.pullFrom
    refine ⟨s.moveTo d.pullFrom, quiet_moveTo s d.pullFrom, hsynced, hclock, ?_⟩
    rw [if_neg hc, if_neg hc]
    show (getDefaults >>= _).served remote s w = _
    rw [getDefaults, Program.resolved]
    show (Program.resolve _).served remote s w = _
    rw [served, hd]
    rfl

/-- A save sends one copy, if it is known where to. -/
theorem exists_served_saveTiddler {d : Defaults} (h : t.hasContainer ∨ s.resolver = .resolved d)
    (w : σ) :
    let answer := (remote (.put (t.placedBy d)) w).1
    ∃ s', s.Quiet s' ∧ s'.synced = s.synced ∧ s'.clock = s.clock ∧
      (saveTiddler t).served remote s w = some
        { result := s.saved (t.placedBy d) answer
          store := s'.afterPut s' (t.placedBy d) answer
          remote := (remote (.put (t.placedBy d)) w).2
          exchanged := [⟨.put (t.placedBy d), answer⟩] } := by
  obtain ⟨s', hquiet, hsynced, hclock, hplaced⟩ := exists_served_placed remote h w
  refine ⟨s', hquiet, hsynced, hclock, ?_⟩
  have hsaved : s'.saved = s.saved := saved_congr (congrArg Tier.kind hsynced) hclock
  rw [saveTiddler, served_bind, hplaced, ← hsaved]
  show Option.map _ ((send (t.placedBy d)).served remote s' w) = _
  rw [served_send]
  rfl

end

/-! ## When the copy could not be stored -/

/-- An edit that stands for itself is pending as it is, without a stamp. -/
theorem Sound.pending_of_standsFor_self (h : s.Sound) (hst : s.StandsFor t t) :
    s.Pending t.asEdit := by
  obtain ⟨edit, hedit, hsame⟩ := hst
  have hget := (h.of_modifiedCopy? hedit).1
  have hunsynced : t.isSynced = false := by
    have hstamp := h.modified.stamped hget
    rw [h.kind_modified] at hstamp
    rw [Tiddler.isSynced, ← Tiddler.lastSync_eq_of_sameAs hsame]
    exact hstamp
  rw [Tiddler.asEdit_of_not_synced hunsynced]
  exact ⟨edit, (Tiddler.key_eq_of_sameAs hsame) ▸ hget, hsame⟩

/-- Where nothing has happened since a copy was sent, it is among the edits when it is taken back:
either it is filed, or it has been there all along. -/
theorem pending_takeBack (h : s.Sound)
    (hnot : t.title ∉ s.withdrawnSince (s.takeBack (s.modifiedCopy? t) t)) :
    (s.takeBack (s.modifiedCopy? t) t).Pending t.asEdit := by
  by_cases hrestore : s.mustRestore (s.modifiedCopy? t) t = true
  · unfold takeBack at hnot ⊢
    rw [if_pos hrestore] at hnot ⊢
    exact pending_fileModified h hnot
  · have hkept : ¬(s.Lacks t.title ∨ s.Yields s t) := fun hk => hrestore ((mustRestore_iff h).2 hk)
    rw [takeBack, if_neg hrestore]
    apply h.pending_of_standsFor_self
    by_contra hst
    apply hkept
    cases hcopy : s.modifiedCopy? t with
    | none => exact .inl ((modifiedCopy?_eq_none_iff h).1 hcopy)
    | some edit =>
      have hstands : s.StandsFor edit t := ⟨edit, hcopy, edit.sameAs_refl⟩
      exact .inr ⟨⟨edit, hstands, hstands⟩, hst⟩

/-- Taking a copy back leaves alone what is pending of other titles, and of its own title in other
bags that have a name. -/
theorem get?_takeBack (h : s.Sound) (before : Option Tiddler) {bag title : String}
    (hne : title ≠ t.title ∨ bag ≠ "" ∧ bag ≠ t.bagName.getD "")
    (hnot : title ∉ s.withdrawnSince (s.takeBack before t)) :
    (s.takeBack before t).modified.entries.get? (Key.ofNames bag title) =
      s.modified.entries.get? (Key.ofNames bag title) := by
  have hquiet := quiet_takeBack h before t
  by_cases hrestore : s.mustRestore before t = true
  · rw [if_pos hrestore] at hquiet
    have helsewhere : ∀ place, place = "" ∨ place = t.bagName.getD "" →
        Key.ofNames bag title ≠ Key.ofNames place t.title := by
      intro place hplace hk
      obtain ⟨hbag, htitle⟩ := Key.ofNames_inj.1 hk
      rcases hne with hne | ⟨hunnamed, hother⟩
      · exact hne htitle
      · rcases hplace with rfl | rfl
        · exact hunnamed hbag
        · exact hother hbag
    have hkey : Key.ofNames bag title ≠ t.asEdit.key := helsewhere _ (.inr rfl)
    have hclear : ¬(t.asEdit.bag.isSome ∧ Key.ofNames bag title = Key.ofNames "" t.asEdit.title) :=
      fun h => helsewhere "" (.inl rfl) h.2
    rw [(hquiet.toSpares.agreeOn (h.withEdit t) hnot).entries bag]
    show (s.modified.file t.asEdit).entries.get? _ = _
    rw [Tier.get?_file, if_neg hkey, if_neg hclear]
  · rw [takeBack, if_neg hrestore]

/-! ## Saving all edits -/

/-- The titles of which edits are pending, as often as there are edits. -/
def pendingTitles (s : Store) : List String := s.pending.map Tiddler.title

theorem Spares.pendingTitles_sublist (h : s.Spares s') :
    s'.pendingTitles.Sublist s.pendingTitles := by
  obtain ⟨titles, htier, -⟩ := h.edits
  apply List.Sublist.map
  unfold pending
  rw [htier]
  exact s.modified.tiddlers_withdrawAll_sublist titles

theorem Lacks.not_mem_pendingTitles (h : s.Sound) {title : String} (hlacks : s.Lacks title) :
    title ∉ s.pendingTitles := by
  intro hmem
  obtain ⟨e, he, htitle⟩ := List.mem_map.1 hmem
  exact hlacks e htitle (Tier.holds_of_get? (h.modified.mem_tiddlers_iff.1 he))

/-- Dropping what stands for a tiddler takes its title away once, if it is there at all. -/
theorem pendingTitles_dropping (h : s.Sound) (t : Tiddler) :
    (s.dropping (s.modifiedCopy? t)).pendingTitles.Subperm (s.pendingTitles.erase t.title) := by
  cases hcopy : s.modifiedCopy? t with
  | none =>
    have hlacks := (modifiedCopy?_eq_none_iff h).1 hcopy
    rw [List.erase_of_not_mem (hlacks.not_mem_pendingTitles h)]
    exact .refl _
  | some edit =>
    obtain ⟨hedit, htitle⟩ := h.of_modifiedCopy? hcopy
    have hperm : s.pendingTitles.Perm (edit.title :: (s.dropModified edit).pendingTitles) :=
      (Keyed.values_perm_erase hedit).map Tiddler.title
    have hrest := hperm.erase t.title
    rw [htitle, List.erase_cons_head] at hrest
    exact hrest.symm.subperm

/-- Where nothing has happened since a copy was sent, the answer drops what stands for it. -/
theorem acknowledged?_self (s : Store) (t : Tiddler) :
    s.acknowledged? (s.modifiedCopy? t) t = s.modifiedCopy? t := by
  unfold acknowledged?
  cases s.modifiedCopy? t with
  | none => rfl
  | some edit => exact if_pos edit.sameAs_refl

theorem pendingTitles_afterPut (h : s.Sound) (t response : Tiddler) :
    (s.afterPut s t (.ok response)).pendingTitles.Subperm (s.pendingTitles.erase t.title) := by
  have hquiet := quiet_acknowledge s (s.modifiedCopy? t) t response
  rw [acknowledged?_self] at hquiet
  exact hquiet.pendingTitles_sublist.subperm.trans (pendingTitles_dropping h t)

/-- Saving tiddlers one after the other sends each of them once, in order, and gives a result for
each. If all edits are of titles among those saved, and the server stores every copy, no edit is
left. -/
theorem exists_served_each {σ : Type} (remote : Remote σ) {d : Defaults} (edits : List Tiddler)
    (hs : s.Sound) (hd : s.resolver = .resolved d) (w : σ) :
    ∃ (saves : List (Tiddler × Except RemoteError Tiddler)) (s' : Store) (w' : σ),
      saves.map Prod.fst = edits ∧
      (Program.each saveTiddler edits).served remote s w = some
        { result := saves.map fun x => s.saved (x.1.placedBy d) x.2
          store := s'
          remote := w'
          exchanged := saves.map fun x => ⟨.put (x.1.placedBy d), x.2⟩ } ∧
      (s.pendingTitles.Subperm (edits.map Tiddler.title) → (∀ x ∈ saves, x.2.isOk) →
        s'.pending = []) := by
  induction edits generalizing s w with
  | nil =>
    refine ⟨[], s, w, rfl, rfl, fun hsub _ => ?_⟩
    exact List.map_eq_nil_iff.1 (List.subperm_nil.1 hsub)
  | cons e edits ih =>
    obtain ⟨s₁, hquiet, hsynced, hclock, hfirst⟩ :=
      exists_served_saveTiddler remote (.inr hd : e.hasContainer ∨ _) w
    have hs₁ := hquiet.sound hs
    generalize hsent : (remote (.put (e.placedBy d)) w).1 = answer at hfirst
    generalize (remote (.put (e.placedBy d)) w).2 = w₁ at hfirst
    let s₂ := s₁.afterPut s₁ (e.placedBy d) answer
    have hsteady : s.Steady s₂ := (hs.steady.quiet hquiet).afterPut s₁ (e.placedBy d) answer
    obtain ⟨saves, s', w', hsaves, hrest, hdrained⟩ :=
      ih hsteady.sound (hsteady.resolver.trans hd) w₁
    have hreceives := receives_afterPut s₁ (e.placedBy d) answer s₁
    have hsaved : s₂.saved = s.saved := by
      apply saved_congr
      · exact hreceives.course.kind.trans (congrArg Tier.kind hsynced)
      · exact hreceives.clock.trans hclock
    rw [hsaved] at hrest
    refine ⟨(e, answer) :: saves, s', w', by rw [List.map_cons, hsaves], ?_, fun hsub hok => ?_⟩
    · rw [Program.each, served_bind, hfirst]
      show Option.map _ ((Program.each saveTiddler edits >>= _).served remote s₂ w₁) = _
      rw [served_bind, hrest]
      show some (Upshot.after _ (Upshot.after _ ⟨_ :: _, s', w', []⟩)) = _
      simp [Upshot.after]
    · obtain ⟨hanswer, hothers⟩ := List.forall_mem_cons.1 hok
      refine hdrained ?_ hothers
      cases answer with
      | error cause => contradiction
      | ok response =>
        have hstep := pendingTitles_afterPut hs₁ (e.placedBy d) response
        rw [Tiddler.title_placedBy] at hstep
        apply hstep.trans
        have herased := (hquiet.pendingTitles_sublist.subperm.trans hsub).erase e.title
        rwa [List.map_cons, List.erase_cons_head] at herased

end Store

namespace Activity

variable {σ : Type} {remote : Remote σ} {a : Activity} {d : Defaults}

/-- When the server cannot store a copy, and nothing else has happened since the save began, the
save gives the error, and what was sent is among the edits, where it belongs. All else that was
pending still is, but for the title's place without a bag, and the confirmed copies are as they
were. Listeners who have a title withdrawn in the meantime are obeyed. -/
theorem edit_kept_by_failed_save (ha : a.Reachable) {target : Tiddler.Target} {t : Tiddler}
    (hfound : target.given?.or (a.store.modified.get? target.wanted) = some t)
    (hplace : t.hasContainer ∨ a.store.resolver = .resolved d) {w w' : σ} {cause : RemoteError}
    (hput : remote (.put (t.placedBy d)) w = (.error cause, w')) :
    ∃ s, (Store.save target).served remote a.store w =
        some ⟨.error (.save t.title cause), s, w', [⟨.put (t.placedBy d), .error cause⟩]⟩ ∧
      (t.title ∉ a.store.withdrawnSince s → s.Pending (t.placedBy d).asEdit) ∧
      (∀ bag title, title ≠ t.title ∨ bag ≠ "" ∧ bag ≠ (t.placedBy d).bagName.getD "" →
        title ∉ a.store.withdrawnSince s →
        s.modified.entries.get? (Key.ofNames bag title) =
          a.store.modified.entries.get? (Key.ofNames bag title)) ∧
      s.synced = a.store.synced := by
  obtain ⟨s', hquiet, hsynced, -, hsaved⟩ := Store.exists_served_saveTiddler remote hplace w
  have hs := ha.sound.store
  have hs' := hquiet.sound hs
  rw [hput] at hsaved
  have htitle := t.title_placedBy d
  generalize t.placedBy d = sent at hsaved htitle
  have hlog : s'.audience.withdrawn <+:
      (s'.takeBack (s'.modifiedCopy? sent) sent).audience.withdrawn :=
    (hs'.steady.afterPut s' sent (.error cause)).log
  refine ⟨s'.takeBack (s'.modifiedCopy? sent) sent, ?_, ?_, ?_, ?_⟩
  · rw [Store.save, served_store, hfound]
    rw [← htitle]
    exact hsaved
  · intro hnot
    rw [Store.mem_withdrawnSince_trans hquiet.log hlog, not_or, ← htitle] at hnot
    exact Store.pending_takeBack hs' hnot.2
  · intro bag title hne hnot
    rw [Store.mem_withdrawnSince_trans hquiet.log hlog, not_or] at hnot
    rw [Store.get?_takeBack hs' _ (htitle ▸ hne) hnot.2]
    exact (hquiet.agreeOn hs hnot.1).entries bag
  · rw [Store.synced_takeBack, hsynced]

/-- A document without a container whose save fails is among the edits afterwards, in the default
bag, beside the edit of its title in another bag. -/
theorem unplaced_document_kept_by_failed_save :
    ∃ (a : Activity) (s : Store), a.Reachable ∧
      (Store.save (.document { title := "T", text := "two" })).served
          (fun _ w => (.error (.transport "down"), w)) a.store () =
        some ⟨.error (.save "T" (.transport "down")), s, (),
          [⟨.put (.draft "notes" "two"), .error (.transport "down")⟩]⟩ ∧
      s.Pending (.draft "notes" "two") ∧
      s.modified.entries.get? (Key.ofNames "drafts" "T") = some (.draft "drafts" "one") := by
  let document : Tiddler := { title := "T", text := "two" }
  let edit := Tiddler.draft "drafts" "one"
  let d := Defaults.single (.bag "notes")
  let remote : Remote Unit := fun _ w => (.error (.transport "down"), w)
  let a := (start {} ⟨0, 0⟩ (some d) .none).added edit
  have ha : a.Reachable := (Reachable.start _ _ _ _).added Audience.silent_empty rfl
  have hfound : (Tiddler.Target.document document).given?.or
      (a.store.modified.get? document) = some document := rfl
  have hplace : document.hasContainer ∨ a.store.resolver = .resolved d := .inr rfl
  have hput : remote (.put (document.placedBy d)) () = (.error (.transport "down"), ()) := rfl
  obtain ⟨s, hserved, hkept, hothers, -⟩ := edit_kept_by_failed_save ha hfound hplace hput
  have hcall : (Call.save (.document document)).program.served remote a.store () =
      some ⟨.document _, s, (), _⟩ :=
    (served_map remote _ _ _ _).trans (congrArg _ hserved)
  have hnot : "T" ∉ a.store.withdrawnSince s :=
    Store.not_mem_withdrawnSince (audience_of_served ha.sound Audience.silent_empty hcall) "T"
  have hedit : a.store.modified.entries.get? (Key.ofNames "drafts" "T") = some edit := by
    decide +kernel
  refine ⟨a, s, ha, hserved, hkept hnot, ?_⟩
  rw [hothers "drafts" "T" (.inr (by decide)) hnot, hedit]

/-- When all edits are saved where the defaults are known, and nothing else happens until the last
one is answered, each edit is sent once, in order, in the default container if it has none. If the
server stores every copy, each save gives the copy of the server, and no edit is left. -/
theorem saveAll_drains (remote : Remote σ) (ha : a.Reachable) (hd : a.store.resolver = .resolved d)
    (hpending : a.store.pending ≠ []) (w : σ) :
    ∃ u, Store.saveAll.served remote a.store w = some u ∧
      ((∀ x ∈ u.exchanged, x.Succeeds) → ∃ saves : List (Tiddler × Tiddler),
        saves.map Prod.fst = a.store.pending ∧
        u.exchanged = saves.map (fun x => ⟨.put (x.1.placedBy d), .ok x.2⟩) ∧
        u.result = .ok (saves.map fun x => .ok { x.2 with lastSync := some a.store.clock }) ∧
        u.store.pending = []) := by
  have hs := ha.sound.store
  obtain ⟨saves, s, w', hsaves, hserved, hdrained⟩ :=
    Store.exists_served_each remote a.store.pending hs hd w
  have hall : Store.saveAll.served remote a.store w = some
      { result := .ok (saves.map fun x => a.store.saved (x.1.placedBy d) x.2)
        store := s
        remote := w'
        exchanged := saves.map fun x => ⟨.put (x.1.placedBy d), x.2⟩ } := by
    rw [Store.saveAll, served_store]
    split
    · contradiction
    · rw [served_bind, hserved]
      show some (Upshot.after _ ⟨Except.ok _, s, w', []⟩) = _
      simp [Upshot.after]
  refine ⟨_, hall, fun hok => ?_⟩
  have hanswers : ∀ x ∈ saves, x.2.isOk := fun x hx => hok _ (List.mem_map_of_mem hx)
  have hdrains := hdrained (.refl _) hanswers
  obtain ⟨pairs, rfl⟩ :
      saves ∈ Set.range (List.map fun x : Tiddler × Tiddler => (x.1, Except.ok x.2)) := by
    rw [Set.range_list_map]
    rintro ⟨e, answer⟩ hx
    cases answer with
    | ok response => exact ⟨(e, response), rfl⟩
    | error cause => exact absurd (hanswers _ hx) Bool.false_ne_true
  refine ⟨pairs, ?_, ?_, ?_, hdrains⟩
  · simpa [Function.comp_def] using hsaves
  · simp
  · simp [Store.saved, Tier.stamped_synced hs.kind_synced]

/-- An edit without a bag stands beside edits of its title in two bags where it has been added while
the defaults were being found out. -/
theorem exists_edits_with_and_without_bag :
    ∃ a : Activity, a.Reachable ∧ a.store.resolver = .resolved (.single (.bag "notes")) ∧
      a.store.pending =
        [.draft "drafts" "one", .draft "notes" "two", { title := "T", text := "three" }] := by
  let d := Defaults.single (.bag "notes")
  let bagless : Tiddler := { title := "T", text := "three" }
  let a₀ := (start {} ⟨0, 0⟩ none .none).call .getDefaults
  let a₁ := (a₀.added (.draft "drafts" "one")).added (.draft "notes" "two")
  let a₂ := a₁.call (.add bagless)
  let a := a₂.discover 0 (.ok d)
  have ha₀ : a₀.Reachable := (Reachable.start _ _ _ _).step (step_call _ _)
  have ha₁ : a₁.Reachable :=
    (ha₀.added Audience.silent_empty rfl).added Audience.silent_empty rfl
  have ha₂ : a₂.Reachable := ha₁.step (step_call _ _)
  have hstore₂ : a₂.store = (a₁.store.withEdit bagless).withResolver (.discovering [3]) := by
    have hfiled := Store.fileModified_of_silent ha₁.sound.store Audience.silent_empty bagless
    show (a₁.store.fileModified bagless).2.withResolver
      ((a₁.store.fileModified bagless).2.resolver.enqueue 3) = _
    rw [hfiled]
    rfl
  obtain ⟨next, htask⟩ : ∃ next, a₂.tasks 0 = some ⟨.getDefaults, .discovering next⟩ := ⟨_, rfl⟩
  have hanswer : Session.defaultsOf a₂.store.host (.ok { bag := some "notes" }) = .ok d := by
    rw [hstore₂]
    show Session.defaultsOf "/" _ = _
    decide +kernel
  have ha : a.Reachable := ha₂.step (step_discover htask hanswer)
  have hstore : a.store = (a₂.store.withResolver (.resolved d)).moveTo (.bag "notes") := rfl
  rw [hstore₂, Store.moveTo_of_silent Audience.silent_empty rfl] at hstore
  refine ⟨a, ha, ?_, ?_⟩
  · rw [hstore]
    rfl
  · rw [hstore]
    decide +kernel

/-- Three edits of one title are all sent, the one without a bag to the default bag, and all are
gone in the end. -/
theorem edits_of_a_title_drained :
    ∃ (a : Activity) (u : Upshot _ Unit), a.Reachable ∧
      a.store.pending =
        [.draft "drafts" "one", .draft "notes" "two", { title := "T", text := "three" }] ∧
      Store.saveAll.served (fun r w => (r.granted, w)) a.store () = some u ∧
      u.exchanged.map Exchanged.request =
        [.put (.draft "drafts" "one"), .put (.draft "notes" "two"),
          .put (.draft "notes" "three")] ∧
      (∃ stored : List Tiddler, stored.length = 3 ∧ u.result = .ok (stored.map .ok)) ∧
      u.store.pending = [] := by
  obtain ⟨a, ha, hd, hpending⟩ := exists_edits_with_and_without_bag
  obtain ⟨u, hserved, hdrains⟩ := saveAll_drains (fun r w => (r.granted, w)) ha hd
    (hpending ▸ List.cons_ne_nil _ _) ()
  obtain ⟨saves, hsaves, hexchanged, hresult, hempty⟩ := hdrains fun e he => by
    obtain ⟨w, hanswer⟩ := answered_of_served hserved e he
    unfold Exchanged.Succeeds
    rw [← hanswer]
    cases e.request <;> rfl
  have hrequests : u.exchanged.map Exchanged.request =
      (saves.map Prod.fst).map fun e => .put (e.placedBy (.single (.bag "notes"))) := by
    rw [hexchanged, List.map_map, List.map_map]
    rfl
  have hlength : saves.length = 3 := by
    rw [← List.length_map Prod.fst, hsaves, hpending]
    rfl
  let stored := saves.map fun x => { x.2 with lastSync := some a.store.clock }
  have hstored : u.result = .ok (stored.map .ok) := by
    rw [hresult, List.map_map]
    rfl
  refine ⟨a, u, ha, hpending, hserved, ?_, ⟨stored, ?_, hstored⟩, hempty⟩
  · rw [hrequests, hsaves, hpending]
    rfl
  · rw [List.length_map, hlength]

end Activity

end TiddlerShelf
