import TiddlerShelf.Proofs.Fates
import TiddlerShelf.Proofs.Unheard

/-! # Edits of the same title in other bags

Saving and deleting look for the edit of a tiddler under its key or else by its title alone, in
whatever bag. So when the server has done what it was asked to, an edit of the title in another bag
is dropped exactly if there is no edit of the tiddler itself and the lookup by title finds that
one. -/

namespace TiddlerShelf

open Program

/-- Whether a stretch begins with an answer of the server. -/
def Program.Cause.IsAnswer : Cause → Prop
  | answered .. => True
  | _ => False

/-- The calls that save or delete one tiddler. -/
inductive Call.IsSingle : Call → Prop
  | save (target : Tiddler.Target) : IsSingle (.save target)
  | destroy (target : Tiddler.Target) : IsSingle (.destroy target)

/-- Whether a request stores or deletes a tiddler. -/
inductive Request.ActsOn (t : Tiddler) : Request → Prop
  | put : ActsOn t (.put t)
  | delete : ActsOn t (.delete t)

namespace Store

theorem standsFor_congr {s s' : Store} (h : s.modified = s'.modified) {e t : Tiddler} :
    s.StandsFor e t ↔ s'.StandsFor e t := by
  unfold StandsFor modifiedCopy?
  rw [h]

/-- What stands for a tiddler is the same while its title is left alone. -/
theorem Spares.standsFor_iff {s s' : Store} (h : s.Spares s') (hs : s.Sound) {e t : Tiddler}
    (hnot : t.title ∉ s.withdrawnSince s') : s'.StandsFor e t ↔ s.StandsFor e t := by
  unfold StandsFor
  rw [modifiedCopy?_eq_of_agreeOn (h.agreeOn hs hnot)]

end Store

/-- Until the server has answered, saving and deleting spare the edits, unless they end at once. -/
theorem Call.IsSingle.spares {c : Call} (hc : c.IsSingle) {k : Cause} {s₀ s : Store} {halt : Halt}
    (h : c.Edits k s₀ s halt) (hk : ¬k.IsAnswer)
    (hhalt : halt ≠ .over) : s₀.Spares s := by
  cases hc with
  | save target =>
    cases h with
    | sends _ _ => exact .refl _
    | places _ _ _ => exact (Store.quiet_moveTo _ _).toSpares
    | waits _ => exact .refl _
    | nothing => exact .refl _
    | resumes _ => exact (Store.quiet_moveTo _ _).toSpares
    | fails => exact .refl _
    | answered => exact absurd trivial hk
  | destroy target =>
    cases h with
    | asks _ => exact .refl _
    | forgets _ _ => exact absurd rfl hhalt
    | nothing _ _ => exact .refl _
    | deleted _ => exact absurd trivial hk
    | fails => exact absurd trivial hk

namespace Activity

/-- What a task does on its own before the server answers it. -/
inductive Alone (id : TaskId) (c : Call) : Activity → Activity → Prop
  | called {a b : Activity} (h : Step a (.go id c .called) b) : Alone id c a b
  | resolved {a b b' : Activity} {result : Except StoreError Defaults} (h : Alone id c a b)
    (h' : Step b (.go id c (.resolved result)) b') : Alone id c a b'
  | again {a b b' : Activity} (h : Alone id c a b) (h' : Step b (.again id) b') : Alone id c a b'

/-- What a task that is not over yet has done on its own: it has spared the edits, and if it has
asked the server, the edits have not changed since. -/
structure Spared (id : TaskId) (a b : Activity) : Prop where
  sound : b.Sound
  spares : a.store.Spares b.store
  asked : ∀ {c r since next}, b.tasks id = some ⟨c, .asking r since next⟩ →
    since.modified = b.store.modified

theorem spared_of_went {id : TaskId} {c : Call} (hc : c.IsSingle) {k : Cause}
    (hk : ¬k.IsAnswer) {a b : Activity}
    (h : Step a (.go id c k) b) (ha : a.Sound) (ht : b.tasks id ≠ none) : Spared id a b := by
  obtain ⟨s₀, s, halt, hedits, ⟨resolver, rfl, -⟩, ⟨resolver', hafter, -⟩, hrests⟩ := h.went ha
  have hhalt : halt ≠ .over := by
    rintro rfl
    generalize b.tasks id = task at hrests ht
    cases hrests
    exact ht rfl
  refine ⟨h.sound ha, ?_, ?_⟩
  · rw [hafter]
    exact ((Store.spares_withResolver _ _).trans (hc.spares hedits hk hhalt)).trans
      (Store.spares_withResolver _ _)
  · intro c' r since next htask
    rw [htask] at hrests
    rw [hafter]
    cases hrests
    rfl

theorem Alone.spared {id : TaskId} {c : Call} (hc : c.IsSingle) {a b : Activity}
    (h : Alone id c a b) (ha : a.Sound) (ht : b.tasks id ≠ none) : Spared id a b := by
  induction h with
  | called h => exact spared_of_went hc (k := .called) not_false h ha ht
  | @resolved b b' result h h' ih =>
    obtain ⟨phase, htask⟩ := h'.task nofun
    have hb := ih (htask ▸ Option.some_ne_none _)
    have hb' := spared_of_went hc (k := .resolved result) not_false h' hb.sound ht
    exact ⟨hb'.sound, hb.spares.trans hb'.spares, hb'.asked⟩
  | @again b b' h h' ih =>
    have hsound := h'.sound
    cases h' with
    | again htask hqueue hne =>
      have hb := ih (htask ▸ Option.some_ne_none _)
      obtain ⟨resolver, t, heq, hphase⟩ := goOn_resolve _ _ _ hne
      rw [heq] at hsound ⊢
      refine ⟨hsound hb.sound, hb.spares.trans (Store.spares_withResolver _ _), ?_⟩
      intro c' r since next hasks
      have hupdate : Function.update b.tasks id (some t) id = _ := hasks
      rw [Function.update_self] at hupdate
      rcases hphase with rfl | rfl <;> cases hupdate

/-- What the server's answer to a store or a delete request does to an edit of the title in another
bag. -/
theorem takes_iff_of_actsOn {e u : Tiddler} (hkey : e.key ≠ u.key) {c : Call} (hc : c.IsSingle)
    {r : Request} (hr : r.ActsOn u) {since s s' : Store} {answer : Except RemoteError r.Reply}
    {halt : Halt} (h : c.Edits (.answered since r answer) s s' halt) :
    Call.Takes e c (.answered since r answer) s ↔
      (∃ reply, answer = .ok reply) ∧ (r = .put u → since.StandsFor e u) ∧ s.StandsFor e u := by
  constructor
  · intro htakes
    cases htakes with
    | replaces hfiles _ _ => nomatch hfiles
    | acknowledges hbefore hnow =>
      cases hr with
      | put => exact ⟨⟨_, rfl⟩, fun _ => hbefore, hnow⟩
    | restores _ hkey' _ =>
      cases hr with
      | put => exact absurd hkey'.symm hkey
    | deletes hnow =>
      cases hr with
      | delete => exact ⟨⟨_, rfl⟩, nofun, hnow⟩
  · rintro ⟨⟨reply, rfl⟩, hbefore, hnow⟩
    cases hr with
    | put => exact .acknowledges (hbefore rfl) hnow
    | delete =>
      cases hc with
      | save target => cases h
      | destroy target => exact .deletes hnow

/-- When a task that works alone has saved or deleted a tiddler, an edit of its title in another bag
is pending, unless the server has done what it was asked to and the edit is what stands for that
tiddler. -/
theorem pending_in_other_bag_iff {a a' b : Activity} {id : TaskId} {c : Call} {since : Store}
    {r : Request} {answer : Except RemoteError r.Reply} {u e : Tiddler} (ha : a.Reachable)
    (hc : c.IsSingle) (halone : Alone id c a a')
    (hanswer : Step a' (.go id c (.answered since r answer)) b) (hr : r.ActsOn u)
    (he : a.store.Pending e) (hb : e.IsBagged) (htitle : e.title = u.title) (hkey : e.key ≠ u.key)
    (hnot : e.title ∉ a.store.withdrawnSince b.store) :
    b.store.Pending e ↔ ¬((∃ reply, answer = .ok reply) ∧ a.store.StandsFor e u) := by
  obtain ⟨phase, htask⟩ := hanswer.task nofun
  have hspared := halone.spared hc ha.sound (htask ▸ Option.some_ne_none _)
  rw [Store.mem_withdrawnSince_trans hspared.spares.log (hanswer.log hspared.sound), not_or] at hnot
  have he' : a'.store.Pending e := (hspared.spares.pending_iff ha.sound.store hnot.1).2 he
  have hfate := hanswer.fate hspared.sound hb he'
  obtain ⟨s₀, s, halt, hedits, ⟨resolver, rfl, hresolver⟩, -, -⟩ := hanswer.went hspared.sound
  obtain rfl := hresolver nofun
  have htakes : Call.Takes e c (.answered since r answer) a'.store ↔ _ :=
    takes_iff_of_actsOn hkey hc hr hedits
  have hnow : a'.store.StandsFor e u ↔ a.store.StandsFor e u :=
    hspared.spares.standsFor_iff ha.sound.store (htitle ▸ hnot.1)
  have hbefore : since.StandsFor e u ↔ a'.store.StandsFor e u := by
    cases hanswer with
    | answer hasks _ => exact Store.standsFor_congr (hspared.asked hasks)
  have hpending : b.store.Pending e ↔ ¬Call.Takes e c (.answered since r answer) a'.store :=
    ⟨hfate.kept, fun htakes => hfate.pending htakes hnot.2⟩
  rw [hpending, htakes, ← hnow]
  refine not_congr (and_congr_right fun _ => ?_)
  exact ⟨fun h => h.2, fun h => ⟨fun _ => hbefore.2 h, h⟩⟩

/-- Where two bags have an edit of one title, saving the one leaves the other alone. -/
theorem other_bag_pending_after_save :
    ∃ (a b : Activity) (saved other : Tiddler), a.Reachable ∧ other.title = saved.title ∧
      other.key ≠ saved.key ∧
      Step a (.go 2 (.save (.document saved)) (.answered a.store (.put saved) (.ok saved))) b ∧
      b.store.Pending other := by
  let saved := Tiddler.draft "one" "a"
  let other := Tiddler.draft "two" "b"
  let target : Tiddler.Target := .document saved
  let a₀ := start {} ⟨0, 0⟩ (some (.single (.bag "one"))) .none
  let a₁ := a₀.added other
  let a₂ := a₁.added saved
  have hsilent : a₂.store.audience.Silent := Audience.silent_empty
  have hreach₀ : a₀.Reachable := .start _ _ _ _
  have hreach₁ : a₁.Reachable := hreach₀.added hsilent rfl
  have hreach₂ : a₂.Reachable := hreach₁.added hsilent rfl
  have hsaved : a₂.store.Pending saved := Store.pending_withEdit_self _ saved
  have hother : a₂.store.Pending other := by
    refine (Store.pending_withEdit_iff (by decide)).2 (.inr ⟨by decide, ?_⟩)
    exact Store.pending_withEdit_self _ other
  obtain ⟨next, hsave⟩ := exists_step_asked (a := a₂) (c := .save target)
    (proceed_save target rfl rfl)
  have hreach := hreach₂.step hsave
  have htask : (a₂.asked (.save target) (.put saved) next).tasks 2 =
      some ⟨.save target, .asking (.put saved) a₂.store next⟩ := rfl
  have hstep := step_reply htask Request.granted
  have haudience := hstep.audience_of_go hreach.sound hsilent
  refine ⟨_, _, saved, other, hreach, rfl, by decide, hstep, ?_⟩
  refine (pending_in_other_bag_iff hreach₂ (.save target) (.called hsave) hstep .put hother
    (by decide) rfl (by decide) ?_).2 ?_
  · exact Store.not_mem_withdrawnSince haudience _
  · rintro ⟨-, hstands⟩
    exact absurd (hstands.sameAs hsaved rfl) (by decide)

/-- Saving a tiddler drops an edit of its title in another bag, where there is no edit of the
tiddler itself. -/
theorem other_bag_lost_to_save :
    ¬∀ {a a' b : Activity} {id : TaskId} {c : Call} {since : Store} {r : Request}
      {answer : Except RemoteError r.Reply} {u e : Tiddler}, a.Reachable → c.IsSingle →
      Alone id c a a' → Step a' (.go id c (.answered since r answer)) b → r.ActsOn u →
      a.store.Pending e → e.IsBagged → e.title = u.title → e.key ≠ u.key →
      e.title ∉ a.store.withdrawnSince b.store → b.store.Pending e := by
  intro hclaim
  let sent := Tiddler.draft "one" "a"
  let other := Tiddler.draft "two" "b"
  let target : Tiddler.Target := .document sent
  let a₀ := start {} ⟨0, 0⟩ (some (.single (.bag "one"))) .none
  let a := a₀.added other
  have hsilent : a.store.audience.Silent := Audience.silent_empty
  have hreach₀ : a₀.Reachable := .start _ _ _ _
  have hreach : a.Reachable := hreach₀.added hsilent rfl
  have hother : a.store.Pending other := Store.pending_withEdit_self _ other
  obtain ⟨next, hsave⟩ := exists_step_asked (a := a) (c := .save target)
    (proceed_save target rfl rfl)
  have hasked := hreach.step hsave
  have htask : (a.asked (.save target) (.put sent) next).tasks 1 =
      some ⟨.save target, .asking (.put sent) a.store next⟩ := rfl
  have hstep := step_reply htask Request.granted
  have hbagged : other.IsBagged := by decide
  have hpending := hclaim hreach (.save target) (.called hsave) hstep .put hother hbagged rfl
    (by decide) (Store.not_mem_withdrawnSince (hstep.audience_of_go hasked.sound hsilent) _)
  -- The lookup by title alone finds the edit in the other bag.
  have hstands : a.store.StandsFor other sent := ⟨other, by decide +kernel, by decide⟩
  exact (hstep.fate hasked.sound hbagged hother).kept hpending (.acknowledges hstands hstands)

end Activity

end TiddlerShelf
