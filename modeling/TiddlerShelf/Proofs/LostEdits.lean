import TiddlerShelf.Proofs.Fates
import TiddlerShelf.Proofs.Unheard

/-! # Edits that are lost

Once an edit is pending in a named bag, it stays pending whatever goes on, unless it is replaced,
removed, deleted or stored on the server later on, or it is lost. `Loses` lists the ways in which
an edit is lost; each of them needs a task that has begun before the edit was made, or a copy that
is older than the edit: one that is sent although a newer edit already stands for it, so that the
answer to it is taken for an answer about the edit. -/

namespace TiddlerShelf.Activity

open Program

/-- What may end an edit for a good reason, when the tasks from the number `first` on have begun
after the edit was made. -/
inductive Excuses (first : TaskId) (e : Tiddler) : Transition → Prop
  /-- A later add files something else under its key. -/
  | replaced {a b : Activity} {id : TaskId} {c : Call} {k : Cause} {t : Tiddler}
    (hid : first ≤ id) (hfiles : c.Files k a.store.resolver t) (hkey : t.key = e.key)
    (hne : ¬t.asEdit.sameAs e) : Excuses first e ⟨a, .go id c k, b⟩
  /-- Its title is removed. -/
  | removed {a b : Activity} {target : Tiddler.Target} (h : target.name = e.title) :
    Excuses first e ⟨a, .deed (.remove target), b⟩
  /-- A listener has its title removed. -/
  | withdrawn {a b : Activity} {m : Move} (h : e.title ∈ a.store.withdrawnSince b.store) :
    Excuses first e ⟨a, m, b⟩
  /-- Its title is to be deleted. -/
  | destroyed {a b : Activity} {id : TaskId} {target : Tiddler.Target}
    (h : target.name = e.title) : Excuses first e ⟨a, .go id (.destroy target) .called, b⟩
  /-- The server has stored exactly its content. -/
  | stored {a b : Activity} {id : TaskId} {c : Call} {since : Store} {t response : Tiddler}
    (h : t.asEdit.sameAs e) :
    Excuses first e ⟨a, .go id c (.answered since (.put t) (.ok response)), b⟩

/-- What loses an edit. -/
inductive Loses (first : TaskId) (e : Tiddler) : Transition → Prop
  /-- The server has stored another content, for which the edit stood already when it was sent. -/
  | acknowledged {a b : Activity} {id : TaskId} {c : Call} {since : Store} {t response : Tiddler}
    (hbefore : since.StandsFor e t) (hnow : a.store.StandsFor e t) (hne : ¬t.asEdit.sameAs e) :
    Loses first e ⟨a, .go id c (.answered since (.put t) (.ok response)), b⟩
  /-- Another content comes back to its key, and when that was sent the edit was there already. -/
  | restored {a b : Activity} {id : TaskId} {c : Call} {since : Store} {t : Tiddler}
    {cause : RemoteError} (hbefore : since.StandsFor e t) (hkey : t.key = e.key)
    (hne : ¬t.asEdit.sameAs e) :
    Loses first e ⟨a, .go id c (.answered since (.put t) (.error cause)), b⟩
  /-- The server has deleted what it stands for, as it was asked to before the edit was made. -/
  | deleted {a b : Activity} {id : TaskId} {target : Tiddler.Target} {since : Store} {t : Tiddler}
    (hid : id < first) (hnow : a.store.StandsFor e t) :
    Loses first e ⟨a, .go id (.destroy target) (.answered since (.delete t) (.ok ())), b⟩
  /-- An earlier add files something else under its key. -/
  | overtaken {a b : Activity} {id : TaskId} {c : Call} {k : Cause} {t : Tiddler}
    (hid : id < first) (hfiles : c.Files k a.store.resolver t) (hkey : t.key = e.key)
    (hne : ¬t.asEdit.sameAs e) : Loses first e ⟨a, .go id c k, b⟩
  /-- The edits are read from a cache that holds something else under its key. -/
  | reloaded {a b : Activity} (h : ¬Store.Outlasts e a.store.modified.cache.list) :
    Loses first e ⟨a, .deed .reload, b⟩

/-- Whether no task from the number `first` on has been asked to delete a title. -/
def SparesTitle (first : TaskId) (title : String) (a : Activity) : Prop :=
  ∀ {id target phase}, a.tasks id = some ⟨.destroy target, phase⟩ → first ≤ id → target.name ≠ title

theorem SparesTitle.step {first : TaskId} {e : Tiddler} {a b : Activity} {m : Move}
    (h : SparesTitle first e.title a) (hstep : Step a m b) (hx : ¬Excuses first e ⟨a, m, b⟩) :
    SparesTitle first e.title b := by
  intro id target phase ht hid
  rcases hstep.origin ht with rfl | ⟨⟨c, phase'⟩, hu, rfl⟩
  · intro hname
    exact hx (.destroyed hname)
  · exact h hu hid

/-- A stretch of work takes an edit away with good reason, or it loses it. -/
theorem excuses_or_loses_of_takes {first : TaskId} {e : Tiddler} {a b : Activity} {id : TaskId}
    {c : Call} {k : Cause} (hstep : Step a (.go id c k) b) (ha : a.Sound)
    (hspares : SparesTitle first e.title a) (h : Call.Takes e c k a.store) :
    Excuses first e ⟨a, .go id c k, b⟩ ∨ Loses first e ⟨a, .go id c k, b⟩ := by
  cases h with
  | replaces hfiles hkey hne =>
    rcases Nat.lt_or_ge id first with hid | hid
    · exact .inr (.overtaken hid hfiles hkey hne)
    · exact .inl (.replaced hid hfiles hkey hne)
  | @acknowledges _ _ _ t _ hbefore hnow =>
    by_cases hsame : t.asEdit.sameAs e
    · exact .inl (.stored hsame)
    · exact .inr (.acknowledged hbefore hnow hsame)
  | restores hbefore hkey hne => exact .inr (.restored hbefore hkey hne)
  | @forgets target _ edit hsynced hedit hnow =>
    refine .inl (.destroyed ?_)
    rw [← Store.title_wanted, ← (ha.store.modified.of_get? hedit).2.1]
    exact hnow.title_eq ha.store
  | @deletes target _ since t hnow =>
    rcases Nat.lt_or_ge id first with hid | hid
    · exact .inr (.deleted hid hnow)
    · obtain ⟨phase, htask⟩ := hstep.task nofun
      refine absurd ?_ (hspares htask hid)
      rw [← hstep.title_of_deleted ha]
      exact hnow.title_eq ha.store

/-- An edit that a step neither ends for a good reason nor loses is still pending. -/
theorem Step.pending {first : TaskId} {e : Tiddler} {a b : Activity} {m : Move}
    (hstep : Step a m b) (ha : a.Sound) (hb : e.IsBagged) (he : a.store.Pending e)
    (hspares : SparesTitle first e.title a) (hx : ¬Excuses first e ⟨a, m, b⟩)
    (hl : ¬Loses first e ⟨a, m, b⟩) : b.store.Pending e := by
  have hnot : e.title ∉ a.store.withdrawnSince b.store := fun h => hx (.withdrawn h)
  rcases hstep.store_cases with ⟨id, c, k, rfl⟩ | ⟨resolver, heq⟩ | ⟨d, rfl, heq⟩
  · refine (hstep.fate ha hb he).pending (fun htakes => ?_) hnot
    rcases excuses_or_loses_of_takes hstep ha hspares htakes with h | h
    · exact hx h
    · exact hl h
  · rw [heq]
    exact he
  · cases hstep
    refine (Deed.fate ha.store hb he ?_).pending ?_ hnot
    · rintro target rfl hname
      exact hx (.removed hname)
    · rintro rfl
      by_contra houtlasts
      exact hl (.reloaded houtlasts)

/-- An edit that a step loses is no longer pending. -/
theorem Loses.not_pending {first : TaskId} {e : Tiddler} {a b : Activity} {m : Move}
    (h : Loses first e ⟨a, m, b⟩) (hstep : Step a m b) (ha : a.Sound) (hb : e.IsBagged)
    (he : a.store.Pending e) : ¬b.store.Pending e := by
  intro hafter
  cases h with
  | acknowledged hbefore hnow _ =>
    exact (hstep.fate ha hb he).kept hafter (.acknowledges hbefore hnow)
  | restored hbefore hkey hne =>
    exact (hstep.fate ha hb he).kept hafter (.restores hbefore hkey hne)
  | deleted _ hnow => exact (hstep.fate ha hb he).kept hafter (.deletes hnow)
  | overtaken _ hfiles hkey hne =>
    exact (hstep.fate ha hb he).kept hafter (.replaces hfiles hkey hne)
  | reloaded houtlasts =>
    cases hstep
    exact houtlasts ((Deed.fate ha.store hb he fun _ hd => Deed.noConfusion hd).kept hafter rfl)

/-- Along a run in which nothing ends or loses it, an edit stays pending. -/
theorem Run.pending {first : TaskId} {e : Tiddler} {a b : Activity} {h : List Transition}
    (hrun : Run a h b) (ha : a.Sound) (hb : e.IsBagged) (he : a.store.Pending e)
    (hspares : SparesTitle first e.title a) (hx : ∀ tr ∈ h, ¬Excuses first e tr)
    (hl : ∀ tr ∈ h, ¬Loses first e tr) :
    b.store.Pending e ∧ ∀ tr ∈ h, tr.after.store.Pending e := by
  induction hrun with
  | nil => exact ⟨he, fun _ htr => absurd htr List.not_mem_nil⟩
  | cons hstep hrun ih =>
    have hxfirst := hx _ List.mem_cons_self
    have hnext := hstep.pending ha hb he hspares hxfirst (hl _ List.mem_cons_self)
    obtain ⟨hend, hrest⟩ := ih (hstep.sound ha) hnext (hspares.step hstep hxfirst)
      (fun tr htr => hx tr (List.mem_cons_of_mem _ htr))
      (fun tr htr => hl tr (List.mem_cons_of_mem _ htr))
    refine ⟨hend, ?_⟩
    intro tr htr
    rcases List.mem_cons.1 htr with rfl | htr
    · exact hnext
    · exact hrest tr htr

/-- What is pending after every step was pending before every step. -/
theorem Run.pending_before {e : Tiddler} {a b : Activity} {h : List Transition}
    (hrun : Run a h b) (he : a.store.Pending e) (hafter : ∀ tr ∈ h, tr.after.store.Pending e) :
    ∀ tr ∈ h, tr.before.store.Pending e := by
  induction hrun with
  | nil => exact fun _ htr => absurd htr List.not_mem_nil
  | cons hstep hrun ih =>
    intro tr htr
    rcases List.mem_cons.1 htr with rfl | htr
    · exact he
    · exact ih (hafter _ List.mem_cons_self)
        (fun tr htr => hafter tr (List.mem_cons_of_mem _ htr)) tr htr

theorem sparesTitle_fresh {a : Activity} (ha : a.Sound) (title : String) :
    SparesTitle a.fresh title a := by
  intro id target phase ht hid
  rw [ha.fresh hid] at ht
  contradiction

/-- The answer to a copy of another content is no excuse where nobody listens. -/
theorem not_excuses_of_put {first : TaskId} {e : Tiddler} {a b : Activity} {id : TaskId} {c : Call}
    {since : Store} {t : Tiddler} {answer : Except RemoteError Tiddler}
    (haudience : b.store.audience = a.store.audience) (hne : ¬t.asEdit.sameAs e) :
    ¬Excuses first e ⟨a, .go id c (.answered since (.put t) answer), b⟩ := by
  intro hexcuses
  cases hexcuses with
  | replaced _ hfiles _ _ => nomatch hfiles
  | withdrawn hwithdrawn => exact Store.not_mem_withdrawnSince haudience _ hwithdrawn
  | stored hstored => exact hne hstored

/-- The answer to a copy loses no edit that did not stand for it when it was sent. -/
theorem not_loses_of_put {first : TaskId} {e : Tiddler} {a b : Activity} {id : TaskId} {c : Call}
    {since : Store} {t : Tiddler} {answer : Except RemoteError Tiddler}
    (hbefore : ¬since.StandsFor e t) :
    ¬Loses first e ⟨a, .go id c (.answered since (.put t) answer), b⟩ := by
  intro hloses
  cases hloses with
  | acknowledged hstood _ _ => exact hbefore hstood
  | restored hstood _ _ => exact hbefore hstood
  | overtaken _ hfiles _ _ => nomatch hfiles

/-- From the moment an edit in a named bag is pending, and as long as nothing ends it for a good
reason, it is pending at every moment exactly if no step loses it. -/
theorem pending_throughout_iff_never_lost {a b : Activity} {h : List Transition} {e : Tiddler}
    (ha : a.Reachable) (hrun : Run a h b) (hb : e.IsBagged) (he : a.store.Pending e)
    (hx : ∀ tr ∈ h, ¬Excuses a.fresh e tr) :
    (b.store.Pending e ∧ ∀ tr ∈ h, tr.after.store.Pending e) ↔ ∀ tr ∈ h, ¬Loses a.fresh e tr := by
  constructor
  · rintro ⟨-, hafter⟩ tr htr hloses
    have hbefore := hrun.pending_before he hafter tr htr
    have hsound := hrun.sound_of_mem ha.sound htr
    exact hloses.not_pending (hrun.step_of_mem htr) hsound hb hbefore (hafter tr htr)
  · exact hrun.pending ha.sound hb he (sparesTitle_fresh ha.sound e.title) hx

/-- A newer edit that is made while an older one is in flight outlasts the answer to that. -/
theorem newer_edit_outlasts_answer :
    ∃ (a b : Activity) (since : Store) (older newer : Tiddler), a.Reachable ∧ newer.IsBagged ∧
      older.key = newer.key ∧ since.Pending older ∧ a.store.Pending newer ∧
      Step a (.go 1 (.save (.document older)) (.answered since (.put older) (.ok older))) b ∧
      b.store.Pending newer := by
  let older := Tiddler.draft "notes" "one"
  let newer := Tiddler.draft "notes" "two"
  let saving : Call := .save (.document older)
  let a₀ := start {} ⟨0, 0⟩ (some (.single (.bag "notes"))) .none
  let a₁ := a₀.added older
  let a₂ := a₁.call saving
  let a := a₂.added newer
  have hsilent : a₂.store.audience.Silent := Audience.silent_empty
  have hreach₀ : a₀.Reachable := .start _ _ _ _
  have hreach₁ : a₁.Reachable := hreach₀.added hsilent rfl
  have hreach : a.Reachable := (hreach₁.step (step_call a₁ saving)).added hsilent rfl
  have hbagged : newer.asEdit.IsBagged := by decide
  have holder : a₁.store.Pending older.asEdit := Store.pending_withEdit_self _ _
  have hnewer : a.store.Pending newer.asEdit := Store.pending_withEdit_self _ _
  obtain ⟨next, htask⟩ : ∃ next,
      a.tasks 1 = some ⟨saving, .asking (.put older) a₁.store next⟩ := ⟨_, rfl⟩
  have hstep := step_reply htask Request.granted
  -- What stood for the older copy when that was sent was the older copy itself.
  have hbefore : ¬a₁.store.StandsFor newer.asEdit older :=
    fun hstood => absurd (hstood.sameAs holder rfl) (by decide)
  have hrun : Run a [⟨a, _, _⟩] _ := .cons hstep (.nil _)
  have hnever := (pending_throughout_iff_never_lost hreach hrun hbagged hnewer ?_).2 ?_
  · exact ⟨a, _, _, older, newer, hreach, hbagged, rfl, holder, hnewer, hstep, hnever.1⟩
  · intro tr htr
    rw [List.mem_singleton.1 htr]
    exact not_excuses_of_put (hstep.audience_of_go hreach.sound hsilent) (by decide)
  · intro tr htr
    rw [List.mem_singleton.1 htr]
    exact not_loses_of_put hbefore

/-- An edit that is made while a collection is saved need not be pending when that is over, though
nothing has ended it: the copy of its title that the collection holds is sent later on, and the
server stores that. -/
theorem saving_loses_edits :
    ¬∀ {a₀ a₁ a₂ a₃ a₄ b : Activity} {h₁ h₂ : List Transition} {id x : TaskId} {c : Call}
      {k : Cause} {t : Tiddler}, a₀.Reachable → c.Saves → Step a₀ (.go id c .called) a₁ →
      Run a₁ h₁ a₂ → Step a₂ (.go x (.add t) .called) a₃ → t.IsBagged → a₃.store.Pending t.asEdit →
      (a₃.tasks id).isSome → Run a₃ h₂ a₄ → Step a₄ (.go id c k) b → b.tasks id = none →
      (∀ tr ∈ h₂ ++ [⟨a₄, .go id c k, b⟩], ¬Excuses a₃.fresh t.asEdit tr) →
      b.store.Pending t.asEdit := by
  intro hclaim
  let other : Tiddler := { title := "A", bag := some (.bag "notes") }
  let older := Tiddler.draft "notes" "one"
  let newer := Tiddler.draft "notes" "two"
  let saving : Call := .saveCollection { tiddlers := [other, older] }
  let a₀ := start {} ⟨0, 0⟩ (some (.single (.bag "notes"))) .none
  let a₁ := a₀.call saving
  let a₃ := a₁.added newer
  have hsilent : a₁.store.audience.Silent := Audience.silent_empty
  have hreach₀ : a₀.Reachable := .start _ _ _ _
  have hreach₁ : a₁.Reachable := hreach₀.step (step_call a₀ saving)
  have hreach₃ : a₃.Reachable := hreach₁.added hsilent rfl
  have hnewer : a₃.store.Pending newer.asEdit := Store.pending_withEdit_self _ _
  obtain ⟨next, htask₃⟩ : ∃ next,
      a₃.tasks 0 = some ⟨saving, .asking (.put other) a₀.store next⟩ := ⟨_, rfl⟩
  have hstep₃ := step_reply htask₃ Request.granted
  obtain ⟨next', htask₄⟩ : ∃ next', (a₃.reply 0 Request.granted).tasks 0 =
      some ⟨saving, .asking (.put older) (a₃.reply 0 Request.granted).store next'⟩ := ⟨_, rfl⟩
  have hstep₄ := step_reply htask₄ Request.granted
  have hbagged : newer.asEdit.IsBagged := by decide
  have hended : ((a₃.reply 0 Request.granted).reply 0 Request.granted).tasks 0 = none := rfl
  generalize a₃.reply 0 Request.granted = a₄ at hstep₃ hstep₄ hended
  generalize a₄.reply 0 Request.granted = b at hstep₄ hended
  have haudience₄ := hstep₃.audience_of_go hreach₃.sound hsilent
  have haudience := hstep₄.audience_of_go (hreach₃.step hstep₃).sound (haudience₄ ▸ hsilent)
  have hpending₄ : a₄.store.Pending newer.asEdit := by
    refine (hstep₃.fate hreach₃.sound hbagged hnewer).pending (fun htakes => ?_)
      (Store.not_mem_withdrawnSince haudience₄ _)
    exact absurd (htakes.standsFor.title_eq hreach₀.sound.store) (by decide)
  have hlost := (hstep₄.fate (e := newer.asEdit) (hreach₃.step hstep₃).sound hbagged hpending₄).kept
  have hwaits : (a₃.tasks 0).isSome := by rw [htask₃]; rfl
  refine hlost (hclaim (c := saving) hreach₀ trivial (step_call a₀ saving) (.nil a₁)
    (step_added hreach₁.sound hsilent rfl) hbagged hnewer hwaits
    (.cons hstep₃ (.nil _)) hstep₄ hended ?_) ?_
  · intro tr htr
    simp only [List.singleton_append, List.mem_cons, List.not_mem_nil, or_false] at htr
    rcases htr with rfl | rfl
    · exact not_excuses_of_put haudience₄ (by decide)
    · exact not_excuses_of_put haudience (by decide)
  · exact .acknowledges (hpending₄.standsFor rfl) (hpending₄.standsFor rfl)

end TiddlerShelf.Activity
