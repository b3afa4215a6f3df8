import TiddlerShelf.Proofs.LostEdits
import TiddlerShelf.Proofs.Origins

/-! # Saving by title

Where the defaults are known from the start, all tiddlers are added to named bags, and saves name a
title, every copy that is in flight is the edit that was pending when it was sent. So an edit is
neither dropped nor overwritten on account of an older copy: it stays pending until it is stored,
removed or deleted. -/

namespace TiddlerShelf

open Program

/-- The calls that add to a named bag, save a title, delete or read. -/
inductive Call.ByTitle : Call → Prop
  | add {t : Tiddler} (h : t.IsBagged) : ByTitle (.add t)
  | save (title : String) : ByTitle (.save (.title title))
  | destroy (target : Tiddler.Target) : ByTitle (.destroy target)
  | get (target : Tiddler.Target) (options : Store.GetOptions) : ByTitle (.get target options)
  | refresh : ByTitle .refresh
  | search (query : String) : ByTitle (.search query)

/-- The moves of such calls and the removals of edits. -/
def Move.ByTitle : Move → Prop
  | .go _ c _ => c.ByTitle
  | .deed (.remove _) => True
  | .deed _ => False
  | .again _ | .drop _ => True

theorem Call.ByTitle.of_added? {c : Call} (hc : c.ByTitle) {t : Tiddler} (h : c.added? = some t) :
    c = .add t ∧ t.IsBagged := by
  cases hc with
  | add hb =>
    obtain rfl := Option.some.inj h
    exact ⟨rfl, hb⟩
  | save => cases h
  | destroy => cases h
  | get => cases h
  | refresh => cases h
  | search => cases h

/-- All that such a call files is the tiddler it adds, at once. -/
theorem Call.ByTitle.of_files {c : Call} (hc : c.ByTitle) {k : Cause} {resolver : Resolver}
    {t : Tiddler} (h : c.Files k resolver t) : k = .called ∧ c = .add t ∧ t.IsBagged := by
  cases h with
  | given h => exact ⟨rfl, hc.of_added? h⟩
  | placedAtOnce h hbag => exact absurd hbag (hc.of_added? h).2.bag_ne_none
  | placed h hbag => exact absurd hbag (hc.of_added? h).2.bag_ne_none

/-- What a lookup finds among the edits is pending. -/
theorem Store.Sound.pending_of_get? {s : Store} (h : s.Sound) {w t : Tiddler}
    (ht : s.modified.get? w = some t) : s.Pending t.asEdit := by
  have hget := (h.modified.of_get? ht).1
  have hstamp := h.modified.stamped hget
  rw [h.kind_modified] at hstamp
  rw [Tiddler.asEdit_of_not_synced hstamp]
  exact Tier.holds_of_get? hget

namespace Activity

/-- Whether a copy in flight is an edit that was pending when it was sent, in a named bag. -/
def Phase.SentAsPending : Phase → Prop
  | .asking (.put t) since _ => t.IsBagged ∧ since.Pending t.asEdit
  | .asking .. => True
  | _ => False

/-- What holds of an activity that such moves lead to. -/
structure Direct (a : Activity) : Prop where
  sound : a.Sound
  silent : a.store.audience.Silent
  resolved : ∃ d, a.store.resolver = .resolved d
  bagged : ∀ k t, a.store.modified.entries.get? k = some t → t.IsBagged
  sent : ∀ {id t}, a.tasks id = some t → t.phase.SentAsPending

theorem direct_start (config : Config) (clock : Instant) (d : Defaults) (cache : Cache) :
    (start config clock (some d) cache).Direct :=
  ⟨sound_start config clock (some d) cache, Audience.silent_empty, ⟨d, rfl⟩,
    fun _ _ ht => absurd ht.symm (Option.some_ne_none _),
    fun ht => absurd ht.symm (Option.some_ne_none _)⟩

/-- Nobody waits for the defaults where they are known. -/
theorem Direct.not_resolved {a b : Activity} (ha : a.Direct) {id : TaskId} {c : Call} {k : Cause}
    (h : Step a (.go id c k) b) : ∀ result, k ≠ .resolved result := by
  rintro result rfl
  cases h with
  | learn ht _ => exact ha.sent ht
  | informed ht => exact ha.sent ht
  | retry ht _ => exact ha.sent ht

/-- What such a call has sent is the edit that it has found, as it is. -/
theorem sentAsPending_of_edits {c : Call} (hc : c.ByTitle) {k : Cause}
    (hk : ∀ result, k ≠ .resolved result) {s₀ s : Store} {t : Tiddler}
    (h : c.Edits k s₀ s (.asks (.put t))) (hs : s₀.Sound)
    (hbagged : ∀ k u, s₀.modified.entries.get? k = some u → u.IsBagged) :
    t.IsBagged ∧ s.Pending t.asEdit := by
  cases hc with
  | add hb => cases h
  | save title =>
    cases h with
    | sends ht _ =>
      have hget : s₀.modified.get? { title } = some t := ht
      exact ⟨hbagged _ _ (hs.modified.of_get? hget).1, hs.pending_of_get? hget⟩
    | @places _ u _ hu hplace _ =>
      have hget : s₀.modified.get? { title } = some u := hu
      exact absurd (hbagged _ _ (hs.modified.of_get? hget).1).hasContainer hplace
    | resumes _ => exact absurd rfl (hk _)
  | destroy target => cases h
  | get target options => exact absurd (h.2 _ rfl) id
  | refresh => exact absurd (h.2 _ rfl) id
  | search query => exact absurd (h.2 _ rfl) id

theorem Direct.sent_of_step {a b : Activity} (ha : a.Direct) {id : TaskId} {c : Call}
    {since : Store} {t : Tiddler} {answer : Except RemoteError Tiddler}
    (h : Step a (.go id c (.answered since (.put t) answer)) b) :
    t.IsBagged ∧ since.Pending t.asEdit := by
  cases h with
  | answer ht _ => exact ha.sent ht

theorem Direct.go {a b : Activity} (ha : a.Direct) {id : TaskId} {c : Call} {k : Cause}
    (h : Step a (.go id c k) b) (hc : c.ByTitle) : b.Direct := by
  have hk := ha.not_resolved h
  obtain ⟨s₀, s, halt, hedits, ⟨resolver, rfl, hbefore⟩, ⟨resolver', hafter, hsame⟩, hrests⟩ :=
    h.went ha.sound
  obtain rfl := hbefore hk
  obtain ⟨d, hd⟩ := ha.resolved
  have hs := ha.sound.store.withResolver a.store.resolver
  have hresolver : s.resolver = .resolved d := (Call.steady_of_edits hedits hs).resolver.trans hd
  have hwaits : halt ≠ .waits := by
    rintro rfl
    generalize b.tasks id = task at hrests
    cases hrests with
    | queued hne _ => exact hne d hresolver
    | discovering hne _ => exact hne d hresolver
  refine ⟨h.sound ha.sound, ?_, ⟨d, ?_⟩, ?_, ?_⟩
  · rw [h.audience_of_go ha.sound ha.silent]
    exact ha.silent
  · rw [hafter, Store.resolver_withResolver, hsame hwaits, hresolver]
  · intro key t ht
    rw [hafter] at ht
    rcases Call.editsFrom hedits hs key t ht with hold | ⟨hfiles⟩ | ⟨rfl⟩
    · exact ha.bagged key t hold
    · exact (hc.of_files hfiles).2.2
    · exact (ha.sent_of_step h).1
  · intro x task ht
    by_cases hx : x = id
    · subst hx
      rw [ht] at hrests
      cases hrests with
      | @asking r next =>
        cases r with
        | put t => exact sentAsPending_of_edits hc hk hedits hs ha.bagged
        | _ => trivial
      | queued _ _ => exact absurd rfl hwaits
      | discovering _ _ => exact absurd rfl hwaits
    · rw [h.tasks_of_ne hk hx] at ht
      exact ha.sent ht

theorem Direct.step {a b : Activity} {m : Move} (ha : a.Direct) (h : Step a m b) (hm : m.ByTitle) :
    b.Direct := by
  cases m with
  | go id c k => exact ha.go h hm
  | again id =>
    cases h with
    | again ht _ _ => exact (ha.sent ht).elim
  | drop id =>
    have hsound := h.sound ha.sound
    cases h with
    | @drop _ t ht =>
      have hphase := ha.sent ht
      have hrelease : t.phase.release id a.store.resolver = a.store.resolver := by
        obtain ⟨c, phase⟩ := t
        cases phase with
        | asking r since next => rfl
        | discovering next => exact hphase.elim
        | queued next => exact hphase.elim
        | informed result next => exact hphase.elim
      refine ⟨hsound, ha.silent, ?_, ha.bagged, ?_⟩
      · rw [Store.resolver_withResolver, hrelease]
        exact ha.resolved
      · intro x u hu
        have hupdate : Function.update a.tasks id none x = some u := hu
        by_cases hx : x = id
        · rw [hx, Function.update_self] at hupdate
          contradiction
        · rw [Function.update_of_ne hx] at hupdate
          exact ha.sent hupdate
  | deed d =>
    have hsound := h.sound ha.sound
    cases h with
    | deed _ =>
      cases d with
      | remove target =>
        have hsteady := ha.sound.store.steady.remove target
        refine ⟨hsound, ?_, ?_, ?_, ha.sent⟩
        · show (a.store.remove target).2.audience.Silent
          rw [hsteady.silent ha.silent]
          exact ha.silent
        · obtain ⟨defaults, hd⟩ := ha.resolved
          exact ⟨defaults, hsteady.resolver.trans hd⟩
        · intro key t ht
          have hfrom : a.store.EditsFrom (fun _ => False) (a.store.remove target).2 :=
            ((Store.EditsFrom.refl _ _).dropping _).spares (Store.quiet_remove _ target).toSpares
          exact ha.bagged key t ((hfrom key t ht).resolve_right id)
      | _ => exact hm.elim

theorem Direct.run {a b : Activity} {h : List Transition} (ha : a.Direct) (hrun : Run a h b)
    (hm : ∀ tr ∈ h, tr.move.ByTitle) : b.Direct ∧ ∀ tr ∈ h, tr.before.Direct :=
  hrun.throughout ha fun tr htr hstep hdirect => hdirect.step hstep (hm tr htr)

/-- What ends an edit for a good reason: the server has stored exactly its content, or its title is
removed or is to be deleted. -/
inductive Settles (e : Tiddler) : Move → Prop
  | stored {id : TaskId} {c : Call} {since : Store} {t response : Tiddler}
    (h : t.asEdit.sameAs e) : Settles e (.go id c (.answered since (.put t) (.ok response)))
  | removed {target : Tiddler.Target} (h : target.name = e.title) :
    Settles e (.deed (.remove target))
  | destroyed {id : TaskId} {target : Tiddler.Target} (h : target.name = e.title) :
    Settles e (.go id (.destroy target) .called)

/-- Whether a move is the answer that a title has been deleted. -/
inductive Deletes (title : String) : Move → Prop
  | deleted {id : TaskId} {target : Tiddler.Target} {since : Store} {t : Tiddler}
    (h : target.name = title) :
    Deletes title (.go id (.destroy target) (.answered since (.delete t) (.ok ())))

theorem Direct.not_loses {a b : Activity} (ha : a.Direct) {m : Move} (h : Step a m b)
    (hm : m.ByTitle) {first : TaskId} {e : Tiddler} (hd : ¬Deletes e.title m)
    (hlast : ∀ x t, m = .go x (.add t) .called → t.key ≠ e.key) : ¬Loses first e ⟨a, m, b⟩ := by
  intro hloses
  cases hloses with
  | acknowledged hbefore _ hne => exact hne (hbefore.sameAs (ha.sent_of_step h).2 rfl)
  | restored hbefore _ hne => exact hne (hbefore.sameAs (ha.sent_of_step h).2 rfl)
  | deleted _ hnow =>
    refine hd (.deleted ?_)
    rw [← h.title_of_deleted ha.sound]
    exact hnow.title_eq ha.sound.store
  | overtaken _ hfiles hkey _ =>
    obtain ⟨rfl, rfl, -⟩ := hm.of_files hfiles
    exact hlast _ _ rfl hkey
  | reloaded _ => exact hm

theorem Direct.not_excuses {a b : Activity} (ha : a.Direct) {m : Move} (h : Step a m b)
    (hm : m.ByTitle) {first : TaskId} {e : Tiddler} (hs : ¬Settles e m)
    (hlast : ∀ x t, m = .go x (.add t) .called → t.key ≠ e.key) : ¬Excuses first e ⟨a, m, b⟩ := by
  intro hexcuses
  cases hexcuses with
  | replaced _ hfiles hkey _ =>
    obtain ⟨rfl, rfl, -⟩ := hm.of_files hfiles
    exact hlast _ _ rfl hkey
  | removed hname => exact hs (.removed hname)
  | withdrawn hwithdrawn =>
    have haudience : b.store.audience = a.store.audience := by
      apply h.audience_of_silent ha.sound ha.silent
      rintro d rfl
      cases d with
      | remove target => exact ⟨target, rfl⟩
      | _ => exact hm.elim
    exact Store.not_mem_withdrawnSince haudience _ hwithdrawn
  | destroyed hname => exact hs (.destroyed hname)
  | stored hsame => exact hs (.stored hsame)

/-- What was last added under a bag and a title is pending, or since then the server has stored it,
or its title has been removed, was to be deleted or has been deleted. -/
theorem pending_of_last_add {config : Config} {clock : Instant} {d : Defaults} {cache : Cache}
    {h₁ h₂ : List Transition} {a a' b : Activity} {id : TaskId} {t : Tiddler}
    (hrun : Run (start config clock (some d) cache)
      (h₁ ++ ⟨a, .go id (.add t) .called, a'⟩ :: h₂) b)
    (hmoves : ∀ tr ∈ h₁ ++ ⟨a, .go id (.add t) .called, a'⟩ :: h₂, tr.move.ByTitle)
    (hlast : ∀ tr ∈ h₂, ∀ x u, tr.move = .go x (.add u) .called → u.key ≠ t.key) :
    b.store.Pending t.asEdit ∨
      ∃ tr ∈ h₂, Settles t.asEdit tr.move ∨ Deletes t.title tr.move := by
  obtain ⟨_, hrun₁, hrun'⟩ := hrun.split
  cases hrun' with
  | cons hadd hrun₂ =>
    have hmoves₁ : ∀ tr ∈ h₁, tr.move.ByTitle :=
      fun tr htr => hmoves tr (List.mem_append_left _ htr)
    have hmove : (Move.go id (.add t) .called).ByTitle :=
      hmoves ⟨a, .go id (.add t) .called, a'⟩ (List.mem_append_right _ List.mem_cons_self)
    have hmoves₂ : ∀ tr ∈ h₂, tr.move.ByTitle :=
      fun tr htr => hmoves tr (List.mem_append_right _ (List.mem_cons_of_mem _ htr))
    have ha : a.Direct := ((direct_start config clock d cache).run hrun₁ hmoves₁).1
    have ha' : a'.Direct := ha.step hadd hmove
    have hdirect := (ha'.run hrun₂ hmoves₂).2
    have hbagged : t.IsBagged := by
      cases hmove with
      | add hb => exact hb
    have hpending : a'.store.Pending t.asEdit := by
      apply hadd.pending_of_added ha.sound rfl hbagged
      exact Store.not_mem_withdrawnSince (hadd.audience_of_go ha.sound ha.silent) t.title
    by_contra hnot
    rw [not_or, not_exists] at hnot
    have hnone : ∀ tr ∈ h₂, ¬Settles t.asEdit tr.move ∧ ¬Deletes t.title tr.move :=
      fun tr htr => not_or.1 fun h => hnot.2 tr ⟨htr, h⟩
    refine hnot.1 (hrun₂.pending ha'.sound hbagged.asEdit hpending
      (sparesTitle_fresh ha'.sound t.title) ?_ ?_).1
    · intro tr htr
      exact (hdirect tr htr).not_excuses (hrun₂.step_of_mem htr) (hmoves₂ tr htr) (hnone tr htr).1
        (hlast tr htr)
    · intro tr htr
      exact (hdirect tr htr).not_loses (hrun₂.step_of_mem htr) (hmoves₂ tr htr) (hnone tr htr).2
        (hlast tr htr)

/-- While the older of two edits of a title is saved, the newer one stays pending. -/
theorem pending_of_add_during_save :
    ∃ (a b : Activity) (since : Store) (older newer : Tiddler), a.Reachable ∧
      older.key = newer.key ∧ since.Pending older ∧
      Step a (.go 1 (.save (.title "T")) (.answered since (.put older) (.ok older))) b ∧
      b.store.Pending newer := by
  let older := Tiddler.draft "notes" "one"
  let newer := Tiddler.draft "notes" "two"
  let target : Tiddler.Target := .title "T"
  let a₀ := start {} ⟨0, 0⟩ (some (.single (.bag "notes"))) .none
  let a₁ := a₀.added older
  have hsilent : a₁.store.audience.Silent := Audience.silent_empty
  have hreach₀ : a₀.Reachable := .start _ _ _ _
  have hreach₁ : a₁.Reachable := hreach₀.added hsilent rfl
  have hfound : target.given?.or (a₁.store.modified.get? target.wanted) = some older := by
    decide +kernel
  obtain ⟨next, hsave⟩ :=
    exists_step_asked (a := a₁) (c := .save target) (proceed_save target hfound rfl)
  have hreach₂ := hreach₁.step hsave
  have hadd := step_added hreach₂.sound hsilent (t := newer) rfl
  have htask : ((a₁.asked (.save target) (.put older) next).added newer).tasks 1 =
      some ⟨.save target, .asking (.put older) a₁.store next⟩ := rfl
  have hstep := step_reply htask Request.granted
  have hrun : Run a₀ ([⟨a₀, .go 0 (.add older) .called, a₁⟩,
      ⟨a₁, .go 1 (.save target) .called, _⟩] ++
      ⟨_, .go 2 (.add newer) .called, _⟩ :: [⟨_, _, _⟩]) _ :=
    .cons (step_added hreach₀.sound hsilent rfl) (.cons hsave (.cons hadd (.cons hstep (.nil _))))
  refine ⟨_, _, a₁.store, older, newer, hreach₂.step hadd, rfl,
    Store.pending_withEdit_self _ older, hstep, ?_⟩
  have hends := pending_of_last_add hrun ?_ ?_
  · rcases hends with hpending | ⟨tr, htr, hends⟩
    · exact hpending
    · rw [List.mem_singleton.1 htr] at hends
      rcases hends with ⟨⟨hsame⟩⟩ | ⟨⟨⟩⟩
      exact absurd hsame (by decide)
  · intro tr htr
    simp only [List.cons_append, List.nil_append, List.mem_cons, List.not_mem_nil, or_false] at htr
    rcases htr with rfl | rfl | rfl | rfl
    · exact .add (by decide)
    · exact .save _
    · exact .add (by decide)
    · exact .save _
  · intro tr htr x u hmove
    rw [List.mem_singleton.1 htr] at hmove
    cases hmove

/-- What is added while its title is deleted on the server can be gone in the end, though nothing
has been stored, removed or asked to be deleted since then. -/
theorem add_during_delete_lost :
    ¬∀ {config : Config} {clock : Instant} {d : Defaults} {cache : Cache}
      {h₁ h₂ : List Transition} {a a' b : Activity} {id : TaskId} {t : Tiddler},
      Run (start config clock (some d) cache) (h₁ ++ ⟨a, .go id (.add t) .called, a'⟩ :: h₂) b →
      (∀ tr ∈ h₁ ++ ⟨a, .go id (.add t) .called, a'⟩ :: h₂, tr.move.ByTitle) →
      (∀ tr ∈ h₂, ∀ x u, tr.move = .go x (.add u) .called → u.key ≠ t.key) →
      b.store.Pending t.asEdit ∨ ∃ tr ∈ h₂, Settles t.asEdit tr.move := by
  intro hclaim
  let listed := Tiddler.draft "notes" "one"
  let newer := Tiddler.draft "notes" "two"
  let target : Tiddler.Target := .document listed
  let confirmed : Tiddler := { listed with lastSync := some ⟨0, 0⟩ }
  let a₀ := start {} ⟨0, 0⟩ (some (.single (.bag "notes"))) .none
  let a₁ := a₀.call (.get target {})
  let a₂ := a₁.reply 0 Request.granted
  have hreach₀ : a₀.Reachable := .start _ _ _ _
  have hget : Step a₀ (.go 0 (.get target {}) .called) a₁ := step_call a₀ _
  obtain ⟨next, htask₁⟩ : ∃ next, a₁.tasks 0 =
      some ⟨.get target {}, .asking (.get listed false) a₀.store next⟩ := ⟨_, rfl⟩
  have hgot : Step a₁ _ a₂ := step_reply htask₁ Request.granted
  have hreach₁ : a₁.Reachable := hreach₀.step hget
  have hreach₂ : a₂.Reachable := hreach₁.step hgot
  have hsilent : a₁.store.audience.Silent := Audience.silent_empty
  have hsilent₂ : a₂.store.audience.Silent := by
    rw [hgot.audience_of_go hreach₁.sound hsilent]
    exact hsilent
  have hfound :
      (a₂.store.synced.get? target.wanted).filter Tiddler.hasContainer = some confirmed := by
    have hfiled : a₂.store.synced.get? target.wanted = some confirmed :=
      Tier.get?_of_key (Tier.get?_file_self a₁.store.synced confirmed)
    rw [hfiled]
    rfl
  obtain ⟨next', hdestroy⟩ := exists_step_asked (c := .destroy target) (proceed_destroy hfound)
  have hreach₃ := hreach₂.step hdestroy
  have hadd := step_added hreach₃.sound hsilent₂ (t := newer) rfl
  have htask : ((a₂.asked (.destroy target) (.delete confirmed) next').added newer).tasks 1 =
      some ⟨.destroy target, .asking (.delete confirmed) a₂.store next'⟩ := rfl
  have hdeleted := step_reply htask Request.granted
  have hreach := hreach₃.step hadd
  have hnewer : ((a₂.asked (.destroy target) (.delete confirmed) next').added newer).store.Pending
      newer.asEdit := Store.pending_withEdit_self _ newer
  have hlost := (hdeleted.fate (e := newer.asEdit) hreach.sound (by decide) hnewer).kept
  have hrun : Run a₀ ([⟨a₀, .go 0 (.get target {}) .called, a₁⟩, ⟨a₁, _, a₂⟩,
      ⟨a₂, .go 1 (.destroy target) .called, _⟩] ++
      ⟨_, .go 2 (.add newer) .called, _⟩ :: [⟨_, _, _⟩]) _ :=
    .cons hget (.cons hgot (.cons hdestroy (.cons hadd (.cons hdeleted (.nil _)))))
  have hends := hclaim hrun ?_ ?_
  · rcases hends with hpending | ⟨tr, htr, hsettles⟩
    · exact hlost hpending (.deletes (hnewer.standsFor rfl))
    · rw [List.mem_singleton.1 htr] at hsettles
      rcases hsettles with ⟨⟩
  · intro tr htr
    simp only [List.cons_append, List.nil_append, List.mem_cons, List.not_mem_nil, or_false] at htr
    rcases htr with rfl | rfl | rfl | rfl | rfl
    · exact .get _ _
    · exact .get _ _
    · exact .destroy _
    · exact .add (by decide)
    · exact .destroy _
  · intro tr htr x u hmove
    rw [List.mem_singleton.1 htr] at hmove
    cases hmove

end Activity

end TiddlerShelf
