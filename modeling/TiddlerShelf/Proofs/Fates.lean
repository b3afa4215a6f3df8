import TiddlerShelf.Proofs.Invariants

/-! # How calls take edits away

A stretch of work takes a pending edit away in five ways, and in no other: it files something else
under the key of the edit, it takes the edit for the copy that the server has stored, it puts a
copy back in the place of the edit, or it forgets the edit, at once or when the server has deleted
what it stands for. `Call.fate` says so for every stretch of every call. -/

namespace TiddlerShelf

open Program

namespace Call

/-- The tiddler that a call adds. -/
def added? : Call → Option Tiddler
  | add t | addToCollection _ t => some t
  | _ => none

/-- What a stretch of a call files among the edits, given how far finding out the defaults is. -/
inductive Files : Call → Cause → Resolver → Tiddler → Prop
  | given {c : Call} {resolver : Resolver} {t : Tiddler} (h : c.added? = some t) :
    Files c .called resolver t
  | placedAtOnce {c : Call} {t : Tiddler} {d : Defaults} (h : c.added? = some t)
    (hbag : t.bag = none) : Files c .called (.resolved d) (t.placeIn d.pushTo)
  | placed {c : Call} {resolver : Resolver} {t : Tiddler} {d : Defaults} (h : c.added? = some t)
    (hbag : t.bag = none) : Files c (.resolved (.ok d)) resolver (t.placeIn d.pushTo)

/-- How a stretch of a call that begins in a store takes a pending edit away. -/
inductive Takes (e : Tiddler) : Call → Cause → Store → Prop
  /-- Something else is filed under its key. -/
  | replaces {c : Call} {k : Cause} {s : Store} {t : Tiddler} (hfiles : c.Files k s.resolver t)
    (hkey : t.key = e.key) (hne : ¬t.asEdit.sameAs e) : Takes e c k s
  /-- It stands for a copy that the server has stored, as it did when that was sent. -/
  | acknowledges {c : Call} {s since : Store} {t response : Tiddler}
    (hbefore : since.StandsFor e t) (hnow : s.StandsFor e t) :
    Takes e c (.answered since (.put t) (.ok response)) s
  /-- A copy comes back to its key, for which it stood when that was sent. -/
  | restores {c : Call} {s since : Store} {t : Tiddler} {cause : RemoteError}
    (hbefore : since.StandsFor e t) (hkey : t.key = e.key) (hne : ¬t.asEdit.sameAs e) :
    Takes e c (.answered since (.put t) (.error cause)) s
  /-- It is deleted where there is no confirmed copy to delete. -/
  | forgets {target : Tiddler.Target} {s : Store} {edit : Tiddler}
    (hsynced : (s.synced.get? target.wanted).filter Tiddler.hasContainer = none)
    (hedit : s.modified.get? target.wanted = some edit) (hnow : s.StandsFor e edit) :
    Takes e (.destroy target) .called s
  /-- It stands for a tiddler that the server has deleted. -/
  | deletes {target : Tiddler.Target} {s since : Store} {t : Tiddler} (hnow : s.StandsFor e t) :
    Takes e (.destroy target) (.answered since (.delete t) (.ok ())) s

/-- What the answer to a copy that was sent takes away stood for that copy when it was sent. -/
theorem Takes.standsFor {e t : Tiddler} {c : Call} {s since : Store}
    {answer : Except RemoteError Tiddler}
    (h : Takes e c (.answered since (.put t) answer) s) : since.StandsFor e t := by
  cases h with
  | replaces hfiles _ _ => nomatch hfiles
  | acknowledges hbefore _ => exact hbefore
  | restores hbefore _ _ => exact hbefore

theorem files_called_iff {c : Call} {resolver : Resolver} {t x : Tiddler}
    (hc : c.added? = some t) :
    c.Files .called resolver x ↔
      x = t ∨ t.bag = none ∧ ∃ d, resolver = .resolved d ∧ x = t.placeIn d.pushTo := by
  constructor
  · intro hfiles
    cases hfiles with
    | given h => exact .inl (Option.some.inj (h.symm.trans hc))
    | placedAtOnce h hbag =>
      rw [hc] at h
      obtain rfl := Option.some.inj h
      exact .inr ⟨hbag, _, rfl, rfl⟩
  · rintro (rfl | ⟨hbag, d, rfl, rfl⟩)
    · exact .given hc
    · exact .placedAtOnce hc hbag

theorem files_resolved_iff {c : Call} {result : Except StoreError Defaults} {resolver : Resolver}
    {t x : Tiddler} (hc : c.added? = some t) :
    c.Files (.resolved result) resolver x ↔
      t.bag = none ∧ ∃ d, result = .ok d ∧ x = t.placeIn d.pushTo := by
  constructor
  · intro hfiles
    cases hfiles with
    | placed h hbag =>
      rw [hc] at h
      obtain rfl := Option.some.inj h
      exact ⟨hbag, _, rfl, rfl⟩
  · rintro ⟨hbag, d, rfl, rfl⟩
    exact .placed hc hbag

theorem added?_of_files {c : Call} {k : Cause} {resolver : Resolver} {x : Tiddler}
    (h : c.Files k resolver x) : c.added?.isSome := by
  cases h with
  | given h => exact h ▸ rfl
  | placedAtOnce h _ => exact h ▸ rfl
  | placed h _ => exact h ▸ rfl

/-- Filing a tiddler takes an edit away unless it has another key or the same content. -/
theorem kept_iff {e t : Tiddler} {kept : Prop} (hk : kept) :
    t.asEdit.sameAs e ∨ e.key ≠ t.key ∧ kept ↔ (t.key = e.key → t.asEdit.sameAs e) := by
  constructor
  · intro h hkey
    rcases h with hsame | ⟨hne, -⟩
    · exact hsame
    · exact absurd hkey.symm hne
  · intro h
    by_cases hkey : t.key = e.key
    · exact .inl (h hkey)
    · exact .inr ⟨fun hk => hkey hk.symm, hk⟩

/-- An add takes an edit away exactly by filing something else under its key. -/
theorem fate_of_addEdits {e t : Tiddler} {k : Cause} {s₀ s : Store} {halt : Halt} {c : Call}
    (hc : c.added? = some t) (h : AddEdits t k s₀ s halt) (hs : s₀.Sound) (hb : e.IsBagged)
    (he : s₀.Pending e) :
    Store.Fate e s₀ s (∀ x, c.Files k s₀.resolver x → x.key = e.key → x.asEdit.sameAs e) := by
  have hgiven : (t.bag = none → ∀ d, s₀.resolver ≠ .resolved d) →
      Store.Fate e s₀ (s₀.fileModified t).2
        (∀ x, c.Files .called s₀.resolver x → x.key = e.key → x.asEdit.sameAs e) := by
    intro hwait
    refine ((Store.Fate.refl e s₀).fileModified hs hb t).congr ((kept_iff he).trans ?_)
    simp only [files_called_iff hc]
    constructor
    · rintro hkept x (rfl | ⟨hbag, d, hd, -⟩)
      · exact hkept
      · exact absurd hd (hwait hbag d)
    · intro hkept
      exact hkept t (.inl rfl)
  cases h with
  | files hbag =>
    apply hgiven
    intro hnone
    rw [hnone] at hbag
    contradiction
  | filesAndWaits _ hne => exact hgiven fun _ => hne
  | @filesAndPlaces _ d hbag hd =>
    have hkey : e.key ≠ t.key := hb.key_ne_of_bag_eq_none hbag
    have hfiled := (Store.Fate.refl e s₀).fileModified hs hb t
    have hmoved := hfiled.spares (hs.fileModified t) (Store.quiet_moveTo _ d.pullFrom).toSpares
    have hplaced := hmoved.fileModified
      ((Store.quiet_moveTo _ _).sound (hs.fileModified t)) hb (t.placeIn d.pushTo)
    refine hplaced.congr ((kept_iff (.inr ⟨hkey, he⟩)).trans ?_)
    simp only [files_called_iff hc]
    constructor
    · rintro hkept x (rfl | ⟨-, d', hd', rfl⟩)
      · intro hk
        exact absurd hk.symm hkey
      · rw [hd] at hd'
        obtain rfl := Resolver.resolved.inj hd'
        exact hkept
    · intro hkept
      exact hkept _ (.inr ⟨hbag, d, hd, rfl⟩)
  | @places _ d hbag =>
    have hmoved := (Store.Fate.refl e s₀).spares hs (Store.quiet_moveTo _ d.pullFrom).toSpares
    have hplaced := hmoved.fileModified ((Store.quiet_moveTo _ _).sound hs) hb (t.placeIn d.pushTo)
    refine hplaced.congr ((kept_iff he).trans ?_)
    simp only [files_resolved_iff hc]
    constructor
    · rintro hkept x ⟨-, d', hd', rfl⟩
      obtain rfl := Except.ok.inj hd'
      exact hkept
    · intro hkept
      exact hkept _ ⟨hbag, d, rfl, rfl⟩
  | fails hbag =>
    refine (Store.Fate.refl e s₀).congr (iff_of_true he ?_)
    simp only [files_resolved_iff hc]
    rintro x ⟨-, d, hd, -⟩
    contradiction

/-- What is added to a named bag is pending, unless a listener has its title withdrawn. -/
theorem pending_of_addEdits {t : Tiddler} {s₀ s : Store} {halt : Halt}
    (h : AddEdits t .called s₀ s halt) (hs : s₀.Sound) (hb : t.IsBagged)
    (hnot : t.title ∉ s₀.withdrawnSince s) : s.Pending t.asEdit := by
  cases h with
  | files _ => exact Store.pending_fileModified hs hnot
  | filesAndWaits hnone _ => exact absurd hnone hb.bag_ne_none
  | filesAndPlaces hnone _ => exact absurd hnone hb.bag_ne_none

/-- A call that adds nothing and deletes nothing takes no edit away before the server answers. -/
theorem not_takes_of_called {e : Tiddler} {c : Call} {s : Store} (hc : c.added? = none)
    (hd : ∀ target, c ≠ destroy target) : ¬Takes e c .called s := by
  intro htakes
  cases htakes with
  | replaces hfiles _ _ =>
    rw [← Option.not_isSome_iff_eq_none] at hc
    exact hc (added?_of_files hfiles)
  | forgets _ _ _ => exact hd _ rfl

theorem not_takes_of_resolved {e : Tiddler} {c : Call} {s : Store}
    {result : Except StoreError Defaults} (hc : c.added? = none) :
    ¬Takes e c (.resolved result) s := by
  intro htakes
  cases htakes with
  | replaces hfiles _ _ =>
    rw [← Option.not_isSome_iff_eq_none] at hc
    exact hc (added?_of_files hfiles)

/-- The answer to a copy that was sent takes an edit away as an acknowledgement does, or as a copy
that comes back does. -/
theorem fate_of_afterPut {e : Tiddler} {c : Call} {s : Store} (h : s.Sound) (hb : e.IsBagged)
    (he : s.Pending e) (since : Store) (t : Tiddler) (answer : Except RemoteError Tiddler) :
    Store.Fate e s (s.afterPut since t answer)
      (¬Takes e c (.answered since (.put t) answer) s) := by
  cases answer with
  | ok response =>
    refine (Store.fate_acknowledge h he since t response).congr (not_congr ?_)
    constructor
    · rintro ⟨hbefore, hnow⟩
      exact .acknowledges hbefore hnow
    · intro htakes
      cases htakes with
      | replaces hfiles _ _ => nomatch hfiles
      | acknowledges hbefore hnow => exact ⟨hbefore, hnow⟩
  | error cause =>
    refine (Store.fate_takeBack h hb he since t).congr (not_congr ?_)
    constructor
    · rintro ⟨hbefore, hkey, hne⟩
      exact .restores hbefore hkey hne
    · intro htakes
      cases htakes with
      | replaces hfiles _ _ => nomatch hfiles
      | restores hbefore hkey hne => exact ⟨hbefore, hkey, hne⟩

/-- What spares the edits, and takes none of them away, is what becomes of an edit. -/
theorem fate_of_spares {e : Tiddler} {c : Call} {k : Cause} {s₀ s : Store} (h : s₀.Spares s)
    (hs : s₀.Sound) (he : s₀.Pending e) (hnot : ¬Takes e c k s₀) :
    Store.Fate e s₀ s (¬Takes e c k s₀) :=
  ((Store.Fate.refl e s₀).spares hs h).congr (iff_of_true he hnot)

theorem fate_of_saved {e : Tiddler} {c : Call} {k : Cause} {s₀ s : Store} (hc : c.added? = none)
    (hd : ∀ target, c ≠ destroy target) (h : Saved k s₀ s) (hs : s₀.Sound) (hb : e.IsBagged)
    (he : s₀.Pending e) : Store.Fate e s₀ s (¬Takes e c k s₀) := by
  cases h with
  | called h => exact fate_of_spares h.toSpares hs he (not_takes_of_called hc hd)
  | resolved h => exact fate_of_spares h.toSpares hs he (not_takes_of_resolved hc)
  | @answered _ _ since t answer h =>
    have hput := fate_of_afterPut hs hb he (c := c) since t answer
    exact hput.spares (hs.steady.afterPut since t answer).sound h.toSpares

theorem fate_of_destroyEdits {e : Tiddler} {target : Tiddler.Target} {k : Cause} {s₀ s : Store}
    {halt : Halt} (h : DestroyEdits target k s₀ s halt) (hs : s₀.Sound) (he : s₀.Pending e) :
    Store.Fate e s₀ s (¬Takes e (destroy target) k s₀) := by
  cases h with
  | asks hsynced =>
    apply fate_of_spares (.refl s₀) hs he
    intro htakes
    cases htakes with
    | replaces hfiles _ _ => exact absurd (added?_of_files hfiles) Bool.false_ne_true
    | forgets hnone _ _ =>
      rw [hsynced] at hnone
      contradiction
  | forgets hsynced hedit =>
    refine (Store.fate_forget hs he _).congr (not_congr ?_)
    constructor
    · exact .forgets hsynced hedit
    · intro htakes
      cases htakes with
      | replaces hfiles _ _ => exact absurd (added?_of_files hfiles) Bool.false_ne_true
      | forgets _ hedit' hnow =>
        rw [hedit] at hedit'
        exact Option.some.inj hedit' ▸ hnow
  | nothing hsynced hnone =>
    apply fate_of_spares (.refl s₀) hs he
    intro htakes
    cases htakes with
    | replaces hfiles _ _ => exact absurd (added?_of_files hfiles) Bool.false_ne_true
    | forgets _ hedit _ =>
      rw [hnone] at hedit
      contradiction
  | deleted hsynced =>
    refine (Store.fate_forget hs he _).congr (not_congr ⟨.deletes, ?_⟩)
    intro htakes
    cases htakes with
    | replaces hfiles _ _ => nomatch hfiles
    | deletes hnow => exact hnow
  | fails =>
    apply fate_of_spares (.refl s₀) hs he
    intro htakes
    cases htakes with
    | replaces hfiles _ _ => nomatch hfiles

theorem fate_of_read {e : Tiddler} {c : Call} {k : Cause} {s₀ s : Store} (hc : c.added? = none)
    (hd : ∀ target, c ≠ destroy target) (h : Read k s₀ s) (hs : s₀.Sound) (he : s₀.Pending e) :
    Store.Fate e s₀ s (¬Takes e c k s₀) := by
  cases h with
  | called h => exact fate_of_spares h.toSpares hs he (not_takes_of_called hc hd)
  | resolved h => exact fate_of_spares h.toSpares hs he (not_takes_of_resolved hc)
  | answered hr h =>
    apply fate_of_spares h.toSpares hs he
    intro htakes
    cases htakes with
    | replaces hfiles _ _ => nomatch hfiles
    | acknowledges _ _ => exact hr
    | restores _ _ _ => exact hr
    | deletes _ => exact hr

/-- What becomes of a pending edit in a stretch of a call: it is taken away in one of the ways that
`Takes` lists, or it is pending afterwards unless a listener has its title withdrawn. -/
theorem fate {c : Call} {k : Cause} {s₀ s : Store} {halt : Halt} (h : c.Edits k s₀ s halt)
    (hs : s₀.Sound) {e : Tiddler} (hb : e.IsBagged) (he : s₀.Pending e) :
    Store.Fate e s₀ s (¬Takes e c k s₀) := by
  have hadd : ∀ {t}, c.added? = some t → AddEdits t k s₀ s halt →
      Store.Fate e s₀ s (¬Takes e c k s₀) := by
    intro t hc h
    refine (fate_of_addEdits hc h hs hb he).congr ⟨?_, ?_⟩
    · intro hkept htakes
      cases htakes with
      | replaces hfiles hkey hne => exact hne (hkept _ hfiles hkey)
      | acknowledges _ _ => cases h
      | restores _ _ _ => cases h
      | forgets _ _ _ => cases hc
      | deletes _ => cases hc
    · intro hnot x hfiles hkey
      by_contra hne
      exact hnot (.replaces hfiles hkey hne)
  cases c with
  | add t => exact hadd rfl h
  | addToCollection c t => exact hadd rfl h
  | save target => exact fate_of_saved rfl (fun _ h => Call.noConfusion h) h.saved hs hb he
  | saveAll => exact fate_of_saved rfl (fun _ h => Call.noConfusion h) h.1 hs hb he
  | saveCollection c => exact fate_of_saved rfl (fun _ h => Call.noConfusion h) h.1 hs hb he
  | destroy target => exact fate_of_destroyEdits h hs he
  | getDefaults => exact fate_of_read rfl (fun _ h => Call.noConfusion h) h.1 hs he
  | get target options => exact fate_of_read rfl (fun _ h => Call.noConfusion h) h.1 hs he
  | refresh => exact fate_of_read rfl (fun _ h => Call.noConfusion h) h.1 hs he
  | search query => exact fate_of_read rfl (fun _ h => Call.noConfusion h) h.1 hs he

theorem Files.congr {c : Call} {k : Cause} {resolver resolver' : Resolver} {x : Tiddler}
    (h : c.Files k resolver x) (hr : k = .called → resolver = resolver') :
    c.Files k resolver' x := by
  cases h with
  | given h => exact .given h
  | placedAtOnce h hbag => exact hr rfl ▸ .placedAtOnce h hbag
  | placed h hbag => exact .placed h hbag

/-- Whether a stretch takes an edit away depends on the resolver only at the call. -/
theorem Takes.withResolver {e : Tiddler} {c : Call} {k : Cause} {s : Store} {resolver : Resolver}
    (h : Takes e c k s) (hr : k = .called → s.resolver = resolver) :
    Takes e c k (s.withResolver resolver) := by
  cases h with
  | replaces hfiles hkey hne => exact .replaces (hfiles.congr hr) hkey hne
  | acknowledges hbefore hnow => exact .acknowledges hbefore hnow
  | restores hbefore hkey hne => exact .restores hbefore hkey hne
  | forgets hsynced hedit hnow => exact .forgets hsynced hedit hnow
  | deletes hnow => exact .deletes hnow

end Call

/-- What becomes of a pending edit by a deed: removing its title takes it away, and so does a cache
that holds something else under its key when the edits are read from there. -/
theorem Deed.fate {d : Deed} {s : Store} (hs : s.Sound) {e : Tiddler} (hb : e.IsBagged)
    (he : s.Pending e) (hremove : ∀ target, d = .remove target → target.name ≠ e.title) :
    Store.Fate e s (d.on s) (d = .reload → Store.Outlasts e s.modified.cache.list) := by
  have hkept : d ≠ .reload →
      (s.Pending e ↔ (d = .reload → Store.Outlasts e s.modified.cache.list)) := by
    intro hne
    exact iff_of_true he fun h => absurd h hne
  have hsame : (d.on s).audience.withdrawn = s.audience.withdrawn →
      (d.on s).modified.entries = s.modified.entries → d ≠ .reload →
      Store.Fate e s (d.on s) (d = .reload → Store.Outlasts e s.modified.cache.list) := by
    intro hlog hentries hne
    have hiff : (d.on s).Pending e ↔ s.Pending e := Tier.holds_iff_of_get?_eq (by rw [hentries])
    exact Store.Fate.congr ⟨hlog ▸ List.prefix_rfl, fun h _ => hiff.2 h, hiff.1⟩ (hkept hne)
  cases d with
  | remove target =>
    exact (Store.fate_remove hs target (hremove target rfl)).congr (hkept nofun)
  | act action =>
    exact ((Store.Fate.refl e s).spares hs (Store.spares_perform s action)).congr (hkept nofun)
  | bind label c listener => exact hsame (Audience.withdrawn_bindFresh _ _ _ _) rfl nofun
  | reload => exact (Store.fate_retrieveCached hs hb he).congr ⟨fun h _ => h, fun h => h rfl⟩
  | clearCache => exact hsame rfl rfl nofun
  | shareCache cache => exact hsame rfl rfl nofun
  | takeHeard => exact hsame rfl rfl nofun

namespace Activity

/-- What has been added to a named bag is pending, unless a listener has its title withdrawn. -/
theorem Step.pending_of_added {a b : Activity} {id : TaskId} {c : Call}
    (h : Step a (.go id c .called) b) (ha : a.Sound) {t : Tiddler} (hc : c.added? = some t)
    (hb : t.IsBagged) (hnot : t.title ∉ a.store.withdrawnSince b.store) :
    b.store.Pending t.asEdit := by
  obtain ⟨s₀, s, halt, hedits, ⟨resolver, rfl, -⟩, ⟨resolver', hafter, -⟩, -⟩ := h.went ha
  have hs := ha.store.withResolver resolver
  rw [hafter] at hnot ⊢
  show s.Pending t.asEdit
  cases c with
  | add u =>
    obtain rfl := Option.some.inj hc
    exact Call.pending_of_addEdits hedits hs hb hnot
  | addToCollection c u =>
    obtain rfl := Option.some.inj hc
    exact Call.pending_of_addEdits hedits hs hb hnot
  | _ => cases hc

/-- What becomes of a pending edit when a task goes on. -/
theorem Step.fate {a b : Activity} {id : TaskId} {c : Call} {k : Cause}
    (h : Step a (.go id c k) b) (ha : a.Sound) {e : Tiddler} (hb : e.IsBagged)
    (he : a.store.Pending e) : Store.Fate e a.store b.store (¬Call.Takes e c k a.store) := by
  obtain ⟨s₀, s, halt, hedits, ⟨resolver, rfl, hbefore⟩, ⟨resolver', hafter, -⟩, -⟩ := h.went ha
  have hfate := Call.fate hedits (ha.store.withResolver resolver) hb he
  have hcalled : k = .called → resolver = a.store.resolver := by
    rintro rfl
    exact hbefore nofun
  have hiff : Call.Takes e c k (a.store.withResolver resolver) ↔ Call.Takes e c k a.store :=
    ⟨fun h => h.withResolver hcalled, fun h => h.withResolver fun hk => (hcalled hk).symm⟩
  rw [hafter]
  refine Store.Fate.congr ⟨hfate.log, hfate.pending, hfate.kept⟩ (not_congr hiff)

end Activity

end TiddlerShelf
