import TiddlerShelf.Proofs.Upkeep

/-! # What calls do to edits

The calls that a store takes from its clients and that may have to wait, and what each stretch of
their programs does to the edits. Three kinds of call change edits: adding files them, saving drops
and restores them when the server answers, and deleting drops them. All else that calls do is quiet.
`Call.keeps` says so for every call. -/

namespace TiddlerShelf

open Program

/-- A call that may have to wait. -/
inductive Call
  | getDefaults
  | get (target : Tiddler.Target) (options : Store.GetOptions)
  | add (t : Tiddler)
  | addToCollection (c : Collection) (t : Tiddler)
  | save (target : Tiddler.Target)
  | saveAll
  | saveCollection (c : Collection)
  | destroy (target : Tiddler.Target)
  | refresh
  | search (query : String)

/-- What a call gives in the end. -/
inductive Call.Outcome
  | defaults (result : Except StoreError Defaults)
  | document (result : Except StoreError Tiddler)
  | grown (result : Except StoreError Tiddler) (c : Collection)
  | saved (results : List (Except StoreError Tiddler))
  | nothingSaved (e : StoreError)
  | listed (result : Except StoreError (List Tiddler))

namespace Request

/-- Whether a request stores a tiddler. -/
def IsPut : Request → Prop
  | put _ => True
  | _ => False

/-- Whether a request changes nothing on the server. -/
def IsRead : Request → Prop
  | put _ | delete _ => False
  | _ => True

theorem Fetches.isRead {r : Request} (h : r.Fetches) : r.IsRead := by
  cases r with
  | put t => exact h
  | delete t => exact h
  | _ => trivial

end Request

namespace Call

/-- Whether a call saves tiddlers. -/
def Saves : Call → Prop
  | save _ | saveAll | saveCollection _ => True
  | _ => False

/-- The program that a call runs. -/
def program : Call → Program Outcome
  | getDefaults => Outcome.defaults <$> Store.getDefaults
  | get target options => Outcome.document <$> Store.get target options
  | add t => Outcome.document <$> Store.add t
  | addToCollection c t => (fun r => .grown r.1 r.2) <$> Store.addToCollection c t
  | save target => Outcome.document <$> Store.save target
  | saveAll =>
    (fun | .ok results => .saved results | .error e => .nothingSaved e) <$> Store.saveAll
  | saveCollection c => Outcome.saved <$> Store.saveCollection c
  | destroy target => Outcome.document <$> Store.destroy target
  | refresh => Outcome.listed <$> Store.refresh
  | search query => Outcome.listed <$> Store.search query

/-- What a store does with the help of a server keeps up an invariant all along if everything that
it may come to does. Only a search is to be remembered. -/
theorem within_of_not_search {I : Cause → Store → Store → Prop} {R : Request → Prop}
    (h : Working I R) {c : Call} (hc : ∀ query, c ≠ search query) : Within I R c.program := by
  cases c with
  | getDefaults => exact h.toPlacing.getDefaults.map
  | get target options => exact (h.toGetting.get target options).map
  | add t => exact (h.toEditing.add t).map
  | addToCollection c t => exact (h.toEditing.addToCollection c t).map
  | save target => exact (h.toSaving.save target).map
  | saveAll => exact h.toSaving.saveAll.map
  | saveCollection c => exact (h.toSaving.saveCollection c).map
  | destroy target => exact (h.toEditing.destroy target).map
  | refresh => exact h.toGetting.refresh.map
  | search query => exact absurd rfl (hc query)

theorem within_program {I : Cause → Store → Store → Prop} {R : Request → Prop} (h : Upkeep I R)
    (c : Call) : Within I R c.program := by
  cases c with
  | search query => exact (h.toReading.search query).map
  | _ => exact within_of_not_search h.toWorking nofun

/-- What adding a tiddler does: it files the tiddler as it is, and without a bag once more, in the
default container, as soon as that is known. -/
inductive AddEdits (t : Tiddler) : Contract
  | files {s : Store} (h : t.bag.isSome) : AddEdits t .called s (s.fileModified t).2 .over
  | filesAndWaits {s : Store} (h : t.bag = none) (hne : ∀ d, s.resolver ≠ .resolved d) :
    AddEdits t .called s (s.fileModified t).2 .waits
  | filesAndPlaces {s : Store} {d : Defaults} (h : t.bag = none) (hd : s.resolver = .resolved d) :
    AddEdits t .called s
      (((s.fileModified t).2.moveTo d.pullFrom).fileModified (t.placeIn d.pushTo)).2 .over
  | places {s : Store} {d : Defaults} (h : t.bag = none) :
    AddEdits t (.resolved (.ok d)) s
      ((s.moveTo d.pullFrom).fileModified (t.placeIn d.pushTo)).2 .over
  | fails {s : Store} {e : StoreError} (h : t.bag = none) :
    AddEdits t (.resolved (.error e)) s s .over

/-- What saving one tiddler does: it sends the document handed over, or the edit of a title, and
takes note of the answer. -/
inductive SaveEdits (target : Tiddler.Target) : Contract
  | sends {s : Store} {t : Tiddler}
    (h : target.given?.or (s.modified.get? target.wanted) = some t) (hc : t.hasContainer) :
    SaveEdits target .called s s (.asks (.put t))
  | places {s : Store} {t : Tiddler} {d : Defaults}
    (h : target.given?.or (s.modified.get? target.wanted) = some t) (hc : ¬t.hasContainer)
    (hd : s.resolver = .resolved d) :
    SaveEdits target .called s (s.moveTo d.pullFrom) (.asks (.put (t.placeIn d.pushTo)))
  | waits {s : Store} (hne : ∀ d, s.resolver ≠ .resolved d) : SaveEdits target .called s s .waits
  | nothing {s : Store} : SaveEdits target .called s s .over
  | resumes {s : Store} {t : Tiddler} {d : Defaults} (hc : ¬t.hasContainer) :
    SaveEdits target (.resolved (.ok d)) s (s.moveTo d.pullFrom)
      (.asks (.put (t.placeIn d.pushTo)))
  | fails {s : Store} {e : StoreError} : SaveEdits target (.resolved (.error e)) s s .over
  | answered {s since : Store} {t : Tiddler} {answer : Except RemoteError Tiddler} :
    SaveEdits target (.answered since (.put t) answer) s (s.afterPut since t answer) .over

/-- What saving many tiddlers does: each stretch takes note of the answer that it begins with, if it
begins with one, and is quiet from there on. -/
inductive Saved : Cause → Store → Store → Prop
  | called {s s' : Store} (h : s.Quiet s') : Saved .called s s'
  | resolved {s s' : Store} {result : Except StoreError Defaults} (h : s.Quiet s') :
    Saved (.resolved result) s s'
  | answered {s s' since : Store} {t : Tiddler} {answer : Except RemoteError Tiddler}
    (h : (s.afterPut since t answer).Quiet s') : Saved (.answered since (.put t) answer) s s'

/-- What deleting a tiddler does: it has the confirmed copy deleted on the server and then forgets
the tiddler. Where there is none, it forgets the edit at once. -/
inductive DestroyEdits (target : Tiddler.Target) : Contract
  | asks {s : Store} {t : Tiddler}
    (h : (s.synced.get? target.wanted).filter Tiddler.hasContainer = some t) :
    DestroyEdits target .called s s (.asks (.delete t))
  | forgets {s : Store} {edit : Tiddler}
    (hsynced : (s.synced.get? target.wanted).filter Tiddler.hasContainer = none)
    (h : s.modified.get? target.wanted = some edit) :
    DestroyEdits target .called s (s.forget edit) .over
  | nothing {s : Store} (hsynced : (s.synced.get? target.wanted).filter Tiddler.hasContainer = none)
    (h : s.modified.get? target.wanted = none) : DestroyEdits target .called s s .over
  | deleted {s since : Store} {t : Tiddler} (h : since.synced.get? target.wanted = some t) :
    DestroyEdits target (.answered since (.delete t) (.ok ())) s (s.forget t) .over
  | fails {s since : Store} {t : Tiddler} {cause : RemoteError} :
    DestroyEdits target (.answered since (.delete t) (.error cause)) s s .over

/-- What reading does: it is quiet, and it makes no request that changes the server. -/
inductive Read : Cause → Store → Store → Prop
  | called {s s' : Store} (h : s.Quiet s') : Read .called s s'
  | resolved {s s' : Store} {result : Except StoreError Defaults} (h : s.Quiet s') :
    Read (.resolved result) s s'
  | answered {s s' since : Store} {r : Request} {answer : Except RemoteError r.Reply}
    (hr : r.IsRead) (h : s.Quiet s') : Read (.answered since r answer) s s'

/-- What a call does to the edits. -/
def Edits : Call → Contract
  | add t | addToCollection _ t => AddEdits t
  | save target => SaveEdits target
  | saveAll | saveCollection _ => within Saved Request.IsPut
  | destroy target => DestroyEdits target
  | getDefaults | get .. | refresh | search _ => within Read Request.IsRead

theorem Saved.quiet {k : Cause} {s₀ s s' : Store} (h : Saved k s₀ s) (h' : s.Quiet s') :
    Saved k s₀ s' := by
  cases h with
  | called h => exact .called (h.trans h')
  | resolved h => exact .resolved (h.trans h')
  | answered h => exact .answered (h.trans h')

/-- Saving one tiddler is a case of saving many. -/
theorem SaveEdits.saved {target : Tiddler.Target} {k : Cause} {s₀ s : Store} {halt : Halt}
    (h : SaveEdits target k s₀ s halt) : Saved k s₀ s := by
  cases h with
  | sends _ _ => exact .called (.refl _)
  | places _ _ _ => exact .called (Store.quiet_moveTo _ _)
  | waits _ => exact .called (.refl _)
  | nothing => exact .called (.refl _)
  | resumes _ => exact .resolved (Store.quiet_moveTo _ _)
  | fails => exact .resolved (.refl _)
  | answered => exact .answered (.refl _)

theorem Read.quiet {k : Cause} {s₀ s s' : Store} (h : Read k s₀ s) (h' : s.Quiet s') :
    Read k s₀ s' := by
  cases h with
  | called h => exact .called (h.trans h')
  | resolved h => exact .resolved (h.trans h')
  | answered hr h => exact .answered hr (h.trans h')

/-! ## Adding -/

theorem keeps_add (t : Tiddler) (s : Store) : Keeps (AddEdits t) (Store.add t) .called s s := by
  unfold Keeps Store.add
  rw [meets_act]
  cases hbag : t.bag with
  | some bag => exact AddEdits.files (hbag ▸ rfl)
  | none =>
    refine meets_getDefaults ?_ ?_ ?_ ?_
    · intro d hd
      exact AddEdits.filesAndPlaces hbag hd
    · intro hne
      exact AddEdits.filesAndWaits hbag hne
    · intro d s'
      exact AddEdits.places hbag
    · intro e s'
      exact AddEdits.fails hbag

theorem keeps_addToCollection (c : Collection) (t : Tiddler) (s : Store) :
    Keeps (AddEdits t) (Store.addToCollection c t) .called s s := by
  unfold Keeps Store.addToCollection
  rw [meets_bind]
  exact keeps_add t s

/-! ## Saving -/

theorem keeps_send {C : Contract} {t : Tiddler} {k : Cause} {s₀ s : Store}
    (hask : C k s₀ s (.asks (.put t)))
    (hanswer : ∀ answer s', C (.answered s (.put t) answer) s' (s'.afterPut s t answer) .over) :
    Keeps C (Store.send t) k s₀ s := by
  unfold Keeps Store.send
  rw [meets_store, meets_request]
  refine ⟨hask, ?_⟩
  intro answer s'
  cases answer with
  | ok response => exact hanswer (.ok response) s'
  | error cause => exact hanswer (.error cause) s'

theorem keeps_save (target : Tiddler.Target) (s : Store) :
    Keeps (SaveEdits target) (Store.save target) .called s s := by
  unfold Keeps Store.save
  rw [meets_store]
  split
  · rename_i t ht
    unfold Store.saveTiddler
    rw [meets_bind]
    unfold Store.placed
    by_cases hc : t.hasContainer
    · rw [if_pos hc]
      exact keeps_send (.sends ht hc) fun _ _ => .answered
    · rw [if_neg hc]
      refine meets_getDefaults ?_ ?_ ?_ ?_
      · intro d hd
        exact keeps_send (.places ht hc hd) fun _ _ => .answered
      · intro hne
        exact .waits hne
      · intro d s'
        exact keeps_send (.resumes hc) fun _ _ => .answered
      · intro e s'
        exact .fails
  · split <;> exact SaveEdits.nothing

/-- What saving does to the edits is kept up all along. -/
theorem saving_saved : Saving Saved Request.IsPut where
  failed _ s := .resolved (.refl s)
  found _ s := .resolved (Store.quiet_moveTo s _)
  moveTo h _ := h.quiet (Store.quiet_moveTo _ _)
  put _ := trivial
  afterPut _ _ _ _ := .answered (.refl _)

theorem keeps_saveAll (s : Store) :
    Keeps (within Saved Request.IsPut) Store.saveAll .called s s :=
  saving_saved.saveAll.keeps (.called (.refl s))

theorem keeps_saveCollection (c : Collection) (s : Store) :
    Keeps (within Saved Request.IsPut) (Store.saveCollection c) .called s s :=
  (saving_saved.saveCollection c).keeps (.called (.refl s))

/-! ## Deleting -/

theorem keeps_destroy (target : Tiddler.Target) (s : Store) :
    Keeps (DestroyEdits target) (Store.destroy target) .called s s := by
  unfold Keeps Store.destroy
  rw [meets_store]
  split
  · rename_i t hsynced
    have hget : s.synced.get? target.wanted = some t := (Option.filter_eq_some_iff.1 hsynced).1
    rw [meets_request]
    refine ⟨.asks hsynced, ?_⟩
    intro answer s'
    cases answer with
    | error cause => exact DestroyEdits.fails
    | ok _ => exact DestroyEdits.deleted hget
  · rename_i edit hsynced hedit
    exact DestroyEdits.forgets hsynced hedit
  · rename_i hsynced hedit
    exact DestroyEdits.nothing hsynced hedit

/-! ## Reading -/

/-- What reading does to the edits is kept up all along. -/
theorem reading_read : Reading Read Request.IsRead where
  failed _ s := .resolved (.refl s)
  found _ s := .resolved (Store.quiet_moveTo s _)
  moveTo h _ := h.quiet (Store.quiet_moveTo _ _)
  fetch hr := hr.isRead
  fetched hr _ _ s := .answered hr.isRead (.refl s)
  register h _ _ := h.quiet (Store.quiet_register _ _)
  fileSynced h _ := h.quiet (Store.quiet_fileSynced _ _)
  dropGone h _ := h.quiet (Store.quiet_dropGone _ _)

/-- Every stretch of every call does to the edits what its contract says. -/
theorem keeps (c : Call) (s : Store) : Keeps c.Edits c.program .called s s := by
  have hread : ∀ {α : Type} {p : Program α}, Within Read Request.IsRead p →
      Keeps (within Read Request.IsRead) p .called s s :=
    fun h => h.keeps (.called (.refl s))
  cases c with
  | getDefaults => exact keeps_map.2 (hread reading_read.getDefaults)
  | get target options => exact keeps_map.2 (hread (reading_read.get target options))
  | add t => exact keeps_map.2 (keeps_add t s)
  | addToCollection c t => exact keeps_map.2 (keeps_addToCollection c t s)
  | save target => exact keeps_map.2 (keeps_save target s)
  | saveAll => exact keeps_map.2 (keeps_saveAll s)
  | saveCollection c => exact keeps_map.2 (keeps_saveCollection c s)
  | destroy target => exact keeps_map.2 (keeps_destroy target s)
  | refresh => exact keeps_map.2 (hread reading_read.refresh)
  | search query => exact keeps_map.2 (hread (reading_read.search query))

end Call

end TiddlerShelf
