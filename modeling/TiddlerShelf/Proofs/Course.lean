import TiddlerShelf.Proofs.Copies
import TiddlerShelf.Proofs.Invariants

/-! # The course of confirmed copies

Whatever a store does, it files in its synced tier only what the server has just given, in the same
stretch as the answer, and apart from that it only drops copies there. -/

namespace TiddlerShelf

open Program

/-- How a tier gets on that files tiddlers of a list, in any order and any number of times, and
drops tiddlers in between. -/
inductive Tier.Course (now : Instant) (ts : List Tiddler) (m : Tier) : Tier → Prop
  | refl : Course now ts m m
  | file {n : Tier} {t : Tiddler} (h : Course now ts m n) (ht : t ∈ ts) :
    Course now ts m (n.reconcile now t).tier
  | drop {n : Tier} (h : Course now ts m n) (t : Tiddler) : Course now ts m (n.remove t)

namespace Tier

variable {now : Instant} {ts : List Tiddler} {m n : Tier}

theorem Course.kind (h : Course now ts m n) : n.kind = m.kind := by
  induction h with
  | refl => rfl
  | file _ _ ih => exact (kind_file _ _).trans ih
  | drop _ _ ih => exact ih

theorem Course.sound (h : Course now ts m n) (hm : m.Sound) : n.Sound := by
  induction h with
  | refl => exact hm
  | file _ _ ih => exact ih.file (isSynced_stamped _ _ _)
  | drop _ t ih => exact ih.remove t

theorem Sound.mem_tiddlers_iff (h : m.Sound) {t : Tiddler} :
    t ∈ m.tiddlers ↔ m.entries.get? t.key = some t := by
  constructor
  · intro ht
    obtain ⟨k, hk⟩ := Keyed.mem_values_iff.1 ht
    exact (h.keyed hk).symm ▸ hk
  · intro ht
    exact Keyed.mem_values_iff.2 ⟨_, ht⟩

/-- What a tier holds after filing is what was filed, or it held it before. -/
theorem mem_tiddlers_file {t u : Tiddler} (h : u ∈ (m.file t).tiddlers) :
    u = t ∨ u ∈ m.tiddlers := by
  obtain ⟨k, hk⟩ := Keyed.mem_values_iff.1 h
  exact (of_get?_file hk).imp And.right fun hold => Keyed.mem_values_iff.2 ⟨k, hold⟩

theorem mem_tiddlers_remove {t u : Tiddler} (h : u ∈ (m.remove t).tiddlers) :
    u ∈ m.tiddlers := by
  obtain ⟨k, hk⟩ := Keyed.mem_values_iff.1 h
  exact Keyed.mem_values_iff.2 ⟨k, get?_of_get?_remove hk⟩

/-- Whatever a tier holds in the end has been filed on the way, or it was there before. -/
theorem Course.mem (h : Course now ts m n) {t : Tiddler} (ht : t ∈ n.tiddlers) :
    t ∈ m.tiddlers ∨ ∃ u ∈ ts, t = m.stamped now u := by
  induction h with
  | refl => exact .inl ht
  | file hcourse hu ih =>
    rcases mem_tiddlers_file ht with rfl | ht
    · refine .inr ⟨_, hu, ?_⟩
      unfold stamped
      rw [hcourse.kind]
    · exact ih ht
  | drop _ u ih => exact ih (mem_tiddlers_remove ht)

end Tier

namespace Program

/-- Whether confirmed copies are filed only as the server has just given them. -/
structure Receives (k : Cause) (s₀ s : Store) : Prop where
  clock : s.clock = s₀.clock
  course : s₀.synced.Course s₀.clock k.given s.synced

theorem Receives.refl (k : Cause) (s : Store) : Receives k s s := ⟨rfl, .refl⟩

section

variable {k : Cause} {s₀ s s' : Store}

theorem Receives.of_synced (h : Receives k s₀ s) (hclock : s'.clock = s.clock)
    (hsynced : s'.synced = s.synced) : Receives k s₀ s' :=
  ⟨hclock.trans h.clock, hsynced ▸ h.course⟩

theorem Receives.moveTo (h : Receives k s₀ s) (place : Container) :
    Receives k s₀ (s.moveTo place) := by
  unfold Store.moveTo
  split <;> exact h.of_synced rfl rfl

theorem Receives.fileSynced (h : Receives k s₀ s) {t : Tiddler} (ht : t ∈ k.given) :
    Receives k s₀ (s.fileSynced t).2 := by
  refine ⟨h.clock, ?_⟩
  show Tier.Course _ _ _ (s.synced.reconcile s.clock t).tier
  rw [h.clock]
  exact h.course.file ht

theorem Receives.dropSynced (h : Receives k s₀ s) (t : Tiddler) : Receives k s₀ (s.dropSynced t) :=
  ⟨h.clock, h.course.drop t⟩

theorem Receives.dropGone (h : Receives k s₀ s) (t : Tiddler) : Receives k s₀ (s.dropGone t) := by
  unfold Store.dropGone
  split
  · exact (h.dropSynced t).of_synced rfl rfl
  · exact h.dropSynced t

theorem Receives.forget (h : Receives k s₀ s) (t : Tiddler) : Receives k s₀ (s.forget t) := by
  have hforget : (s.forget t).clock = (s.dropSynced t).clock ∧
      (s.forget t).synced = (s.dropSynced t).synced := by
    unfold Store.forget
    dsimp only
    split <;> exact ⟨rfl, rfl⟩
  exact (h.dropSynced t).of_synced hforget.1 hforget.2

theorem receives_afterPut (since : Store) (t : Tiddler) (answer : Except RemoteError Tiddler)
    (s : Store) : Receives (.answered since (.put t) answer) s (s.afterPut since t answer) := by
  have hrefl := Receives.refl (.answered since (.put t) answer) s
  cases answer with
  | ok response =>
    have hresponse : response ∈ (Cause.answered since (.put t) (.ok response)).given :=
      List.mem_singleton_self response
    unfold Store.afterPut Store.acknowledge
    dsimp only
    split
    · rename_i current _
      have hdrop : Receives _ s (s.dropModified current) := hrefl.of_synced rfl rfl
      split
      · exact hdrop.fileSynced hresponse
      · exact hrefl.fileSynced hresponse
    · exact hrefl.fileSynced hresponse
  | error cause =>
    unfold Store.afterPut Store.takeBack
    dsimp only
    split
    · exact hrefl.of_synced rfl rfl
    · exact hrefl

theorem upkeep_receives : Upkeep Receives fun _ => True where
  failed _ s := .refl _ s
  found _ s := (Receives.refl _ s).moveTo _
  moveTo h _ := h.moveTo _
  fetch _ := trivial
  fetched _ _ _ s := .refl _ s
  register h _ _ := h.of_synced rfl rfl
  fileSynced h ht := h.fileSynced ht
  dropGone h _ := h.dropGone _
  put _ := trivial
  afterPut since t answer s := receives_afterPut since t answer s
  delete _ := trivial
  deleted _ _ _ s := .refl _ s
  fileModified h _ := h.of_synced rfl rfl
  forget h t := h.forget t

end

/-- The contract of all calls on what they do to confirmed copies. -/
def receiving : Contract := within Receives fun _ => True

end Program

theorem Call.keeps_receiving (c : Call) (s : Store) : Keeps receiving c.program .called s s :=
  (c.within_program upkeep_receives).keeps (.refl _ s)

theorem Deed.synced_on (d : Deed) (s : Store) :
    (d.on s).clock = s.clock ∧ (d.on s).synced = s.synced := by
  cases d with
  | remove target =>
    show (s.remove target).2.clock = s.clock ∧ (s.remove target).2.synced = s.synced
    unfold Store.remove
    split <;> exact ⟨rfl, rfl⟩
  | reload =>
    exact List.foldlRecOn (motive := fun s' : Store => s'.clock = s.clock ∧ s'.synced = s.synced)
      s.modified.cache.list (fun s t => (s.fileModified t).2) ⟨rfl, rfl⟩ fun _ h _ _ => h
  | _ => exact ⟨rfl, rfl⟩

/-- The tiddlers that the server gives in a step. -/
def Move.given : Move → List Tiddler
  | .go _ _ k => k.given
  | _ => []

namespace Activity

/-- Whatever step an activity takes, its confirmed copies get on as the server's answer allows. -/
theorem Step.course {a b : Activity} {m : Move} (h : Step a m b)
    (ha : a.Heeds fun _ => receiving) :
    b.store.clock = a.store.clock ∧
      a.store.synced.Course a.store.clock m.given b.store.synced := by
  rcases h.store_cases with ⟨id, c, k, rfl⟩ | ⟨resolver, heq⟩ | ⟨d, -, heq⟩
  · obtain ⟨s₀, s, halt, ⟨hreceives, -⟩, ⟨resolver, rfl, -⟩, ⟨resolver', hafter, -⟩, -⟩ :=
      h.keeps (C := fun _ => receiving) ha c.keeps_receiving
    rw [hafter]
    exact ⟨hreceives.clock, hreceives.course⟩
  · rw [heq]
    exact ⟨rfl, .refl⟩
  · obtain ⟨hclock, hsynced⟩ := d.synced_on a.store
    rw [heq, hsynced]
    exact ⟨hclock, .refl⟩

end Activity

end TiddlerShelf
