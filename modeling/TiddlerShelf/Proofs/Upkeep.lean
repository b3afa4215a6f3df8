import TiddlerShelf.Proofs.Contract
import TiddlerShelf.Proofs.Edits
import TiddlerShelf.Store.Collections

/-! # Invariants that programs keep up

Programs change the store in a few ways only: they find the place, file what the server gives, drop
what has gone, file edits, take note of the answer to a copy that was sent, and forget. An invariant
that each of these keeps up is kept up by every program of a store, and the programs that only read
or only save need less of it. -/

namespace TiddlerShelf

namespace Request

/-- Whether a request gets tiddlers. -/
def Fetches : Request → Prop
  | get .. | list _ | search _ => True
  | _ => False

end Request

namespace Program

/-- The tiddlers that the server has just given, if its answer has set a stretch going. -/
def Cause.given : Cause → List Tiddler
  | .answered _ (.get ..) (.ok t) | .answered _ (.put _) (.ok t) => [t]
  | .answered _ (.list _) (.ok ts) | .answered _ (.search _) (.ok ts) => ts
  | _ => []

/-- What keeps up an invariant while the place is found. A stretch that begins with the defaults
comes to read from their container first. -/
structure Placing (I : Cause → Store → Store → Prop) : Prop where
  failed : ∀ e s, I (.resolved (.error e)) s s
  found : ∀ d s, I (.resolved (.ok d)) s (s.moveTo d.pullFrom)
  moveTo : ∀ {k s₀ s d}, I k s₀ s → k.Knows s d → I k s₀ (s.moveTo d.pullFrom)

/-- Whether the server has just shown that a tiddler has gone: the listing of its bag lacks it, or
it could not be got. -/
def Cause.ShowsGone : Cause → Tiddler → Prop
  | .answered _ (.list c) (.ok listed), t =>
    c.isRecipe = false ∧ t.bagName = some c.name ∧ Store.isListed listed t = false
  | .answered _ (.get wanted false) (.error _), t => t = wanted
  | _, _ => False

/-- What keeps up an invariant while a listing is fetched and filed, and what it lacks dropped. -/
structure Refreshing (I : Cause → Store → Store → Prop) (R : Request → Prop) : Prop where
  fetch : ∀ {r}, r.Fetches → R r
  fetched : ∀ {r}, r.Fetches → ∀ since answer s, I (.answered since r answer) s s
  fileSynced : ∀ {k s₀ s t}, I k s₀ s → t ∈ k.given → I k s₀ (s.fileSynced t).2
  dropGone : ∀ {k s₀ s t}, I k s₀ s → k.ShowsGone t → I k s₀ (s.dropGone t)

/-- What keeps up an invariant while tiddlers are got and listings are fetched again. -/
structure Getting (I : Cause → Store → Store → Prop) (R : Request → Prop) : Prop extends
    Placing I, Refreshing I R

/-- What keeps up an invariant while tiddlers are read: they are searched for as well. -/
structure Reading (I : Cause → Store → Store → Prop) (R : Request → Prop) : Prop extends
    Getting I R where
  register : ∀ {k s₀ s d}, I k s₀ (s.moveTo d.pullFrom) → k.Knows s d → ∀ query,
    I k s₀ ((s.moveTo d.pullFrom).register (.search query d.pullFrom.host))

/-- What keeps up an invariant while tiddlers are saved. -/
structure Saving (I : Cause → Store → Store → Prop) (R : Request → Prop) : Prop extends
    Placing I where
  put : ∀ t, R (.put t)
  afterPut : ∀ since t answer s,
    I (.answered since (.put t) answer) s (s.afterPut since t answer)

/-- What keeps up an invariant while edits are made and tiddlers are deleted. -/
structure Editing (I : Cause → Store → Store → Prop) (R : Request → Prop) : Prop extends
    Placing I where
  delete : ∀ t, R (.delete t)
  deleted : ∀ since t answer s, I (.answered since (.delete t) answer) s s
  fileModified : ∀ {k s₀ s}, I k s₀ s → ∀ t, I k s₀ (s.fileModified t).2
  forget : ∀ {k s₀ s}, I k s₀ s → ∀ t, I k s₀ (s.forget t)

/-- What keeps up an invariant in all that a store does with the help of a server, but for
searches. -/
structure Working (I : Cause → Store → Store → Prop) (R : Request → Prop) : Prop extends
    Getting I R, Saving I R, Editing I R

/-- What keeps up an invariant in all that a store does with the help of a server. -/
structure Upkeep (I : Cause → Store → Store → Prop) (R : Request → Prop) : Prop extends
    Working I R, Reading I R

variable {I : Cause → Store → Store → Prop} {R : Request → Prop}

theorem Placing.getDefaults (h : Placing I) : Within I R Store.getDefaults :=
  .getDefaults h.moveTo h.found h.failed

/-- What begins by finding the place keeps up an invariant from where the place is found, or from
where the defaults are waited for. -/
theorem Placing.meets_getDefaults (h : Placing I) {α : Type}
    {f : Except StoreError Defaults → Program α} {k : Cause} {s₀ s : Store}
    (hknown : ∀ d, s.resolver = .resolved d → I k s₀ (s.moveTo d.pullFrom))
    (hunknown : (∀ d, s.resolver ≠ .resolved d) → I k s₀ s)
    (hf : ∀ d {k : Cause} {s₀ s : Store}, I k s₀ (s.moveTo d.pullFrom) → k.Knows s d →
      Meets (within I R) (fun k s₀ s _ => I k s₀ s) (f (.ok d)) k s₀ (s.moveTo d.pullFrom))
    (hfailed : ∀ e, Within I R (f (.error e))) :
    Meets (within I R) (fun k s₀ s _ => I k s₀ s) (Store.getDefaults >>= f) k s₀ s := by
  refine Program.meets_getDefaults ?_ ?_ ?_ ?_
  · exact fun d hd => hf d (hknown d hd) (.inl hd)
  · exact fun hne => within_waits (hunknown hne)
  · exact fun d s' => hf d (h.found d s') (.inr rfl)
  · exact fun e s' => hfailed e _ _ _ (h.failed e s')

namespace Refreshing

/-- Asking for tiddlers and then going on in a way that keeps up the invariant, where the answer is
known. -/
theorem request {α : Type} (h : Refreshing I R) {r : Request} (hr : r.Fetches)
    {f : Except RemoteError r.Reply → Program α}
    (hf : ∀ since answer s, Meets (within I R) (fun k s₀ s _ => I k s₀ s) (f answer)
      (.answered since r answer) s s) : Within I R (Program.request r >>= f) := by
  intro k s₀ s hI
  rw [meets_request]
  exact ⟨within_asks hI (h.fetch hr), fun answer s' => hf s answer s'⟩

theorem fileListing (h : Refreshing I R) {k : Cause} {s₀ s : Store} (hI : I k s₀ s)
    {ts : List Tiddler} (hts : ts ⊆ k.given) : I k s₀ (s.fileListing ts).2 := by
  induction ts generalizing s with
  | nil => exact hI
  | cons t ts ih =>
    obtain ⟨ht, hts⟩ := List.cons_subset.1 hts
    exact ih (h.fileSynced hI ht) hts

/-- What a bag's listing lacks has gone. What a recipe's listing lacks is asked for one by one, and
only the answer shows whether it has gone. -/
theorem dropAllGone (h : Refreshing I R) {c : Container} {ts : List Tiddler} {k : Cause}
    {s₀ s : Store} (hI : I k s₀ s) (hgone : c.isRecipe = false → ∀ t ∈ ts, k.ShowsGone t) :
    Meets (within I R) (fun k s₀ s _ => I k s₀ s) (Store.dropAllGone c ts) k s₀ s := by
  induction ts generalizing k s₀ s with
  | nil => exact hI
  | cons t ts ih =>
    unfold Store.dropAllGone
    cases hc : c.isRecipe with
    | true =>
      have hrest {k : Cause} {s₀ s : Store} (hI : I k s₀ s) :=
        ih hI fun hbag => by simp [hc] at hbag
      refine h.request (r := .get t false) trivial (fun since answer s => ?_) k s₀ s hI
      have hfetched := h.fetched (r := .get t false) trivial since answer s
      cases answer with
      | ok u => exact hrest hfetched
      | error e => exact hrest (h.dropGone hfetched rfl)
    | false =>
      have hall := List.forall_mem_cons.1 (hgone hc)
      exact ih (h.dropGone hI hall.1) fun _ => hall.2

theorem refreshSource (h : Refreshing I R) (source : Source) :
    Within I R (Store.refreshSource source) := by
  cases source with
  | container c =>
    refine h.request (r := .list c) trivial fun since answer s => ?_
    have hfetched := h.fetched (r := .list c) trivial since answer s
    cases answer with
    | error cause => exact hfetched
    | ok listed =>
      have hgone : c.isRecipe = false → ∀ t ∈ (s.fileListing listed).2.gone c listed,
          Cause.ShowsGone (.answered since (.list c) (.ok listed)) t := by
        intro hc t ht
        have ht := (List.mem_filter.1 ht).2
        simp only [Store.mayBeGone, hc, Bool.false_or, Bool.and_eq_true, beq_iff_eq,
          Bool.not_eq_true'] at ht
        exact ⟨hc, ht.1, ht.2⟩
      have hfiled := h.fileListing hfetched fun _ ht => ht
      have hdropped : Meets (within I R) (fun k s₀ s _ => I k s₀ s) (do
          Store.dropAllGone c ((s.fileListing listed).2.gone c listed)
          return (.ok (s.fileListing listed).1 : Except StoreError (List Tiddler)))
          (.answered since (.list c) (.ok listed)) s (s.fileListing listed).2 :=
        meets_bind.2 ((h.dropAllGone hfiled hgone).mono fun _ _ _ _ hI => hI)
      exact hdropped
  | search query host =>
    refine h.request (r := .search query) trivial fun since answer s => ?_
    have hfetched := h.fetched (r := .search query) trivial since answer s
    cases answer with
    | error cause => exact hfetched
    | ok listed => exact h.fileListing hfetched fun _ ht => ht

end Refreshing

namespace Getting

theorem get (h : Getting I R) (target : Tiddler.Target) (options : Store.GetOptions) :
    Within I R (Store.get target options) := by
  have hfetch : ∀ wanted, Within I R (Store.get.fetchDocument target options wanted) := by
    intro wanted
    refine h.request (r := .get wanted options.render) trivial fun since answer s => ?_
    have hfetched := h.fetched (r := .get wanted options.render) trivial since answer s
    cases answer with
    | error cause => exact hfetched
    | ok t => exact h.fileSynced hfetched (List.mem_singleton_self t)
  unfold Store.get
  apply Within.store.bind
  intro s
  split
  · exact .pure _
  · split
    · exact hfetch _
    · apply h.getDefaults.bind
      intro found
      cases found with
      | error e => exact .pure _
      | ok d => exact hfetch _

theorem refreshSources (h : Getting I R) (sources : List Source) :
    Within I R (Store.refreshSources sources) := by
  induction sources with
  | nil => exact .pure _
  | cons source sources ih =>
    unfold Store.refreshSources
    apply (h.refreshSource source).bind
    intro found
    cases found with
    | error e => exact .pure _
    | ok stored => exact ih.bind fun _ => .pure _

theorem meets_refresh (h : Getting I R) {k : Cause} {s₀ s : Store}
    (hknown : ∀ d, s.resolver = .resolved d → I k s₀ (s.moveTo d.pullFrom))
    (hunknown : (∀ d, s.resolver ≠ .resolved d) → I k s₀ s) :
    Meets (within I R) (fun k s₀ s _ => I k s₀ s) Store.refresh k s₀ s := by
  have hall : Within I R Store.refreshAll := Within.store.bind fun s => h.refreshSources _
  exact h.toPlacing.meets_getDefaults hknown hunknown (fun d _ _ _ hI _ => hall _ _ _ hI)
    fun e => .pure _

theorem refresh (h : Getting I R) : Within I R Store.refresh :=
  fun _ _ _ hI => h.meets_refresh (fun _ hd => h.moveTo hI (.inl hd)) fun _ => hI

end Getting

theorem Reading.meets_search (h : Reading I R) (query : String) {k : Cause} {s₀ s : Store}
    (hknown : ∀ d, s.resolver = .resolved d → I k s₀ (s.moveTo d.pullFrom))
    (hunknown : (∀ d, s.resolver ≠ .resolved d) → I k s₀ s) :
    Meets (within I R) (fun k s₀ s _ => I k s₀ s) (Store.search query) k s₀ s :=
  h.toPlacing.meets_getDefaults hknown hunknown
    (fun _ _ _ _ hI hd => h.refreshSource _ _ _ _ (h.register hI hd query)) fun _ => .pure _

theorem Reading.search (h : Reading I R) (query : String) : Within I R (Store.search query) :=
  fun _ _ _ hI => h.meets_search query (fun _ hd => h.moveTo hI (.inl hd)) fun _ => hI

namespace Saving

theorem send (h : Saving I R) (t : Tiddler) : Within I R (Store.send t) := by
  intro k s₀ s hI
  unfold Store.send
  rw [meets_store, meets_request]
  refine ⟨within_asks hI (h.put t), ?_⟩
  intro answer s'
  have hnoted := h.afterPut s t answer s'
  cases answer with
  | ok response => exact hnoted
  | error cause => exact hnoted

theorem saveTiddler (h : Saving I R) (t : Tiddler) : Within I R (Store.saveTiddler t) := by
  unfold Store.saveTiddler Store.placed
  refine Within.bind ?_ fun found => ?_
  · split
    · exact .pure _
    · exact h.getDefaults.bind fun d => .pure _
  · cases found with
    | error e => exact .pure _
    | ok t => exact h.send t

theorem save (h : Saving I R) (target : Tiddler.Target) : Within I R (Store.save target) := by
  unfold Store.save
  apply Within.store.bind
  intro s
  split
  · exact h.saveTiddler _
  · split <;> exact .pure _

theorem saveAll (h : Saving I R) : Within I R Store.saveAll := by
  unfold Store.saveAll
  apply Within.store.bind
  intro s
  split
  · exact .pure _
  · exact (Within.each h.saveTiddler _).bind fun results => .pure _

theorem saveCollection (h : Saving I R) (c : Collection) : Within I R (Store.saveCollection c) :=
  .each (fun t => h.save (.document t)) c.tiddlers

end Saving

namespace Editing

theorem add (h : Editing I R) (t : Tiddler) : Within I R (Store.add t) := by
  unfold Store.add
  refine (Within.act fun _ _ _ hI => h.fileModified hI t).bind fun stored => ?_
  split
  · exact .pure _
  · apply h.getDefaults.bind
    intro found
    cases found with
    | error e => exact .pure _
    | ok d => exact (Within.act fun _ _ _ hI => h.fileModified hI _).bind fun _ => .pure _

theorem addToCollection (h : Editing I R) (c : Collection) (t : Tiddler) :
    Within I R (Store.addToCollection c t) :=
  (h.add t).bind fun _ => .pure _

theorem destroy (h : Editing I R) (target : Tiddler.Target) :
    Within I R (Store.destroy target) := by
  have hforget : ∀ t, Within I R (Program.change (·.forget t)) :=
    fun t => .change fun _ _ _ hI => h.forget hI t
  unfold Store.destroy
  apply Within.store.bind
  intro s
  split
  · rename_i t _
    have hrequest : Within I R (Program.request (.delete t)) :=
      .request (h.delete t) fun since answer s => h.deleted since t answer s
    apply hrequest.bind
    intro answer
    cases answer with
    | error cause => exact .pure _
    | ok _ => exact (hforget t).bind fun _ => .pure _
  · exact (hforget _).bind fun _ => .pure _
  · exact .pure _

end Editing

end Program

end TiddlerShelf
