import TiddlerShelf.Proofs.Exchange
import TiddlerShelf.Proofs.Pruning
import TiddlerShelf.Proofs.Undisturbed

/-! # Deletions

Deleting a tiddler first asks the server, if there is a confirmed copy, and changes the store only
once the server has deleted it. So a deletion that nothing disturbs either takes the tiddler away
everywhere and tells of it once, or it leaves the store and what the server holds as they were
(`destroy_all_or_nothing`). -/

namespace TiddlerShelf

open Program

namespace Program

variable {α : Type} {s : Store} {server : Server}

theorem undisturbed_store (f : Store → Program α) :
    (store >>= f).undisturbed s server = (f s).undisturbed s server := rfl

theorem undisturbed_asked (r : Request) : (request r).undisturbed s server =
    some (((server.hearing [r]).answer r).1, s, ((server.hearing [r]).answer r).2) := rfl

end Program

namespace Server

/-- A server deletes a tiddler that it holds in its bag, unless deleting fails, and stays as it is
otherwise. -/
theorem answer_delete_cases (s : Server) {t : Tiddler} (hbag : t.bag.isSome) :
    (∃ s', s.answer (.delete t) = (.ok (), s') ∧ s'.Lacks t) ∨
      ∃ cause, s.answer (.delete t) = (.error cause, s) ∧
        (Operation.delete ∈ s.failing ∨ s.Lacks t) := by
  by_cases hfailing : Operation.delete ∈ s.failing
  · exact .inr ⟨_, if_pos hfailing, .inl hfailing⟩
  · obtain ⟨bag, hname⟩ : ∃ bag, t.bagName = some bag := by
      obtain ⟨c, hc⟩ := Option.isSome_iff_exists.1 hbag
      exact ⟨c.name, by rw [Tiddler.bagName, hc]; rfl⟩
    have htarget : s.targetBag t = .ok bag := by
      unfold targetBag
      rw [hname]
    rw [answer_of_not_failing (show (Request.delete t).operation ∉ s.failing from hfailing), fulfil]
    simp only [htarget]
    cases hstored : s.stored? bag t.title with
    | some v =>
      refine .inl ⟨_, rfl, bag, hname, ?_⟩
      rw [stored?_drop, if_pos ⟨rfl, rfl⟩]
    | none => exact .inr ⟨_, rfl, .inr ⟨bag, hname, hstored⟩⟩

end Server

namespace Store

variable {s : Store} {target : Tiddler.Target} {t : Tiddler}

/-! ## What is left of a tiddler that has been forgotten -/

theorem synced_forget (s : Store) (t : Tiddler) : (s.forget t).synced = s.synced.remove t := by
  rw [forget_eq]
  show ((s.dropSynced t).dropping (s.modifiedCopy? t)).synced = _
  cases s.modifiedCopy? t <;> rfl

/-- No edit is left under the key of a tiddler that has been forgotten. -/
theorem get?_forget (h : s.Sound) (t : Tiddler) :
    (s.forget t).modified.entries.get? t.key = none := by
  obtain ⟨titles, htier, -⟩ := (quiet_forget s t).edits
  have hdropped : (s.dropping (s.modifiedCopy? t)).modified.entries.get? t.key = none := by
    cases hentry : s.modified.entries.get? t.key with
    | some edit =>
      rw [modifiedCopy?_of_key hentry]
      show (s.modified.remove edit).entries.get? t.key = none
      rw [Tier.get?_remove, if_pos (h.modified.keyed hentry).symm]
    | none =>
      cases s.modifiedCopy? t with
      | none => exact hentry
      | some edit =>
        show (s.modified.remove edit).entries.get? t.key = none
        rw [Tier.get?_remove, hentry, ite_self]
  apply Option.eq_none_iff_forall_ne_some.2
  intro edit hedit
  rw [htier] at hedit
  have hbefore := Tier.get?_of_get?_withdrawAll hedit
  rw [hdropped] at hbefore
  contradiction

/-- Forgetting a tiddler raises one event, that it has gone. -/
theorem raises_forget (s : Store) (t : Tiddler) :
    s.audience.Raises [.deleted t] (s.forget t).audience := by
  have haudience : ((s.dropSynced t).dropping (s.modifiedCopy? t)).audience = s.audience := by
    cases s.modifiedCopy? t <;> rfl
  rw [forget_eq, ← haudience]
  exact raises_announce _ _

/-! ## The ways in which a deletion ends -/

/-- Where there is a confirmed copy, the server is asked to delete it, and the store forgets it if
the server has done so. -/
theorem undisturbed_destroy_confirmed (server : Server)
    (h : (s.synced.get? target.wanted).filter Tiddler.hasContainer = some t) :
    (∀ server', (server.hearing [.delete t]).answer (.delete t) = (.ok (), server') →
      (destroy target).undisturbed s server = some (.ok t, s.forget t, server')) ∧
    (∀ cause server', (server.hearing [.delete t]).answer (.delete t) = (.error cause, server') →
      (destroy target).undisturbed s server =
        some (.error (.delete t.title cause), s, server')) := by
  unfold destroy
  rw [undisturbed_store, h]
  dsimp only
  rw [undisturbed_bind, undisturbed_asked, Option.bind_some]
  refine ⟨fun server' hanswer => ?_, fun cause server' hanswer => ?_⟩
  · rw [hanswer]
    rfl
  · rw [hanswer]
    rfl

/-- Where there is none, the edit is forgotten, if there is one, and the server is not asked. -/
theorem undisturbed_destroy_unconfirmed (server : Server)
    (h : (s.synced.get? target.wanted).filter Tiddler.hasContainer = none) :
    (∀ edit, s.modified.get? target.wanted = some edit →
      (destroy target).undisturbed s server = some (.ok edit, s.forget edit, server)) ∧
    (s.modified.get? target.wanted = none →
      (destroy target).undisturbed s server =
        some (.error (.notFound target.name), s, server)) := by
  unfold destroy
  rw [undisturbed_store, h]
  refine ⟨fun edit hedit => ?_, fun hnone => ?_⟩
  · rw [hedit]
    rfl
  · rw [hnone]
    rfl

end Store

namespace Exchange

/-- What a deletion that has succeeded leaves of a store and its server: neither tier has anything
under the bag and the title of the tiddler, the server has nothing there either if there was a
confirmed copy, and the one event that listeners have heard of is that the tiddler has gone. -/
structure Destroyed (x : Exchange) (target : Tiddler.Target) (t : Tiddler) (s : Store)
    (server : Server) : Prop where
  found : (x.synced.get? target.wanted).or (x.activity.store.modified.get? target.wanted) = some t
  synced : s.synced.entries.get? t.key = none
  modified : s.modified.entries.get? t.key = none
  server : x.synced.get? target.wanted = some t → server.Lacks t
  heard : x.activity.store.audience.Raises [.deleted t] s.audience

/-- What a deletion that has failed leaves of a store and its server, and why it has failed: there
is no such tiddler, or the server could not delete it, or had nothing to delete. -/
structure Spared (x : Exchange) (target : Tiddler.Target) (e : StoreError) (s : Store)
    (server : Server) : Prop where
  why : (e = .notFound target.name ∧ x.synced.get? target.wanted = none ∧
      x.activity.store.modified.get? target.wanted = none) ∨
    ∃ t cause, x.synced.get? target.wanted = some t ∧ e = .delete t.title cause ∧
      (Operation.delete ∈ x.server.failing ∨ x.server.Lacks t)
  store : s = x.activity.store
  server : server.bags = x.server.bags

variable {x : Exchange} {target : Tiddler.Target} {t : Tiddler}

/-- A confirmed copy has a bag, so that it can be asked for. -/
theorem Sound.filter_hasContainer (h : x.Sound) :
    (x.synced.get? target.wanted).filter Tiddler.hasContainer = x.synced.get? target.wanted := by
  cases hget : x.synced.get? target.wanted with
  | none => rfl
  | some t =>
    have hentry := (h.synced.of_get? hget).1
    have hbag := (h.fits t (h.synced.mem_tiddlers_iff.2 hentry)).bag
    exact if_pos (by simp [Tiddler.hasContainer, hbag])

theorem Sound.destroyed (h : x.Sound) {server : Server}
    (hfound : (x.synced.get? target.wanted).or
      (x.activity.store.modified.get? target.wanted) = some t)
    (hlacks : x.synced.get? target.wanted = some t → server.Lacks t) :
    x.Destroyed target t (x.activity.store.forget t) server := by
  refine ⟨hfound, ?_, Store.get?_forget h.activity.store t, hlacks, Store.raises_forget _ t⟩
  rw [Store.synced_forget, Tier.get?_remove, if_pos rfl]

/-- A deletion that nothing disturbs ends, and is all or nothing: if it succeeds, the tiddler is
gone everywhere and that has been raised once, and if it fails, nothing has changed and nothing has
been raised. -/
theorem destroy_all_or_nothing {config : Config} {clock : Instant} {defaults : Option Defaults}
    {cache : Cache} {xs : List Exchange} {x : Exchange}
    (hx : Run (start config clock defaults cache) xs x) (target : Tiddler.Target) :
    ∃ result s server,
      (Store.destroy target).undisturbed x.activity.store x.server = some (result, s, server) ∧
      (∀ t, result = .ok t → x.Destroyed target t s server) ∧
      ∀ e, result = .error e → x.Spared target e s server := by
  have h := hx.sound (sound_start config clock defaults cache)
  have hcontained : (x.activity.store.synced.get? target.wanted).filter Tiddler.hasContainer =
    x.synced.get? target.wanted := h.filter_hasContainer
  cases hsynced : x.synced.get? target.wanted with
  | some t =>
    rw [hsynced] at hcontained
    obtain ⟨hdone, hfailed⟩ := Store.undisturbed_destroy_confirmed x.server hcontained
    have hbag : t.bag.isSome :=
      (h.fits t (h.synced.mem_tiddlers_iff.2 (h.synced.of_get? hsynced).1)).bag
    rcases (x.server.hearing [.delete t]).answer_delete_cases hbag with
      ⟨server', hanswer, hlacks⟩ | ⟨cause, hanswer, hwhy⟩
    · refine ⟨_, _, _, hdone server' hanswer, ?_, fun e he => by contradiction⟩
      rintro _ ⟨⟩
      have hfound : (x.synced.get? target.wanted).or
          (x.activity.store.modified.get? target.wanted) = some t := by
        rw [hsynced, Option.some_or]
      exact h.destroyed hfound fun _ => hlacks
    · refine ⟨_, _, _, hfailed cause _ hanswer, fun t ht => by contradiction, ?_⟩
      rintro _ ⟨⟩
      exact ⟨.inr ⟨t, cause, hsynced, rfl, hwhy⟩, rfl, rfl⟩
  | none =>
    rw [hsynced] at hcontained
    obtain ⟨hdone, hfailed⟩ := Store.undisturbed_destroy_unconfirmed x.server hcontained
    cases hedit : x.activity.store.modified.get? target.wanted with
    | some edit =>
      refine ⟨_, _, _, hdone edit hedit, ?_, fun e he => by contradiction⟩
      rintro _ ⟨⟩
      have hfound : (x.synced.get? target.wanted).or
          (x.activity.store.modified.get? target.wanted) = some edit := by
        rw [hsynced, Option.none_or, hedit]
      refine h.destroyed hfound fun hsome => ?_
      rw [hsynced] at hsome
      contradiction
    | none =>
      refine ⟨_, _, _, hfailed hedit, fun t ht => by contradiction, ?_⟩
      rintro _ ⟨⟩
      exact ⟨.inl ⟨rfl, hsynced, hedit⟩, rfl, rfl⟩

/-- A copy that has been got from the server is deleted by its title, on the server as well, and a
follower hears of that and of nothing else. -/
theorem copy_destroyed_everywhere :
    ∃ (xs : List Exchange) (x : Exchange) (t : Tiddler) (s : Store) (server : Server),
      Run (start {} ⟨0, 0⟩ (some (.single (.bag "notes"))) .none) xs x ∧
      x.synced.tiddlers = [t] ∧
      (Store.destroy (.title "T")).undisturbed x.activity.store x.server =
        some (.ok t, s, server) ∧
      s.synced.entries.get? t.key = none ∧ server.Lacks t ∧ s.heardBy "feed" = [.deleted t] := by
  let draft := Tiddler.draft "notes" "one"
  let target : Tiddler.Target := .title "T"
  let copy : Tiddler := { draft with revision := some 1, lastSync := some ⟨0, 0⟩ }
  let x₀ := start {} ⟨0, 0⟩ (some (.single (.bag "notes"))) .none
  have hseeded : Run x₀ _ { x₀ with server := ({} : Server).seed draft } :=
    Run.refl.step (.incident (.seed draft))
  obtain ⟨xs, x, hx, hserver, hstore⟩ := hseeded.exists_got Audience.silent_empty
    (.document draft) draft { draft with revision := some 1 }
    (by decide +kernel) (by decide +kernel) (by rfl)
  obtain ⟨ys, hy, -⟩ := hx.exists_followed "feed"
  have haudience : x.activity.store.audience = {} := by
    rw [hstore]
    rfl
  have hsynced : x.synced.tiddlers = [copy] := by
    unfold synced
    rw [hstore]
    decide +kernel
  have hfound : x.synced.get? target.wanted = some copy := by
    unfold synced
    rw [hstore]
    decide +kernel
  obtain ⟨result, s, server, hended, hdone, hfailed⟩ := destroy_all_or_nothing hy target
  cases result with
  | ok t =>
    have hdestroyed := hdone t rfl
    have hor := (congrArg (Option.or · _) hfound).symm.trans hdestroyed.found
    obtain rfl : copy = t := Option.some.inj hor
    obtain ⟨hfollower, hheard⟩ := Store.followedBy_of_empty haudience "feed"
    obtain ⟨-, hhears⟩ := hfollower.raises hdestroyed.heard
    exact ⟨_, _, copy, s, server, hy, hsynced, hended, hdestroyed.synced,
      hdestroyed.server hfound, hhears.trans (congrArg (· ++ _) hheard)⟩
  | error e =>
    rcases (hfailed e rfl).why with ⟨-, hnone, -⟩ | ⟨t, cause, hsome, -, hwhy⟩
    · exact absurd (hnone.symm.trans hfound) (Option.some_ne_none _).symm
    · obtain rfl : copy = t := Option.some.inj (hfound.symm.trans hsome)
      rcases hwhy with hfailing | ⟨bag, hbag, hnone⟩
      · exact absurd (hserver ▸ hfailing) List.not_mem_nil
      · obtain rfl : "notes" = bag := Option.some.inj hbag
        have hstored := congrArg (fun server : Server => server.stored? "notes" "T") hserver
        exact absurd (hstored.symm.trans hnone) (by decide +kernel)

end Exchange

end TiddlerShelf
