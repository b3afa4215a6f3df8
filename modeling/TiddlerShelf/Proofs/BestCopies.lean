import TiddlerShelf.Proofs.Lookup

/-! # The best copies of titles

Keeping one row per title overwrites copies in place, so that where a row stands is decided by the
first copy of its title, and which copy it is by the best. The rows come in the order in which their
titles come first, and each is the first copy that is not synced, or else the first
(`unique_keeps_best_copies`). -/

namespace TiddlerShelf

namespace Tiddler

/-- The best of some tiddlers with a title: the first that is not synced, or else the first. -/
def best? (ts : List Tiddler) (title : String) : Option Tiddler :=
  (ts.find? fun t => t.title = title ∧ t.isSynced = false).or (ts.find? fun t => t.title = title)

theorem of_best?_eq_some {ts : List Tiddler} {title : String} {t : Tiddler}
    (h : best? ts title = some t) : t ∈ ts ∧ t.title = title := by
  rcases Option.or_eq_some_iff.1 h with hfound | ⟨-, hfound⟩
  · have hmeets := List.find?_some hfound
    exact ⟨List.mem_of_find?_eq_some hfound, (of_decide_eq_true hmeets).1⟩
  · have hmeets := List.find?_some hfound
    exact ⟨List.mem_of_find?_eq_some hfound, of_decide_eq_true hmeets⟩

/-- A tiddler that comes last is the best of its title if it is the first, or if it is not synced
and all before are. -/
theorem best?_concat (ts : List Tiddler) (t : Tiddler) (title : String) :
    best? (ts ++ [t]) title =
      if t.title = title then
        match best? ts title with
        | none => some t
        | some kept => if kept.isSynced && !t.isSynced then some t else some kept
      else best? ts title := by
  unfold best?
  rw [List.find?_append, List.find?_append]
  by_cases htitle : t.title = title
  · cases hedit : ts.find? fun u => u.title = title ∧ u.isSynced = false with
    | some u =>
      have hmeets := List.find?_some hedit
      have hu : u.isSynced = false := (of_decide_eq_true hmeets).2
      simp [htitle, hu]
    | none =>
      cases hfirst : ts.find? fun u => u.title = title with
      | none => cases ht : t.isSynced <;> simp [htitle, ht]
      | some u =>
        have hu : u.isSynced := by
          have hnot := List.find?_eq_none.1 hedit u (List.mem_of_find?_eq_some hfirst)
          have hmeets := List.find?_some hfirst
          simpa [of_decide_eq_true hmeets] using hnot
        cases ht : t.isSynced <;> simp [htitle, ht, hu]
  · simp [htitle]

end Tiddler

namespace Collection

open Tiddler (best?)

theorem bestCopies_concat (ts : List Tiddler) (t : Tiddler) :
    bestCopies (ts ++ [t]) =
      match (bestCopies ts).get? t.title with
      | none => (bestCopies ts).insert t.title t
      | some kept =>
        if kept.isSynced && !t.isSynced then (bestCopies ts).insert t.title t
        else bestCopies ts :=
  List.foldl_concat ..

/-- Under each title stands its best copy. -/
theorem get?_bestCopies (ts : List Tiddler) (title : String) :
    (bestCopies ts).get? title = best? ts title := by
  induction ts using List.reverseRecOn generalizing title with
  | nil => rfl
  | append_singleton ts t ih =>
    rw [bestCopies_concat, Tiddler.best?_concat, ih]
    by_cases htitle : t.title = title
    · subst htitle
      rw [if_pos rfl]
      cases hbest : best? ts t.title with
      | none => exact Keyed.get?_insert_self ..
      | some kept =>
        dsimp only
        split
        · exact Keyed.get?_insert_self ..
        · rw [ih, hbest]
    · rw [if_neg htitle]
      have hinsert : ((bestCopies ts).insert t.title t).get? title = best? ts title := by
        rw [Keyed.get?_insert, if_neg (Ne.symm htitle), ih]
      split
      · exact hinsert
      · split
        · exact hinsert
        · exact ih title

/-- The titles come in the order in which they came first. -/
theorem keys_bestCopies (ts : List Tiddler) :
    (bestCopies ts).keys = (ts.map (·.title)).eraseDups := by
  induction ts using List.reverseRecOn with
  | nil => rfl
  | append_singleton ts t ih =>
    have hinsert : ((bestCopies ts).insert t.title t).keys =
        ((ts ++ [t]).map (·.title)).eraseDups := by
      rw [Keyed.keys_insert, ih, List.map_append, List.map_singleton, eraseDups_concat]
      simp only [List.mem_eraseDups]
    rw [bestCopies_concat]
    cases hget : (bestCopies ts).get? t.title with
    | none => exact hinsert
    | some kept =>
      dsimp only
      split
      · exact hinsert
      · have hsome : ((bestCopies ts).get? t.title).isSome := hget ▸ rfl
        rwa [Keyed.keys_insert_of_isSome hsome] at hinsert

/-- Each copy stands under its title. -/
theorem title_of_mem_bestCopies {ts : List Tiddler} :
    ∀ e ∈ (bestCopies ts).entries, e.2.title = e.1 := by
  intro e he
  have hget := Keyed.get?_eq_some_iff.2 he
  rw [get?_bestCopies] at hget
  exact (Tiddler.of_best?_eq_some hget).2

theorem map_title_bestCopies (ts : List Tiddler) :
    (bestCopies ts).values.map (·.title) = (ts.map (·.title)).eraseDups :=
  (Keyed.map_values_eq_keys title_of_mem_bestCopies).trans (keys_bestCopies ts)

/-- Of each title there is the best copy and no other. -/
theorem filter_bestCopies (ts : List Tiddler) (title : String) :
    (bestCopies ts).values.filter (fun t => t.title = title) = (best? ts title).toList := by
  rw [Keyed.filter_values title_of_mem_bestCopies, get?_bestCopies]

/-- Where no title comes twice, every tiddler is the best copy of its title. -/
theorem values_bestCopies_of_nodup {ts : List Tiddler} (h : (ts.map (·.title)).Nodup) :
    (bestCopies ts).values = ts := by
  induction ts using List.reverseRecOn with
  | nil => rfl
  | append_singleton ts t ih =>
    rw [List.map_append, List.nodup_append] at h
    have hnew : t.title ∉ (bestCopies ts).keys := by
      rw [keys_bestCopies, List.mem_eraseDups]
      exact fun hmem => h.2.2 _ hmem _ (List.mem_singleton_self _) rfl
    rw [bestCopies_concat, Keyed.get?_eq_none_iff.2 hnew]
    show (Keyed.put _ _ (bestCopies ts).entries).map Prod.snd = _
    rw [Keyed.put_of_not_mem hnew, List.map_append]
    exact congrArg (· ++ [t]) (ih h.1)

/-- What keeping one row per title makes of rows. -/
structure OnePerTitle (before after : List Tiddler) : Prop where
  /-- Each title is there once, in the order in which the titles came first. -/
  titles : after.map (·.title) = (before.map (·.title)).eraseDups
  once : (after.map (·.title)).Nodup
  best : ∀ t ∈ after, best? before t.title = some t

theorem onePerTitle_bestCopies (ts : List Tiddler) : OnePerTitle ts (bestCopies ts).values := by
  have htitles := map_title_bestCopies ts
  refine ⟨htitles, htitles ▸ nodup_eraseDups _, fun t ht => ?_⟩
  have hmem : t ∈ (bestCopies ts).values.filter fun u => u.title = t.title :=
    List.mem_filter.2 ⟨ht, decide_eq_true rfl⟩
  rw [filter_bestCopies] at hmem
  exact Option.mem_toList.1 hmem

/-- Keeping one row per title keeps the best copy of each, where its first copy stood. Doing so
again changes nothing, and rows that are added at the end move no title. -/
theorem unique_keeps_best_copies (c : Collection) :
    OnePerTitle c.tiddlers (c.apply .unique).tiddlers ∧
      (c.apply .unique).apply .unique = c.apply .unique ∧
      ∀ more : List Tiddler, (c.apply .unique).titles <+:
        (apply ⟨c.tiddlers ++ more, c.filter⟩ .unique).titles := by
  have hone := onePerTitle_bestCopies c.tiddlers
  refine ⟨hone, ?_, fun more => ?_⟩
  · exact congrArg (Collection.mk · c.filter) (values_bestCopies_of_nodup hone.once)
  · show (bestCopies c.tiddlers).values.map (·.title) <+:
      (bestCopies (c.tiddlers ++ more)).values.map (·.title)
    rw [map_title_bestCopies, map_title_bestCopies, List.map_append, List.eraseDups_append]
    exact List.prefix_append ..

end Collection

end TiddlerShelf
