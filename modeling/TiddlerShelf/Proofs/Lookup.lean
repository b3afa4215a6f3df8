import TiddlerShelf.Proofs.Course
import TiddlerShelf.Proofs.Feed

/-! # What lookups find

Every tier that is filled by filing and removing alone is sound, its bags come in the order in which
tiddlers were first filed in them, and none comes twice. On such a tier a lookup is complete: with a
bag it finds what stands under that bag and title, and without one it finds the tiddler of the title
that has no bag, or else the one in the bag that was seen first (`lookups_after_calls`). -/

namespace TiddlerShelf

section

variable {α : Type} [BEq α] [LawfulBEq α]

theorem eraseDups_concat (xs : List α) (x : α) [Decidable (x ∈ xs)] :
    (xs ++ [x]).eraseDups = if x ∈ xs then xs.eraseDups else xs.eraseDups ++ [x] := by
  rw [List.eraseDups_append]
  split <;> rename_i hmem <;> simp [List.removeAll, hmem, List.eraseDups_cons]

theorem nodup_eraseDups (xs : List α) : xs.eraseDups.Nodup := by
  classical
  induction xs using List.reverseRecOn with
  | nil => exact .nil
  | append_singleton xs x ih =>
    rw [eraseDups_concat]
    split
    · exact ih
    · rename_i hnot
      refine List.nodup_append.2 ⟨ih, by simp, ?_⟩
      rintro a ha b hb rfl
      exact hnot (List.mem_singleton.1 hb ▸ List.mem_eraseDups.1 ha)

end

namespace Tiddler

/-- Whether two tiddlers share the title and the bag, where no bag counts as the empty name. -/
def SharesPlace (s t : Tiddler) : Prop :=
  s.title = t.title ∧ s.bagName.getD "" = t.bagName.getD ""

theorem sharesPlace_iff {s t : Tiddler} : s.SharesPlace t ↔ s.key = t.key :=
  and_comm.trans key_eq_iff.symm

theorem bagName_eq_some_iff {t : Tiddler} {name : String} (h : name ≠ "") :
    t.bagName = some name ↔ t.bagName.getD "" = name := by
  cases t.bagName with
  | none => simp [h.symm]
  | some bag => simp

end Tiddler

namespace Tier

variable {tier : Tier}

/-! ## Tiers that are filled from nothing -/

/-- What can be asked of a tier that changes it. -/
inductive Call
  | set (now : Instant) (t : Tiddler)
  | remove (t : Tiddler)

/-- What a call makes of a tier. -/
def Call.run (tier : Tier) : Call → Tier
  | set now t => tier.set now t
  | remove t => tier.remove t

/-- The name of the bag that a call files in, if it files in one. -/
def Call.bagName? : Call → Option String
  | set _ t => t.bagName
  | remove _ => none

/-- The tier of a kind that calls lead to from the empty one. -/
def after (kind : Kind) (cache : Cache) (calls : List Call) : Tier :=
  calls.foldl Call.run { kind, cache }

theorem after_concat (kind : Kind) (cache : Cache) (calls : List Call) (c : Call) :
    after kind cache (calls ++ [c]) = c.run (after kind cache calls) :=
  List.foldl_concat ..

theorem Call.kind_run (c : Call) : (c.run tier).kind = tier.kind := by
  cases c with
  | set now t => exact kind_file _ _
  | remove t => rfl

theorem Sound.run (h : tier.Sound) (c : Call) : (c.run tier).Sound := by
  cases c with
  | set now t => exact h.file (isSynced_stamped _ _ _)
  | remove t => exact h.remove t

theorem kind_after (kind : Kind) (cache : Cache) (calls : List Call) :
    (after kind cache calls).kind = kind := by
  induction calls using List.reverseRecOn with
  | nil => rfl
  | append_singleton calls c ih => rw [after_concat, Call.kind_run, ih]

theorem sound_after (kind : Kind) (cache : Cache) (calls : List Call) :
    (after kind cache calls).Sound := by
  induction calls using List.reverseRecOn with
  | nil => exact sound_of_entries_empty rfl
  | append_singleton calls c ih =>
    rw [after_concat]
    exact ih.run c

/-! ## The bags in view -/

/-- The names of the bags, in the order in which the bags were first seen. -/
def bagNames (tier : Tier) : List String := tier.bags.map (·.name)

theorem mem_bagNames_iff {bag : Container} : bag.name ∈ tier.bagNames ↔ tier.hasSeen bag = true :=
  hasSeen_iff.symm

theorem bagNames_file_of_none {t : Tiddler} (h : t.bag = none) :
    (tier.file t).bagNames = tier.bagNames := by
  unfold file
  rw [h]
  rfl

/-- Filing a tiddler puts its bag at the end of those in view, unless it is among them. -/
theorem bagNames_file_of_some {t : Tiddler} {bag : Container} (h : t.bag = some bag) :
    (tier.file t).bagNames =
      if bag.name ∈ tier.bagNames then tier.bagNames else tier.bagNames ++ [bag.name] := by
  unfold file
  rw [h]
  show (if tier.hasSeen bag then tier.bags else tier.bags ++ [bag]).map (·.name) = _
  by_cases hmem : bag.name ∈ tier.bagNames
  · rw [if_pos hmem, if_pos (mem_bagNames_iff.1 hmem)]
    rfl
  · rw [if_neg hmem, if_neg fun hseen => hmem (mem_bagNames_iff.2 hseen), List.map_append]
    rfl

/-- The bags in view are those that calls have filed in, in the order of the first filing. -/
theorem bagNames_after (kind : Kind) (cache : Cache) (calls : List Call) :
    (after kind cache calls).bagNames = (calls.filterMap Call.bagName?).eraseDups := by
  induction calls using List.reverseRecOn with
  | nil => rfl
  | append_singleton calls c ih =>
    rw [after_concat, List.filterMap_append]
    cases c with
    | remove t => exact ih.trans (congrArg _ (List.append_nil _).symm)
    | set now t =>
      show ((after kind cache calls).file _).bagNames =
        (_ ++ [Call.set now t].filterMap _).eraseDups
      cases hbag : t.bag with
      | none =>
        have hname : (Call.set now t).bagName? = none := congrArg (Option.map _) hbag
        rw [bagNames_file_of_none ((bag_stamped _ _ _).trans hbag), List.filterMap_cons_none hname,
          List.filterMap_nil, List.append_nil, ih]
      | some bag =>
        have hname : (Call.set now t).bagName? = some bag.name := congrArg (Option.map _) hbag
        rw [bagNames_file_of_some ((bag_stamped _ _ _).trans hbag), List.filterMap_cons_some hname,
          List.filterMap_nil, eraseDups_concat, ih]
        simp only [List.mem_eraseDups]

/-! ## Completeness -/

/-- The tiddlers of a tier stand under their own keys, in order. -/
theorem Sound.map_key (h : tier.Sound) : tier.tiddlers.map Tiddler.key = tier.entries.keys :=
  Keyed.map_values_eq_keys fun _ he => h.keyed (Keyed.get?_eq_some_iff.2 he)

theorem Sound.pairwise_place (h : tier.Sound) :
    tier.tiddlers.Pairwise fun s t => ¬s.SharesPlace t := by
  have hnodup : (tier.tiddlers.map Tiddler.key).Nodup := h.map_key ▸ tier.entries.nodup
  refine (List.pairwise_map.1 hnodup).imp fun hne hplace => ?_
  exact hne (Tiddler.sharesPlace_iff.1 hplace)

/-- Each tiddler is found by whatever shares its place. -/
theorem Sound.get?_of_sharesPlace (h : tier.Sound) {w t : Tiddler} (ht : t ∈ tier.tiddlers)
    (hw : w.SharesPlace t) : tier.get? w = some t := by
  refine get?_of_key ?_
  rw [Tiddler.sharesPlace_iff.1 hw]
  exact h.mem_tiddlers_iff.1 ht

/-- A lookup with a bag succeeds exactly on what shares the place asked for. -/
theorem Sound.isSome_get?_bagged_iff (h : tier.Sound) {w : Tiddler} (hbag : w.bag.isSome) :
    (tier.get? w).isSome ↔ ∃ t ∈ tier.tiddlers, w.SharesPlace t := by
  constructor
  · intro hsome
    obtain ⟨t, ht⟩ := Option.isSome_iff_exists.1 hsome
    obtain ⟨hentry, -, hkey⟩ := h.of_get? ht
    exact ⟨t, h.mem_tiddlers_iff.2 hentry, Tiddler.sharesPlace_iff.2 (hkey hbag).symm⟩
  · rintro ⟨t, ht, hplace⟩
    rw [h.get?_of_sharesPlace ht hplace]
    rfl

/-- A lookup without a bag succeeds exactly where some tiddler has the title. -/
theorem Sound.isSome_get?_bagless_iff (h : tier.Sound) {w : Tiddler} (hbag : w.bag = none) :
    (tier.get? w).isSome ↔ ∃ t ∈ tier.tiddlers, t.title = w.title := by
  constructor
  · intro hsome
    obtain ⟨t, ht⟩ := Option.isSome_iff_exists.1 hsome
    obtain ⟨hentry, htitle, -⟩ := h.of_get? ht
    exact ⟨t, h.mem_tiddlers_iff.2 hentry, htitle⟩
  · rintro ⟨t, ht, htitle⟩
    exact h.isSome_get? (h.mem_tiddlers_iff.1 ht) hbag htitle

/-- Whether a tiddler is the one of its title in the bag that was seen first among those that hold
the title. -/
def IsFirstOfTitle (tier : Tier) (t : Tiddler) : Prop :=
  t ∈ tier.tiddlers ∧ ∃ before bag after, tier.bags = before ++ bag :: after ∧
    t.bagName = some bag.name ∧
    ∀ u ∈ tier.tiddlers, u.title = t.title → ∀ b ∈ before, u.bagName ≠ some b.name

/-- What stands under the key of a title in a bag is the tiddler of the title in that bag. -/
theorem Sound.get?_ofNames_iff (h : tier.Sound) {bag title : String} {t : Tiddler} :
    tier.entries.get? (Key.ofNames bag title) = some t ↔
      t ∈ tier.tiddlers ∧ t.bagName.getD "" = bag ∧ t.title = title := by
  constructor
  · intro ht
    have hkey := h.keyed ht
    exact ⟨h.mem_tiddlers_iff.2 (hkey.symm ▸ ht), Key.ofNames_inj.1 hkey⟩
  · rintro ⟨ht, rfl, rfl⟩
    exact h.mem_tiddlers_iff.1 ht

/-- Where no tiddler of the title stands under the empty name, a lookup without a bag finds the one
in the bag that was seen first. -/
theorem Sound.get?_bagless_iff (h : tier.Sound) {w t : Tiddler} (hbag : w.bag = none)
    (hnamed : ∀ u ∈ tier.tiddlers, u.title = w.title → u.IsBagged) :
    tier.get? w = some t ↔ t.title = w.title ∧ tier.IsFirstOfTitle t := by
  have hkey : w.key = Key.ofNames "" w.title := Tiddler.key_of_none hbag
  have hmiss : tier.entries.get? w.key = none := by
    refine Option.eq_none_iff_forall_ne_some.2 fun u hu => ?_
    obtain ⟨hmem, hname, htitle⟩ := h.get?_ofNames_iff.1 (hkey ▸ hu)
    exact hnamed u hmem htitle hname
  -- Under the name of a bag stands exactly what is of that bag, as no name in use is empty.
  have hat : ∀ name u, tier.entries.get? (Key.ofNames name w.title) = some u ↔
      u ∈ tier.tiddlers ∧ u.title = w.title ∧ u.bagName = some name := by
    intro name u
    rw [h.get?_ofNames_iff]
    constructor
    · rintro ⟨hmem, rfl, htitle⟩
      exact ⟨hmem, htitle, (Tiddler.bagName_eq_some_iff (hnamed u hmem htitle)).2 rfl⟩
    · rintro ⟨hmem, htitle, hname⟩
      exact ⟨hmem, by rw [hname]; rfl, htitle⟩
  have hget : tier.get? w = tier.findInBags? w.title := by
    unfold get?
    rw [hmiss, hbag]
    rfl
  rw [hget, findInBags?, List.findSome?_eq_some_iff]
  constructor
  · rintro ⟨before, bag, after, hbags, ht, hnone⟩
    obtain ⟨hmem, htitle, hname⟩ := (hat _ _).1 ht
    refine ⟨htitle, hmem, before, bag, after, hbags, hname, fun u hu hut b hb hub => ?_⟩
    have hu' := (hat _ _).2 ⟨hu, hut.trans htitle, hub⟩
    rw [hnone b hb] at hu'
    contradiction
  · rintro ⟨htitle, hmem, before, bag, after, hbags, hname, hnot⟩
    refine ⟨before, bag, after, hbags, (hat _ _).2 ⟨hmem, htitle, hname⟩, fun b hb => ?_⟩
    refine Option.eq_none_iff_forall_ne_some.2 fun u hu => ?_
    obtain ⟨hum, hut, hub⟩ := (hat _ _).1 hu
    exact hnot u hum (hut.trans htitle.symm) b hb hub

/-- What a tier of a kind keeps to, and what its lookups find, where it has seen the bags of these
names in this order. -/
structure Orderly (kind : Kind) (seen : List String) (tier : Tier) : Prop where
  /-- No two tiddlers share the bag and the title. -/
  distinct : tier.tiddlers.Pairwise fun s t => ¬s.SharesPlace t
  /-- Each tiddler is found under its own bag and title. -/
  found : ∀ {w t}, t ∈ tier.tiddlers → w.SharesPlace t → tier.get? w = some t
  /-- Tiddlers carry a stamp in the synced tier, and in no other. -/
  stamped : ∀ {t}, t ∈ tier.tiddlers → (t.lastSync.isSome ↔ kind = .synced)
  bags : tier.bags.map (·.name) = seen
  once : seen.Nodup
  /-- The bag of every tiddler has been seen. -/
  covered : ∀ {t bag}, t ∈ tier.tiddlers → t.bag = some bag → bag.name ∈ seen
  /-- A lookup with a bag succeeds exactly where a tiddler has that bag and title. -/
  withBag : ∀ {w}, w.bag.isSome → ((tier.get? w).isSome ↔ ∃ t ∈ tier.tiddlers, w.SharesPlace t)
  /-- A lookup without a bag succeeds exactly where a tiddler has the title. -/
  byTitle : ∀ {w}, w.bag = none →
    ((tier.get? w).isSome ↔ ∃ t ∈ tier.tiddlers, t.title = w.title)
  /-- It finds the tiddler of the title under the empty name if there is one. -/
  underNoName : ∀ {w t}, w.bag = none → t ∈ tier.tiddlers → t.title = w.title →
    t.bagName.getD "" = "" → tier.get? w = some t
  /-- Otherwise it finds the one in the bag that was seen first. -/
  inFirstBag : ∀ {w t}, w.bag = none →
    (∀ u ∈ tier.tiddlers, u.title = w.title → u.bagName.getD "" ≠ "") →
    (tier.get? w = some t ↔ t.title = w.title ∧ tier.IsFirstOfTitle t)

/-- Whatever is filed in a tier and removed from it, its lookups are complete. -/
theorem lookups_after_calls (kind : Kind) (cache : Cache) (calls : List Call) :
    Orderly kind (calls.filterMap Call.bagName?).eraseDups (after kind cache calls) := by
  have h := sound_after kind cache calls
  have hseen := bagNames_after kind cache calls
  refine ⟨h.pairwise_place, h.get?_of_sharesPlace, ?_, hseen, nodup_eraseDups _, ?_,
    h.isSome_get?_bagged_iff, h.isSome_get?_bagless_iff, ?_, h.get?_bagless_iff⟩
  · intro t ht
    have hstamp := h.stamped (h.mem_tiddlers_iff.1 ht)
    rw [Tiddler.isSynced, kind_after] at hstamp
    rw [hstamp, beq_iff_eq]
  · intro t bag ht hbag
    rw [← hseen]
    exact mem_bagNames_iff.2 (h.seen (h.mem_tiddlers_iff.1 ht) hbag)
  · intro w t hbag ht htitle hname
    refine h.get?_of_sharesPlace ht ⟨htitle.symm, ?_⟩
    rw [hname, Tiddler.bagName, hbag]
    rfl

end Tier

end TiddlerShelf
