import TiddlerShelf.Proofs.Upkeep
import TiddlerShelf.Remote.Server

/-! # The copies that a server holds

A server files every copy under its own bag and title, and gives it a revision that no copy had
before. So whatever happens to a server, a copy that it holds later is one that it held before, or
its revision is new (`Server.Evolves`). What a server gives to a client agrees with a copy that it
holds. -/

namespace TiddlerShelf

open Program

namespace Fields

/-- Putting in a field leaves the fields of other names alone. -/
theorem get?_insert_of_ne (fs : Fields) {name other : String} (value : String)
    (hne : other ≠ name) : (fs.insert name value).get? other = fs.get? other := by
  obtain ⟨es, hsorted⟩ := fs
  show ((put name value es).find? fun e => e.1 == other).map Prod.snd =
    (es.find? fun e => e.1 == other).map Prod.snd
  have hname : (name == other) = false := beq_eq_false_iff_ne.2 hne.symm
  clear hsorted
  induction es with
  | nil => simp [put, hname]
  | cons e es ih =>
    obtain ⟨n, v⟩ := e
    simp only [put]
    split
    · simp [List.find?_cons, hname]
    · split
      · rw [List.find?_cons, List.find?_cons]
        split
        · rfl
        · exact ih
      · rename_i hge hle
        obtain rfl : name = n := String.le_antisymm (String.not_lt.1 hle) (String.not_lt.1 hge)
        simp [hname]

end Fields

namespace Keyed

variable {κ α : Type} [DecidableEq κ]

/-- In a table stands what has been put in last under a key. -/
theorem get?_ofList (es : List (κ × α)) (k : κ) :
    (ofList es).get? k = (es.reverse.find? fun e => e.1 = k).map Prod.snd := by
  have hfold : ∀ t : Keyed κ α, (es.foldl (fun t e => t.insert e.1 e.2) t).get? k =
      ((es.reverse.find? fun e => e.1 = k).map Prod.snd).or (t.get? k) := by
    induction es with
    | nil => exact fun t => rfl
    | cons e es ih =>
      intro t
      rw [List.foldl_cons, ih, get?_insert, List.reverse_cons, List.find?_append, Option.map_or,
        Option.or_assoc]
      by_cases hk : e.1 = k
      · simp [hk]
      · simp [hk, Ne.symm hk]
  exact (hfold .empty).trans (Option.or_none)

/-- What is in a table has been put in. -/
theorem mem_of_get?_ofList {es : List (κ × α)} {k : κ} {a : α}
    (h : (ofList es).get? k = some a) : (k, a) ∈ es := by
  rw [get?_ofList] at h
  obtain ⟨⟨k', b⟩, hfound, rfl⟩ := Option.map_eq_some_iff.1 h
  obtain rfl : k' = k := by simpa using List.find?_some hfound
  exact List.mem_reverse.1 (List.mem_of_find?_eq_some hfound)

theorem mem_of_mem_ofList {es : List (κ × α)} {e : κ × α} (h : e ∈ (ofList es).entries) :
    e ∈ es :=
  mem_of_get?_ofList (get?_eq_some_iff.2 h)

end Keyed

namespace Tiddler

/-- What of a tiddler neither the way it came nor the time tells. -/
def core (t : Tiddler) : Tiddler := { t with fields := .empty, recipe := none, lastSync := none }

/-- Whether two tiddlers agree in everything but the time of their confirmation, the recipe that
they came through, and the field that has the text as it would be shown. -/
structure AgreesWith (s t : Tiddler) : Prop where
  core : s.core = t.core
  fields : ∀ name, name ≠ "render" → s.fields.get? name = t.fields.get? name

variable {s t u : Tiddler}

theorem AgreesWith.refl (t : Tiddler) : t.AgreesWith t := ⟨rfl, fun _ _ => rfl⟩

theorem AgreesWith.symm (h : s.AgreesWith t) : t.AgreesWith s :=
  ⟨h.core.symm, fun name hname => (h.fields name hname).symm⟩

theorem AgreesWith.trans (h : s.AgreesWith t) (h' : t.AgreesWith u) : s.AgreesWith u :=
  ⟨h.core.trans h'.core, fun name hname => (h.fields name hname).trans (h'.fields name hname)⟩

theorem AgreesWith.title (h : s.AgreesWith t) : s.title = t.title :=
  show s.core.title = t.core.title from congrArg _ h.core

theorem AgreesWith.revision (h : s.AgreesWith t) : s.revision = t.revision :=
  show s.core.revision = t.core.revision from congrArg _ h.core

theorem AgreesWith.bagName (h : s.AgreesWith t) : s.bagName = t.bagName :=
  show s.core.bagName = t.core.bagName from congrArg _ h.core

theorem agreesWith_withRecipe (t : Tiddler) (recipe : Option Container) :
    t.AgreesWith { t with recipe } :=
  ⟨rfl, fun _ _ => rfl⟩

theorem agreesWith_stamped (t : Tiddler) (lastSync : Option Instant) :
    t.AgreesWith { t with lastSync } :=
  ⟨rfl, fun _ _ => rfl⟩

end Tiddler

namespace Server

/-- Whether a server holds, under the bag and the title of a tiddler, a copy that agrees with it. -/
def Backs (s : Server) (t : Tiddler) : Prop :=
  ∃ bag v, t.bagName = some bag ∧ s.stored? bag t.title = some v ∧ v.AgreesWith t

/-- A server in which every copy stands under its own bag and title, and has a revision that has
been given out. -/
structure Sound (s : Server) : Prop where
  bag : ∀ {bag title v}, s.stored? bag title = some v → v.bagName = some bag
  title : ∀ {bag title v}, s.stored? bag title = some v → v.title = title
  revision : ∀ {bag title v}, s.stored? bag title = some v →
    ∃ r, v.revision = some r ∧ r < s.nextRevision

/-- Whether a server may come to stand as another does: a copy is one from before, or it has been
filed under its bag and title with a new revision. -/
structure Evolves (s s' : Server) : Prop where
  next : s.nextRevision ≤ s'.nextRevision
  copies : ∀ {bag title v}, s'.stored? bag title = some v → s.stored? bag title = some v ∨
    v.bagName = some bag ∧ v.title = title ∧
      ∃ r, v.revision = some r ∧ s.nextRevision ≤ r ∧ r < s'.nextRevision

theorem sound_empty : ({} : Server).Sound := by
  have hnone : ∀ {p : Prop} {bag title v}, ({} : Server).stored? bag title = some v → p :=
    fun h => absurd h.symm (Option.some_ne_none _)
  exact ⟨hnone, hnone, hnone⟩

section

variable {s s' s'' : Server}

theorem Evolves.refl (s : Server) : Evolves s s := ⟨Nat.le_refl _, .inl⟩

theorem Evolves.trans (h : Evolves s s') (h' : Evolves s' s'') : Evolves s s'' := by
  refine ⟨Nat.le_trans h.next h'.next, fun hv => ?_⟩
  rcases h'.copies hv with hv | ⟨hbag, htitle, r, hr, hle, hlt⟩
  · rcases h.copies hv with hv | ⟨hbag, htitle, r, hr, hle, hlt⟩
    · exact .inl hv
    · exact .inr ⟨hbag, htitle, r, hr, hle, Nat.lt_of_lt_of_le hlt h'.next⟩
  · exact .inr ⟨hbag, htitle, r, hr, Nat.le_trans h.next hle, hlt⟩

/-- Where no copy comes in and no revision is taken back, a server evolves. -/
theorem Evolves.of_stored (hnext : s.nextRevision ≤ s'.nextRevision)
    (hstored : ∀ {bag title v}, s'.stored? bag title = some v → s.stored? bag title = some v) :
    Evolves s s' :=
  ⟨hnext, fun hv => .inl (hstored hv)⟩

theorem Sound.evolves (h : s.Sound) (h' : Evolves s s') : s'.Sound := by
  refine ⟨fun hv => ?_, fun hv => ?_, fun hv => ?_⟩
  · rcases h'.copies hv with hv | ⟨hbag, -, -⟩
    · exact h.bag hv
    · exact hbag
  · rcases h'.copies hv with hv | ⟨-, htitle, -⟩
    · exact h.title hv
    · exact htitle
  · rcases h'.copies hv with hv | ⟨-, -, r, hr, -, hlt⟩
    · obtain ⟨r, hr, hlt⟩ := h.revision hv
      exact ⟨r, hr, Nat.lt_of_lt_of_le hlt h'.next⟩
    · exact ⟨r, hr, hlt⟩

end

/-! ## Filing and dropping -/

theorem stored?_file (s : Server) (bag : String) (t : Tiddler) (bag' title : String) :
    (s.file bag t).stored? bag' title =
      if bag' = bag ∧ title = t.title then some t else s.stored? bag' title := by
  show ((s.bags.insert bag ((s.bags.getD bag .empty).insert t.title t)).get? bag').bind
    (fun tiddlers => tiddlers.get? title) = _
  rw [Keyed.get?_insert]
  by_cases hbag : bag' = bag
  · rw [if_pos hbag, Option.bind_some, Keyed.get?_insert, hbag]
    by_cases htitle : title = t.title
    · rw [if_pos htitle, if_pos ⟨rfl, htitle⟩]
    · rw [if_neg htitle, if_neg fun h => htitle h.2]
      unfold stored? Keyed.getD
      cases s.bags.get? bag <;> rfl
  · rw [if_neg hbag, if_neg fun h => hbag h.1]
    rfl

theorem stored?_drop (s : Server) (bag title bag' title' : String) :
    (s.drop bag title).stored? bag' title' =
      if bag' = bag ∧ title' = title then none else s.stored? bag' title' := by
  unfold drop
  split
  · rename_i tiddlers htiddlers
    show ((s.bags.insert bag (tiddlers.erase title)).get? bag').bind
      (fun tiddlers => tiddlers.get? title') = _
    rw [Keyed.get?_insert]
    by_cases hbag : bag' = bag
    · rw [if_pos hbag, Option.bind_some, Keyed.get?_erase, hbag]
      unfold stored?
      rw [htiddlers]
      by_cases htitle : title' = title
      · rw [if_pos htitle, if_pos ⟨rfl, htitle⟩]
      · rw [if_neg htitle, if_neg fun h => htitle h.2]
        rfl
    · rw [if_neg hbag, if_neg fun h => hbag h.1]
      rfl
  · rename_i hnone
    split
    · rename_i hplace
      unfold stored?
      rw [hplace.1, hnone]
      rfl
    · rfl

theorem stored?_ensureBag (s : Server) (name bag title : String) :
    (s.ensureBag name).stored? bag title = s.stored? bag title := by
  unfold ensureBag
  split
  · rfl
  · rename_i hcontains
    unfold stored?
    rw [Keyed.get?_insert]
    split
    · rename_i hbag
      have hnone : s.bags.get? name = none := by simpa [Keyed.contains] using hcontains
      rw [hbag, hnone]
      rfl
    · rfl

theorem nextRevision_drop (s : Server) (bag title : String) :
    (s.drop bag title).nextRevision = s.nextRevision := by
  unfold drop
  split <;> rfl

theorem nextRevision_ensureBag (s : Server) (name : String) :
    (s.ensureBag name).nextRevision = s.nextRevision := by
  unfold ensureBag
  split <;> rfl

/-- Filing a stamped tiddler in its bag uses up a revision. -/
theorem evolves_file (s : Server) {bag : String} {t : Tiddler} (hbag : t.bagName = some bag)
    (hrevision : t.revision = some s.nextRevision) : Evolves s (s.file bag t) := by
  refine ⟨Nat.le_succ _, fun hv => ?_⟩
  rw [stored?_file] at hv
  split at hv
  · rename_i hplace
    obtain rfl := Option.some.inj hv
    exact .inr ⟨hplace.1 ▸ hbag, hplace.2.symm, _, hrevision, Nat.le_refl _, Nat.lt_succ_self _⟩
  · exact .inl hv

theorem evolves_seed (s : Server) (t : Tiddler) : Evolves s (s.seed t) := by
  unfold seed
  split
  · rename_i bag hbag
    exact evolves_file s hbag rfl
  · exact .of_stored (Nat.le_succ _) id

theorem evolves_drop (s : Server) (bag title : String) : Evolves s (s.drop bag title) := by
  refine .of_stored (Nat.le_of_eq (nextRevision_drop s bag title).symm) fun hv => ?_
  rw [stored?_drop] at hv
  split at hv
  · contradiction
  · exact hv

theorem evolves_defineRecipe (s : Server) (name : String) (bags : List String) :
    Evolves s (s.defineRecipe name bags) := by
  have hfold : Evolves s (bags.foldl ensureBag s) :=
    List.foldlRecOn bags ensureBag (.refl s) fun s' h bag _ =>
      h.trans (.of_stored (Nat.le_of_eq (nextRevision_ensureBag s' bag).symm) fun hv =>
        (stored?_ensureBag s' bag _ _).symm.trans hv)
  exact ⟨hfold.next, hfold.copies⟩

/-! ## Answers -/

theorem fulfil_get_snd (s : Server) (wanted : Tiddler) (render : Bool) :
    (s.fulfil (.get wanted render)).2 = s := by
  simp only [fulfil]
  split <;> rfl

theorem answer_get_snd (s : Server) (wanted : Tiddler) (render : Bool) :
    (s.answer (.get wanted render)).2 = s := by
  unfold answer
  split
  · rfl
  · exact s.fulfil_get_snd wanted render

theorem evolves_answer (s : Server) (r : Request) : Evolves s (s.answer r).2 := by
  unfold answer
  split
  · exact .refl s
  · cases r with
    | put t =>
      simp only [fulfil]
      split
      · exact evolves_file s rfl rfl
      · exact .refl s
    | delete t =>
      simp only [fulfil]
      split
      · split
        · exact evolves_drop s _ _
        · exact .refl s
      · exact .refl s
    | get wanted render => exact (fulfil_get_snd s wanted render).symm ▸ .refl s
    | _ => exact .refl s

theorem agreesWith_rendered (t : Tiddler) : t.AgreesWith (rendered t) :=
  ⟨rfl, fun _ hname => (t.fields.get?_insert_of_ne t.text hname).symm⟩

section

variable {s : Server} {t u : Tiddler}

theorem Backs.agreesWith (h : s.Backs t) (h' : t.AgreesWith u) : s.Backs u := by
  obtain ⟨bag, v, hbag, hv, hagree⟩ := h
  exact ⟨bag, v, h'.bagName ▸ hbag, h'.title ▸ hv, hagree.trans h'⟩

theorem Backs.bag_isSome (h : s.Backs t) : t.bag.isSome := by
  obtain ⟨bag, -, hbag, -⟩ := h
  obtain ⟨place, hplace, -⟩ := Option.map_eq_some_iff.1 hbag
  exact hplace ▸ rfl

/-- What is in a bag is what stands in the table of its tiddlers. -/
theorem stored?_eq_get? {bag : String} {tiddlers : Keyed String Tiddler}
    (hbag : s.bags.get? bag = some tiddlers) (title : String) :
    s.stored? bag title = tiddlers.get? title := by
  rw [stored?, hbag]
  rfl

/-- A listing is what is in a bag, or what the bags of a recipe come to. -/
theorem listing_cases {c : Container} {listed : List Tiddler} (h : s.listing c = .ok listed) :
    (c.isRecipe = false ∧ ∃ tiddlers, s.bags.get? c.name = some tiddlers ∧
      tiddlers.values = listed) ∨
      c.isRecipe = true ∧ ∃ recipe, s.recipeContainer? c.name = some recipe ∧
        s.merged recipe = listed := by
  unfold listing at h
  split at h <;> rename_i hkind
  · split at h
    · rename_i tiddlers hbag
      exact .inl ⟨by rw [Container.isRecipe, hkind]; rfl, tiddlers, hbag, Except.ok.inj h⟩
    · contradiction
  · split at h
    · rename_i recipe hrecipe
      exact .inr ⟨by rw [Container.isRecipe, hkind]; rfl, recipe, hrecipe, Except.ok.inj h⟩
    · contradiction

/-- A server backs the copies that it holds. -/
theorem Sound.backs (h : s.Sound) {bag title : String} (ht : s.stored? bag title = some t) :
    s.Backs t :=
  ⟨bag, t, h.bag ht, (h.title ht).symm ▸ ht, .refl t⟩

theorem Sound.backs_of_find? (h : s.Sound) {wanted : Tiddler} (ht : s.find? wanted = some t) :
    s.Backs t := by
  unfold find? at ht
  split at ht
  · exact h.backs ht
  · obtain ⟨container, -, hfound⟩ := Option.bind_eq_some_iff.1 ht
    obtain ⟨found, hcopy, hsome⟩ := Option.bind_eq_some_iff.1 hfound
    obtain rfl := Option.some.inj hsome
    obtain ⟨bag, -, hstored⟩ := List.exists_of_findSome?_eq_some hcopy
    exact (h.backs hstored).agreesWith (found.agreesWith_withRecipe _)
  · contradiction

theorem Sound.backs_of_mem_bag (h : s.Sound) {bag : String} {tiddlers : Keyed String Tiddler}
    (hbag : s.bags.get? bag = some tiddlers) (ht : t ∈ tiddlers.values) : s.Backs t := by
  obtain ⟨title, hget⟩ := Keyed.mem_values_iff.1 ht
  exact h.backs ((stored?_eq_get? hbag title).trans hget)

theorem Sound.backs_of_mem_merged (h : s.Sound) {recipe : Container} (ht : t ∈ s.merged recipe) :
    s.Backs t := by
  obtain ⟨title, hget⟩ := Keyed.mem_values_iff.1 ht
  obtain ⟨found, hfound, heq⟩ := List.mem_map.1 (Keyed.mem_of_get?_ofList hget)
  obtain rfl := (Prod.mk.inj heq).2
  obtain ⟨bag, -, hmem⟩ := List.mem_flatMap.1 hfound
  refine Backs.agreesWith ?_ (found.agreesWith_withRecipe _)
  unfold tiddlersOf Keyed.getD at hmem
  cases htiddlers : s.bags.get? bag with
  | none =>
    rw [htiddlers] at hmem
    exact absurd hmem List.not_mem_nil
  | some tiddlers =>
    rw [htiddlers] at hmem
    exact h.backs_of_mem_bag htiddlers hmem

theorem Sound.backs_of_mem_listing (h : s.Sound) {c : Container} {ts : List Tiddler}
    (hts : s.listing c = .ok ts) (ht : t ∈ ts) : s.Backs t := by
  obtain ⟨-, tiddlers, hbag, rfl⟩ | ⟨-, recipe, -, rfl⟩ := listing_cases hts
  · exact h.backs_of_mem_bag hbag ht
  · exact h.backs_of_mem_merged ht

theorem Sound.backs_of_mem_found (h : s.Sound) {query : String} (ht : t ∈ s.found query) :
    s.Backs t := by
  obtain ⟨tiddlers, htiddlers, hmem⟩ := List.mem_flatMap.1 (List.mem_filter.1 ht).1
  obtain ⟨bag, hbag⟩ := Keyed.mem_values_iff.1 htiddlers
  exact h.backs_of_mem_bag hbag hmem

/-- A server backs every tiddler that it gives, when it has given it. -/
theorem Sound.backs_of_given (h : s.Sound) (since : Store) (r : Request)
    (ht : t ∈ (Cause.answered since r (s.answer r).1).given) : (s.answer r).2.Backs t := by
  unfold answer at ht ⊢
  split at ht
  · cases r <;> exact absurd ht List.not_mem_nil
  · rename_i hop
    rw [if_neg hop]
    cases r with
    | get wanted render =>
      simp only [fulfil] at ht ⊢
      split at ht
      · rename_i found hfound
        obtain rfl := List.mem_singleton.1 ht
        have hbacks := h.backs_of_find? hfound
        cases render with
        | false => exact hbacks
        | true => exact hbacks.agreesWith (agreesWith_rendered found)
      · exact absurd ht List.not_mem_nil
    | put sent =>
      simp only [fulfil] at ht ⊢
      split at ht
      · rename_i bag _
        obtain rfl := List.mem_singleton.1 ht
        exact ⟨bag, _, rfl, by rw [stored?_file, if_pos ⟨rfl, rfl⟩], .refl _⟩
      · exact absurd ht List.not_mem_nil
    | list c =>
      cases hlisting : s.listing c with
      | ok ts =>
        simp only [fulfil, hlisting] at ht
        exact h.backs_of_mem_listing hlisting ht
      | error e =>
        simp only [fulfil, hlisting] at ht
        exact absurd ht List.not_mem_nil
    | search query => exact h.backs_of_mem_found ht
    | discover => exact absurd ht List.not_mem_nil
    | delete u => exact absurd ht List.not_mem_nil

end

end Server

end TiddlerShelf
