import TiddlerShelf.Proofs.Exactness

/-! # Recipes as one view

Listing a recipe lays its bags over each other from the lowest to the highest, getting a title
through it searches them from the highest down, and putting files in the highest. So long as none of
the bags is left out of listings, all three agree: what is listed of a title is what can be got, and
what has been put is both (`recipe_is_one_view`). -/

namespace TiddlerShelf

/-- Whether a tiddler is addressed through a recipe: it has no bag of its own. -/
structure Tiddler.IsThrough (t : Tiddler) (recipe : String) : Prop where
  bag : t.bagName = none
  recipe : t.recipeName = some recipe

namespace Server

variable {s : Server} {t wanted : Tiddler} {recipe : String} {place : Container}
  {bags : List String}

/-- The copy of a title in the highest of some bags that have one. -/
def topmost? (s : Server) (bags : List String) (title : String) : Option Tiddler :=
  bags.reverse.findSome? fun bag => s.stored? bag title

/-! ## Listing -/

/-- Of the tiddlers of a bag, just the one under a title has the title. -/
theorem Sound.filter_tiddlersOf (h : s.Sound) (bag title : String) :
    (s.tiddlersOf bag).filter (fun t => t.title = title) = (s.stored? bag title).toList := by
  unfold tiddlersOf Keyed.getD stored?
  cases hbag : s.bags.get? bag with
  | none => rfl
  | some tiddlers => exact Keyed.filter_values (h.title_of_mem_bag hbag) title

theorem Sound.find?_reverse_tiddlersOf (h : s.Sound) (bag title : String) :
    (s.tiddlersOf bag).reverse.find? (fun t => t.title = title) = s.stored? bag title := by
  rw [← List.head?_filter, List.filter_reverse, h.filter_tiddlersOf]
  cases s.stored? bag title <;> rfl

/-- Among the tiddlers of some bags, the last with a title is the one in the highest bag. -/
theorem Sound.find?_reverse_flatMap (h : s.Sound) (bags : List String) (title : String) :
    (bags.flatMap s.tiddlersOf).reverse.find? (fun t => t.title = title) =
      s.topmost? bags title := by
  rw [List.reverse_flatMap, List.find?_flatMap]
  exact congrArg (List.findSome? · bags.reverse)
    (funext fun bag => h.find?_reverse_tiddlersOf bag title)

/-- The listing of a recipe none of whose bags is left out has of a title just the copy in the
highest bag. -/
theorem Sound.filter_merged (h : s.Sound) {c : Container}
    (hlisted : ∀ bag ∈ c.bags, bag ∉ s.unlisted) (title : String) :
    (s.merged c).filter (fun t => t.title = title) =
      ((s.topmost? c.bags title).map fun t => { t with recipe := some c }).toList := by
  have hall : c.bags.filter (fun bag => bag ∉ s.unlisted) = c.bags :=
    List.filter_eq_self.2 fun bag hbag => decide_eq_true (hlisted bag hbag)
  unfold merged
  rw [Keyed.filter_values (title_of_mem_overlaid _ _), Keyed.get?_ofList, hall, ← List.map_reverse,
    List.find?_map, Option.map_map, ← h.find?_reverse_flatMap]
  rfl

/-! ## Getting -/

theorem answer_get_eq_ok_iff (hget : Operation.get ∉ s.failing) :
    (s.answer (.get wanted false)).1 = .ok t ↔ s.find? wanted = some t := by
  rw [answer_of_not_failing hget]
  simp only [fulfil]
  cases s.find? wanted <;> simp

/-- Through a recipe a title is got from the highest bag that has it. -/
theorem find?_of_isThrough (hplace : s.recipeContainer? recipe = some place)
    (hwanted : wanted.IsThrough recipe) :
    s.find? wanted =
      (s.topmost? place.bags wanted.title).map fun t => { t with recipe := some place } := by
  unfold find?
  rw [hwanted.bag, hwanted.recipe]
  show (s.recipeContainer? recipe).bind _ = _
  rw [hplace, Option.bind_some, Option.map_eq_bind]
  rfl

/-! ## Putting -/

/-- A tiddler that is put through a recipe is filed in the highest bag. -/
theorem of_put_through (hplace : s.recipeContainer? recipe = some place)
    (ht : t.IsThrough recipe) {copy : Tiddler} {s' : Server}
    (hput : s.answer (.put t) = (.ok copy, s')) :
    copy.title = t.title ∧ ∃ bag, place.bags.getLast? = some bag ∧ s' = s.file bag copy := by
  rw [answer_eq_fulfil (congrArg Prod.fst hput)] at hput
  obtain ⟨bags, hbags, rfl⟩ := Option.map_eq_some_iff.1 hplace
  simp only [fulfil, targetBag, ht.bag, ht.recipe, hbags, Option.bind_some] at hput
  cases hlast : bags.getLast? with
  | none => simp [hlast] at hput
  | some bag =>
    rw [hlast] at hput
    obtain ⟨hcopy, rfl⟩ := Prod.mk.inj hput
    obtain rfl := Except.ok.inj hcopy
    exact ⟨rfl, bag, rfl, rfl⟩

/-- What is filed in the highest bag covers all else of its title. -/
theorem topmost?_file {bag : String} (hlast : bags.getLast? = some bag) (s : Server)
    (t : Tiddler) : (s.file bag t).topmost? bags t.title = some t := by
  obtain ⟨lower, rfl⟩ := List.getLast?_eq_some_iff.1 hlast
  unfold topmost?
  rw [List.reverse_append, List.reverse_singleton, List.singleton_append, List.findSome?_cons,
    stored?_file, if_pos ⟨rfl, rfl⟩]

/-! ## One view -/

/-- Whether the listing of a recipe has just what can be got through the recipe: of each title one
tiddler at most, and one exactly if getting the title gives that one. -/
structure IsView (s : Server) (recipe : String) (listed : List Tiddler) : Prop where
  once : (listed.map (·.title)).Nodup
  got : ∀ {wanted t : Tiddler}, wanted.IsThrough recipe →
    (t ∈ listed ∧ t.title = wanted.title ↔ (s.answer (.get wanted false)).1 = .ok t)

theorem Sound.exists_view (h : s.Sound) {c : Container} (hc : c.isRecipe)
    (hplace : s.recipeContainer? c.name = some place)
    (hlisted : ∀ bag ∈ place.bags, bag ∉ s.unlisted) (hlist : Operation.list ∉ s.failing)
    (hget : Operation.get ∉ s.failing) :
    ∃ listed, (s.answer (.list c)).1 = .ok listed ∧ s.IsView c.name listed := by
  have hlisting : s.listing c = .ok (s.merged place) := by
    unfold listing
    rw [eq_of_beq hc, hplace]
  refine ⟨s.merged place, ?_, h.nodup_titles hlisting, fun {wanted t} hwanted => ?_⟩
  · rw [answer_of_not_failing hlist]
    exact hlisting
  · rw [answer_get_eq_ok_iff hget, find?_of_isThrough hplace hwanted, ← Option.mem_toList,
      ← h.filter_merged hlisted, List.mem_filter, decide_eq_true_iff]

/-- A recipe none of whose bags is left out of listings is one view, whatever the server has come to
hold: what is listed of a title is what can be got through the recipe, and a tiddler that is put
through it is then both listed and got. -/
theorem recipe_is_one_view {incidents : List Incident} {server : Server} {c place : Container}
    (hserver : server = .after incidents) (hc : c.isRecipe)
    (hplace : server.recipeContainer? c.name = some place)
    (hlisted : ∀ bag ∈ place.bags, bag ∉ server.unlisted)
    (hlist : Operation.list ∉ server.failing) (hget : Operation.get ∉ server.failing) :
    (∃ listed, (server.answer (.list c)).1 = .ok listed ∧ server.IsView c.name listed) ∧
      ∀ t copy server', t.IsThrough c.name → server.answer (.put t) = (.ok copy, server') →
        ∃ listed, (server'.answer (.list c)).1 = .ok listed ∧ server'.IsView c.name listed ∧
          { copy with recipe := some place } ∈ listed ∧
          ∀ wanted : Tiddler, wanted.IsThrough c.name → wanted.title = t.title →
            (server'.answer (.get wanted false)).1 = .ok { copy with recipe := some place } := by
  have h : server.Sound := hserver ▸ sound_after incidents
  refine ⟨h.exists_view hc hplace hlisted hlist hget, fun t copy server' ht hput => ?_⟩
  have h' : server'.Sound := by
    have hevolves := evolves_answer server (.put t)
    rw [hput] at hevolves
    exact h.evolves hevolves
  obtain ⟨htitle, bag, hlast, rfl⟩ := of_put_through hplace ht hput
  -- Filing leaves the recipes, what is left out of listings and what fails as they were.
  have hget' : Operation.get ∉ (server.file bag copy).failing := hget
  have hplace' : (server.file bag copy).recipeContainer? c.name = some place := hplace
  obtain ⟨listed, hanswer, hview⟩ := h'.exists_view hc hplace' hlisted hlist hget'
  have hgot : ∀ wanted : Tiddler, wanted.IsThrough c.name → wanted.title = t.title →
      ((server.file bag copy).answer (.get wanted false)).1 =
        .ok { copy with recipe := some place } := by
    intro wanted hwanted hsame
    rw [answer_get_eq_ok_iff hget', find?_of_isThrough hplace' hwanted, hsame, ← htitle,
      topmost?_file hlast]
    rfl
  exact ⟨listed, hanswer, hview, ((hview.got ht).2 (hgot t ht rfl)).1, hgot⟩

/-- A title of two bags in a stack, the highest of which is also the lowest, is listed and got from
there, and so is one that was only in another bag once it has been put through the stack. -/
theorem repeated_bag_is_one_view :
    ∃ (server server' : Server) (listed listed' : List Tiddler) (copy : Tiddler),
      (server.answer (.list (.recipe "stack"))).1 = .ok listed ∧ server.IsView "stack" listed ∧
      listed.map (fun t => (t.title, t.bagName)) = [("A", some "high"), ("B", some "low")] ∧
      server.answer (.put { title := "B", recipe := some (.recipe "stack") }) =
        (.ok copy, server') ∧
      (server'.answer (.list (.recipe "stack"))).1 = .ok listed' ∧
      server'.IsView "stack" listed' ∧
      listed'.map (fun t => (t.title, t.bagName)) = [("A", some "high"), ("B", some "high")] := by
  let bags := ["high", "low", "empty", "high"]
  let place : Container := { Container.recipe "stack" with bags }
  let seeded (bag title : String) : Incident := .seed { title, bag := some (.bag bag) }
  let server : Server := .after [.defineRecipe "stack" bags, seeded "low" "A", seeded "low" "B",
    seeded "high" "A"]
  let wanted : Tiddler := { title := "B", recipe := some (.recipe "stack") }
  have hplace : server.recipeContainer? "stack" = some place := by decide +kernel
  have hall : ∀ bag ∈ place.bags, bag ∉ server.unlisted := fun _ _ => List.not_mem_nil
  obtain ⟨⟨listed, hlisted, hview⟩, hput⟩ := recipe_is_one_view (c := .recipe "stack") rfl rfl
    hplace hall List.not_mem_nil List.not_mem_nil
  obtain ⟨listed', hlisted', hview', -, -⟩ := hput wanted _ _ ⟨rfl, rfl⟩ rfl
  refine ⟨server, _, listed, listed', _, hlisted, hview, ?_, rfl, hlisted', hview', ?_⟩
  · obtain rfl := Except.ok.inj hlisted
    decide +kernel
  · obtain rfl := Except.ok.inj hlisted'
    decide +kernel

end Server

end TiddlerShelf
