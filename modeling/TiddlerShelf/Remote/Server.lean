import TiddlerShelf.Keyed
import TiddlerShelf.Remote.Basic
import TiddlerShelf.Text.Cut

/-!
# A server in memory

Bags hold tiddlers under their titles and recipes stack bags, the last one on top. Every tiddler
that is put gets a fresh revision. Reading and writing through a recipe is resolved against its
bags: the topmost bag that has a title gives it, and new tiddlers go into the bag on top.
-/

namespace TiddlerShelf

/-- What a server holds, and what it has been asked. -/
structure Server where
  bags : Keyed String (Keyed String Tiddler) := .empty
  recipes : Keyed String (List String) := .empty
  /-- Bags that the listings of recipes leave out. -/
  unlisted : List String := []
  discovery : Discovery := {}
  /-- The kinds of request that fail. -/
  failing : List Operation := []
  /-- The requests that have come in, also those that failed or wait. -/
  received : List Request := []
  nextRevision : Nat := 1

namespace Server

/-- Puts in a bag unless there is one of that name. -/
def ensureBag (s : Server) (name : String) : Server :=
  if s.bags.contains name then s else { s with bags := s.bags.insert name .empty }

/-- Defines a recipe over bags, the lowest first. Bags that are missing are made. -/
def defineRecipe (s : Server) (name : String) (bags : List String) : Server :=
  let s := bags.foldl ensureBag s
  { s with recipes := s.recipes.insert name bags }

/-- The server's copy of a title in a bag. -/
def stored? (s : Server) (bag title : String) : Option Tiddler :=
  (s.bags.get? bag).bind fun tiddlers => tiddlers.get? title

/-- A tiddler with the next revision. -/
def stamped (s : Server) (t : Tiddler) : Tiddler :=
  { t with revision := some s.nextRevision, lastSync := none }

/-- Files a tiddler in a bag and uses up a revision. -/
def file (s : Server) (bag : String) (t : Tiddler) : Server :=
  { s with
    bags := s.bags.insert bag ((s.bags.getD bag .empty).insert t.title t)
    nextRevision := s.nextRevision + 1 }

/-- Files a tiddler in its bag without being asked by a client. Without a bag it only gets a
revision. -/
def seed (s : Server) (t : Tiddler) : Server :=
  match t.bagName with
  | some bag => s.file bag (s.stamped t)
  | none => { s with nextRevision := s.nextRevision + 1 }

/-- Drops a title from a bag. -/
def drop (s : Server) (bag title : String) : Server :=
  match s.bags.get? bag with
  | some tiddlers => { s with bags := s.bags.insert bag (tiddlers.erase title) }
  | none => s

/-- Leaves a bag out of the listings of recipes from now on. -/
def unlist (s : Server) (bag : String) : Server := { s with unlisted := bag :: s.unlisted }

/-- Lets requests of a kind fail. -/
def fail (s : Server) (op : Operation) : Server :=
  { s with failing := op :: s.failing.filter (· ≠ op) }

/-- Lets requests of a kind succeed again. -/
def recover (s : Server) (op : Operation) : Server :=
  { s with failing := s.failing.filter (· ≠ op) }

/-- How many requests of a kind have come in. -/
def calls (s : Server) (op : Operation) : Nat := s.received.countP fun r => r.operation == op

/-- Takes note of a request. -/
def receive (s : Server) (r : Request) : Server := { s with received := s.received ++ [r] }

/-- The recipe of a name as a container. -/
def recipeContainer? (s : Server) (name : String) : Option Container :=
  (s.recipes.get? name).map fun bags => { Container.recipe name with bags }

/-- The failure of a request of a kind that fails. -/
def failure (op : Operation) : RemoteError :=
  ⟨some 500, "Internal Server Error", op.name ++ " failed"⟩

/-- The server does not have something. -/
def missing (what : String) : RemoteError := .notFound (what ++ " not found")

/-- The bag that a write lands in: the tiddler's own, or the top of its recipe. -/
def targetBag (s : Server) (t : Tiddler) : Except RemoteError String :=
  match t.bagName, t.recipeName with
  | some bag, _ => .ok bag
  | none, none => .error ⟨some 400, "Bad Request", "tiddler has no container"⟩
  | none, some recipe =>
    match (s.recipes.get? recipe).bind List.getLast? with
    | some bag => .ok bag
    | none => .error (missing ("recipe " ++ recipe))

/-- Looks a title up in a tiddler's bag, or else through its recipe. -/
def find? (s : Server) (t : Tiddler) : Option Tiddler :=
  match t.bagName, t.recipeName with
  | some bag, _ => s.stored? bag t.title
  | none, some recipe => do
    let container ← s.recipeContainer? recipe
    let found ← container.bags.reverse.findSome? fun bag => s.stored? bag t.title
    some { found with recipe := some container }
  | none, none => none

/-- A tiddler with its text as it would be shown. -/
def rendered (t : Tiddler) : Tiddler := { t with fields := t.fields.insert "render" t.text }

/-- The tiddlers of a bag. -/
def tiddlersOf (s : Server) (bag : String) : List Tiddler := (s.bags.getD bag .empty).values

/-- The listing of a recipe: its listed bags laid over each other. A title stands where the lowest
bag that has it puts it, with the copy of the highest. -/
def merged (s : Server) (recipe : Container) : List Tiddler :=
  let listed := recipe.bags.filter fun bag => bag ∉ s.unlisted
  (Keyed.ofList ((listed.flatMap s.tiddlersOf).map fun t =>
    (t.title, { t with recipe := some recipe }))).values

/-- The listing of a container. -/
def listing (s : Server) (c : Container) : Except RemoteError (List Tiddler) :=
  match c.kind with
  | .bag =>
    match s.bags.get? c.name with
    | some tiddlers => .ok tiddlers.values
    | none => .error (missing ("bag " ++ c.name))
  | .recipe =>
    match s.recipeContainer? c.name with
    | some recipe => .ok (s.merged recipe)
    | none => .error (missing ("recipe " ++ c.name))

/-- Whether a search finds a tiddler: it looks at title and text. -/
def isHit (query : String) (t : Tiddler) : Bool :=
  Text.occursIn query.toList t.title.toList || Text.occursIn query.toList t.text.toList

/-- The tiddlers that a search finds, bag by bag. -/
def found (s : Server) (query : String) : List Tiddler :=
  (s.bags.values.flatMap Keyed.values).filter (isHit query)

/-- Fulfils a request. -/
def fulfil (s : Server) : (r : Request) → Except RemoteError r.Reply × Server
  | .discover => (.ok s.discovery, s)
  | .get wanted render =>
    match s.find? wanted with
    | some t => (.ok (if render then rendered t else t), s)
    | none => (.error (missing wanted.title), s)
  | .put t =>
    match s.targetBag t with
    | .ok bag =>
      let t := { s.stamped t with bag := some (.bag bag) }
      (.ok t, s.file bag t)
    | .error e => (.error e, s)
  | .delete t =>
    match s.targetBag t with
    | .ok bag =>
      match s.stored? bag t.title with
      | some _ => (.ok (), s.drop bag t.title)
      | none => (.error (missing t.title), s)
    | .error e => (.error e, s)
  | .list c => (s.listing c, s)
  | .search query => (.ok (s.found query), s)

/-- Answers a request: it fails if its kind is failing. -/
def answer (s : Server) (r : Request) : Except RemoteError r.Reply × Server :=
  if r.operation ∈ s.failing then (.error (failure r.operation), s) else s.fulfil r

end Server

end TiddlerShelf
