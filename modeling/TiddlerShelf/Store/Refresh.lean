import TiddlerShelf.Store.Location

/-!
# Refreshing

Refreshing fetches listings and files what they hold as confirmed copies. What a container's listing
lacks may have gone on the server. A bag lists all it has, so that a confirmed copy missing there is
dropped. A recipe may reach any bag and leave some out, so that each confirmed copy missing there is
fetched, and dropped only if that fails. The hits of a search never lead to anything being dropped.
-/

namespace TiddlerShelf.Store

/-- Whether a confirmed copy that a container's listing lacks may have gone. -/
def mayBeGone (c : Container) (t : Tiddler) : Bool := c.isRecipe || t.bagName == some c.name

/-- Whether a listing holds a tiddler of the same bag and title. -/
def isListed (listed : List Tiddler) (t : Tiddler) : Bool :=
  listed.any fun u => u.bagName == t.bagName && u.title == t.title

/-- The confirmed copies that may have gone, by a container's listing. -/
def gone (s : Store) (c : Container) (listed : List Tiddler) : List Tiddler :=
  s.synced.tiddlers.filter fun t => mayBeGone c t && !isListed listed t

/-- Files the tiddlers of a listing, one after the other. -/
def fileListing (s : Store) : List Tiddler → List Tiddler × Store
  | [] => ([], s)
  | t :: ts =>
    let (stored, s) := s.fileSynced t
    let (rest, s) := fileListing s ts
    (stored :: rest, s)

/-- Drops a confirmed copy that has gone, and tells of it if it was still there. -/
def dropGone (s : Store) (t : Tiddler) : Store :=
  if s.synced.entries.contains t.key then (s.dropSynced t).announce [.deleted t] else s.dropSynced t

/-- Drops those of some confirmed copies that have gone. -/
def dropAllGone (c : Container) : List Tiddler → Program Unit
  | [] => return ()
  | t :: ts => do
    let isThere ← if c.isRecipe then do
        let answer ← Program.request (.get t false)
        pure answer.isOk
      else pure false
    if !isThere then Program.change (·.dropGone t)
    dropAllGone c ts

/-- Fetches a listing. -/
def fetch : Source → Program (Except StoreError (List Tiddler))
  | .container c => do return (← Program.request (.list c)).mapError .retrieveTiddlers
  | .search query _ => do return (← Program.request (.search query)).mapError .search

/-- Fetches a listing and files it; gives the tiddlers as they were filed. -/
def refreshSource (source : Source) : Program (Except StoreError (List Tiddler)) := do
  match ← fetch source with
  | .error e => return .error e
  | .ok listed =>
    let stored ← Program.act (·.fileListing listed)
    match source with
    | .container c => dropAllGone c ((← Program.store).gone c listed)
    | .search .. => pure ()
    return .ok stored

/-- Refreshes sources one after the other and stops at the first failure. -/
def refreshSources : List Source → Program (Except StoreError (List Tiddler))
  | [] => return .ok []
  | source :: sources => do
    match ← refreshSource source with
    | .error e => return .error e
    | .ok stored => return (← refreshSources sources).map (stored ++ ·)

/-- Refreshes every source remembered at the start. -/
def refreshAll : Program (Except StoreError (List Tiddler)) := do
  refreshSources (← Program.store).sources.values

/-- Finds the place if need be, and refreshes every source remembered. -/
def refresh : Program (Except StoreError (List Tiddler)) := do
  match ← getDefaults with
  | .error e => return .error e
  | .ok _ => refreshAll

/-- Searches the server. The search is remembered, so that later refreshes run it again. -/
def search (query : String) : Program (Except StoreError (List Tiddler)) := do
  match ← getDefaults with
  | .error e => return .error e
  | .ok d =>
    let source : Source := .search query d.pullFrom.host
    Program.change (·.register source)
    refreshSource source

end TiddlerShelf.Store
