import TiddlerShelf.Store.Location

/-!
# Reading and writing documents

A store gets tiddlers from the server, keeps edits, and saves them. A save sends a copy and looks at
the edits again when the server answers, since others may have been made meanwhile: an edit that was
made during the save is neither dropped nor overwritten.
-/

namespace TiddlerShelf.Store

/-- How to get a tiddler: as it would be shown, and from the server though there is an edit. -/
structure GetOptions where
  render : Bool := false
  fromServer : Bool := false
deriving DecidableEq

/-- The copy that says where to get a tiddler from: the best at hand. Where the server's copy is
asked for and there is no edit, only a confirmed copy counts. -/
def known? (s : Store) (target : Tiddler.Target) (options : GetOptions) : Option Tiddler :=
  if options.fromServer && (s.modified.get? target.wanted).isNone then s.synced.get? target.wanted
  else s.getLocal? target

/-- Gets a tiddler from the server and files it. An edit is given as it is, unless the server's copy
is asked for. -/
def get (target : Tiddler.Target) (options : GetOptions) : Program (Except StoreError Tiddler) := do
  let s ← Program.store
  match s.modified.get? target.wanted, options.fromServer with
  | some edit, false => return .ok edit
  | _, _ =>
    match (s.known? target options).filter Tiddler.hasContainer with
    | some wanted => fetchDocument wanted
    | none =>
      match ← getDefaults with
      | .error e => return .error e
      | .ok d => fetchDocument (Tiddler.inContainer target.name d.pullFrom)
where
  /-- Gets a tiddler through the container it names. -/
  fetchDocument (wanted : Tiddler) : Program (Except StoreError Tiddler) := do
    match ← Program.request (.get wanted options.render) with
    | .ok t => return .ok (← Program.act (·.fileSynced t))
    | .error cause => return .error (.getTiddler target.name cause)

/-- Keeps an edit. Without a bag it is kept as it is, and filed in the default container once that
is known. -/
def add (t : Tiddler) : Program (Except StoreError Tiddler) := do
  let stored ← Program.act (·.fileModified t)
  if t.bag.isSome then return .ok stored
  match ← getDefaults with
  | .error e => return .error e
  | .ok d => return .ok (← Program.act (·.fileModified (t.placeIn d.pushTo)))

/-- A tiddler as it is sent: filed in the default container if it has none. -/
def placed (t : Tiddler) : Program (Except StoreError Tiddler) := do
  if t.hasContainer then return .ok t
  return (← getDefaults).map fun d => t.placeIn d.pushTo

/-- Sends a tiddler to the server and takes note of the answer. -/
def send (t : Tiddler) : Program (Except StoreError Tiddler) := do
  let edit := (← Program.store).modifiedCopy? t
  match ← Program.request (.put t) with
  | .ok response => return .ok (← Program.act (·.acknowledge edit t response))
  | .error cause =>
    Program.change (·.takeBack edit t)
    return .error (.save t.title cause)

/-- Saves a tiddler, in the default container if it has none. -/
def saveTiddler (t : Tiddler) : Program (Except StoreError Tiddler) := do
  match ← placed t with
  | .error e => return .error e
  | .ok t => send t

/-- Saves the document handed over, or the edit of a title. -/
def save (target : Tiddler.Target) : Program (Except StoreError Tiddler) := do
  let s ← Program.store
  match target.given?.or (s.modified.get? target.wanted) with
  | some t => saveTiddler t
  | none =>
    if (s.synced.get? target.wanted).isSome then return .error .empty
    return .error (.notFound target.name)

/-- Saves every edit there is at the start, one after the other, each with a result of its own. -/
def saveAll : Program (Except StoreError (List (Except StoreError Tiddler))) := do
  match (← Program.store).pending with
  | [] => return .error .empty
  | edits => return .ok (← Program.each saveTiddler edits)

/-- Deletes a tiddler on the server and forgets it. One that is only an edit is just forgotten. -/
def destroy (target : Tiddler.Target) : Program (Except StoreError Tiddler) := do
  let s ← Program.store
  match (s.synced.get? target.wanted).filter Tiddler.hasContainer,
      s.modified.get? target.wanted with
  | some t, _ =>
    match ← Program.request (.delete t) with
    | .error cause => return .error (.delete t.title cause)
    | .ok () =>
      Program.change (·.forget t)
      return .ok t
  | none, some edit =>
    Program.change (·.forget edit)
    return .ok edit
  | none, none => return .error (.notFound target.name)

end TiddlerShelf.Store
