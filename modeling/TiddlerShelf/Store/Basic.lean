import TiddlerShelf.Config.Basic
import TiddlerShelf.Hub.Announcement
import TiddlerShelf.Store.Resolver
import TiddlerShelf.Store.Source
import TiddlerShelf.Tier

/-!
# Stores

A store holds two tiers: copies confirmed by the server, and edits not yet saved, which its cache
keeps as well. Reading prefers an edit to a confirmed copy. This module has what a store does on its
own, without the server.
-/

namespace TiddlerShelf

/-- The state of a store. -/
structure Store where
  config : Config := {}
  /-- The time that confirmed copies are stamped with. -/
  clock : Instant := ⟨0, 0⟩
  synced : Tier := { kind := .synced }
  modified : Tier := { kind := .modified }
  audience : Audience := {}
  resolver : Resolver := .unresolved
  /-- The host of containers that the server names. -/
  host : String := "/"
  sources : Keyed String Source := .empty
  /-- The container that the store has come to read from. -/
  location : Option Container := none

namespace Store

/-- Drops the edit that a title names, with the event that tells of it. -/
def withdrawEdit (title : String) (modified : Tier) : Tier × Option Event :=
  let (modified, t) := modified.withdraw { title }
  (modified, t.map Event.deleted)

/-- Announces events one after the other. -/
def announce (s : Store) (events : List Event) : Store :=
  let (audience, modified) := s.audience.announceAll withdrawEdit s.modified events
  { s with audience, modified }

/-- Takes the action of a listener. -/
def perform (s : Store) (action : Action) : Store :=
  let (audience, modified) := s.audience.perform withdrawEdit s.modified action
  { s with audience, modified }

/-- Files a confirmed copy and tells what is new. -/
def fileSynced (s : Store) (t : Tiddler) : Tiddler × Store :=
  let r := s.synced.reconcile s.clock t
  (r.stored, { s with synced := r.tier }.announce r.events)

/-- Files an edit and tells what is new. -/
def fileModified (s : Store) (t : Tiddler) : Tiddler × Store :=
  let r := s.modified.reconcile s.clock t
  (r.stored, { s with modified := r.tier }.announce r.events)

/-- Drops the edit under exactly the key of a tiddler. -/
def dropModified (s : Store) (t : Tiddler) : Store := { s with modified := s.modified.remove t }

/-- Drops the confirmed copy under exactly the key of a tiddler. -/
def dropSynced (s : Store) (t : Tiddler) : Store := { s with synced := s.synced.remove t }

/-- The edits not yet saved. -/
def pending (s : Store) : List Tiddler := s.modified.tiddlers

/-- All tiddlers, edits first. A title may occur in both tiers. -/
def tiddlers (s : Store) : List Tiddler := s.modified.tiddlers ++ s.synced.tiddlers

/-- The edit of a tiddler, found by its key or else by its title alone. -/
def modifiedCopy? (s : Store) (t : Tiddler) : Option Tiddler :=
  (s.modified.get? t).or (s.modified.get? { title := t.title })

/-- The best copy at hand: an edit, else a confirmed copy, else the document handed over. -/
def getLocal? (s : Store) (target : Tiddler.Target) : Option Tiddler :=
  ((s.modified.get? target.wanted).or (s.synced.get? target.wanted)).or target.given?

/-- Drops an edit. The confirmed copy stays. -/
def remove (s : Store) (target : Tiddler.Target) : Option Tiddler × Store :=
  match s.modified.withdraw target.wanted with
  | (modified, some t) => (some t, { s with modified }.announce [.deleted t])
  | (_, none) => (none, s)

/-- Files the edits that the cache holds, and counts them. -/
def retrieveCached (s : Store) : Nat × Store :=
  let cached := s.modified.cache.list
  (cached.length, cached.foldl (fun s t => (s.fileModified t).2) s)

/-- Drops every tiddler from the cache. The edits stay. -/
def clearCache (s : Store) : Store :=
  { s with modified := { s.modified with cache := s.modified.cache.clear } }

/-- The default containers, once they are known. -/
def defaults? (s : Store) : Option Defaults := s.resolver.defaults?

/-- Remembers a listing to be fetched again. -/
def register (s : Store) (source : Source) : Store :=
  { s with sources := s.sources.insert source.route source }

/-- Comes to read from a container. If that is a new place, the store remembers its listing and
announces it. -/
def moveTo (s : Store) (place : Container) : Store :=
  if s.location.any place.sameAs then s
  else ({ s with location := some place }.register (.container place)).announce [.moved place]

/-- Takes note that the server has stored a copy that was sent. The edit is dropped if it is still
the one from before the sending, and the server's copy is filed. -/
def acknowledge (s : Store) (before : Option Tiddler) (sent response : Tiddler) : Tiddler × Store :=
  let s := match s.modifiedCopy? sent with
    | some current => if before.any current.sameAs then s.dropModified current else s
    | none => s
  s.fileSynced response

/-- Whether a copy that could not be sent belongs among the edits again: no other edit is there, or
there is still the one from before the sending and it is not the copy itself. -/
def mustRestore (s : Store) (before : Option Tiddler) (sent : Tiddler) : Bool :=
  match s.modifiedCopy? sent with
  | none => true
  | some current => !before.any sent.sameAs && before.any current.sameAs

/-- Takes note that a copy could not be sent. -/
def takeBack (s : Store) (before : Option Tiddler) (sent : Tiddler) : Store :=
  if s.mustRestore before sent then (s.fileModified sent).2 else s

/-- Forgets a tiddler and the edit of it. -/
def forget (s : Store) (t : Tiddler) : Store :=
  let s := s.dropSynced t
  let s := match s.modifiedCopy? t with
    | some edit => s.dropModified edit
    | none => s
  s.announce [.deleted t]

end Store

end TiddlerShelf
