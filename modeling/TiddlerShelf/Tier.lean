import TiddlerShelf.Cache.Basic
import TiddlerShelf.Hub.Event
import TiddlerShelf.Tiddler.Key

/-!
# Tiers

A tier holds tiddlers under their keys, in the order in which the keys were first filed, and
remembers the bags it has seen. Tiddlers of the synced tier carry a stamp of the time they were
filed, those of the modified tier carry none. What a tier files and drops, it also files in and
drops from its cache.
-/

namespace TiddlerShelf

/-- The two sides of a store: copies confirmed by the server, and edits not yet saved. -/
inductive Tier.Kind
  | synced
  | modified
deriving DecidableEq

/-- Tiddlers filed under their keys. -/
structure Tier where
  kind : Tier.Kind
  entries : Keyed String Tiddler := .empty
  bags : List Container := []
  cache : Cache := .none

namespace Tier

/-- All tiddlers, in order. -/
def tiddlers (tier : Tier) : List Tiddler := tier.entries.values

/-- Whether the tier has seen a bag of that name. -/
def hasSeen (tier : Tier) (bag : Container) : Bool := tier.bags.any bag.sameAs

/-- The tiddler of a title in the bag seen first among those that hold the title. -/
def findInBags? (tier : Tier) (title : String) : Option Tiddler :=
  tier.bags.findSome? fun bag => tier.entries.get? (Key.ofNames bag.name title)

/-- The tiddler filed under the key of another. Without a bag, every bag seen is tried too. -/
def get? (tier : Tier) (wanted : Tiddler) : Option Tiddler :=
  match tier.entries.get? wanted.key with
  | some t => some t
  | none => if wanted.bag.isSome then none else tier.findInBags? wanted.title

/-- A tiddler as the tier holds it: with the stamp of the moment, or without any. -/
def stamped (tier : Tier) (now : Instant) (t : Tiddler) : Tiddler :=
  match tier.kind with
  | .synced => { t with lastSync := some now }
  | .modified => { t with lastSync := none }

/-- Remembers a bag and drops the tiddler of the same title that has none. -/
def noteBag (tier : Tier) (title : String) (bag : Container) : Tier :=
  { tier with
    entries := tier.entries.erase (Key.ofNames "" title)
    bags := if tier.hasSeen bag then tier.bags else tier.bags ++ [bag] }

/-- Files a tiddler as it is. -/
def file (tier : Tier) (t : Tiddler) : Tier :=
  let tier := match t.bag with
    | some bag => tier.noteBag t.title bag
    | none => tier
  { tier with entries := tier.entries.insert t.key t, cache := tier.cache.set t }

/-- Stamps a tiddler and files it. -/
def set (tier : Tier) (now : Instant) (t : Tiddler) : Tier := tier.file (tier.stamped now t)

/-- Drops the tiddler filed under exactly the key of another. -/
def remove (tier : Tier) (t : Tiddler) : Tier :=
  { tier with entries := tier.entries.erase t.key, cache := tier.cache.remove t }

/-- What filing a tiddler led to. -/
structure Reconciled where
  tier : Tier
  stored : Tiddler
  notified : Bool
  events : List Event

/-- Whether a tiddler takes the place of an earlier one with news: nothing was there, the revision
of a synced copy differs, or anything in a copy that is not synced. -/
def isNews (old : Option Tiddler) (stored : Tiddler) : Bool :=
  match old with
  | none => true
  | some old => if old.isSynced then old.revision != stored.revision else !old.sameAs stored

/-- Whether filing a tiddler brings a bag into view. Only the synced tier tells of bags. -/
def newBag? (tier : Tier) (t : Tiddler) : Option Container :=
  t.bag.filter fun bag => tier.kind == .synced && !tier.hasSeen bag

/-- Files a tiddler and tells what is new: first its bag, then the tiddler itself if it has
a bag. -/
def reconcile (tier : Tier) (now : Instant) (t : Tiddler) : Reconciled :=
  let stored := tier.stamped now t
  let notified := stored.bag.isSome && isNews (tier.get? t) stored
  { tier := tier.file stored
    stored
    notified
    events := ((tier.newBag? t).map Event.bagSeen).toList ++
      if notified then [Event.changed stored] else [] }

/-- Visits tiddlers in order until one of them ends the visit, and tells whether one did. -/
def visit (stop : Tiddler → Bool) : List Tiddler → List Tiddler × Bool
  | [] => ([], false)
  | t :: ts => if stop t then ([t], true) else (t :: (visit stop ts).1, (visit stop ts).2)

/-- Drops the tiddler that a lookup finds. -/
def withdraw (tier : Tier) (wanted : Tiddler) : Tier × Option Tiddler :=
  match tier.get? wanted with
  | some t => (tier.remove t, some t)
  | none => (tier, none)

end Tier

end TiddlerShelf
