import TiddlerShelf.Cache.File

/-!
# Caches

A cache keeps tiddlers beside a store: in memory, in a file, or not at all. Tiddlers without a bag
have no durable key and are never kept.
-/

namespace TiddlerShelf

/-- A place to keep tiddlers beside a store. -/
inductive Cache
  | none
  | memory (entries : Keyed String Tiddler)
  | file (file : CacheFile)

namespace Cache

/-- Whether the cache keeps anything. -/
def isCaching : Cache → Bool
  | none => false
  | _ => true

/-- Keeps a tiddler. -/
def set (t : Tiddler) : Cache → Cache
  | none => none
  | memory entries =>
    match t.durableKey? with
    | some key => memory (entries.insert key t)
    | Option.none => memory entries
  | file f => file (f.set t)

/-- The tiddler kept under the key of another. -/
def get? (t : Tiddler) : Cache → Option Tiddler
  | none => Option.none
  | memory entries => t.durableKey?.bind entries.get?
  | file f => f.get? t

/-- Forgets the tiddler kept under the key of another. -/
def remove (t : Tiddler) : Cache → Cache
  | none => none
  | memory entries =>
    match t.durableKey? with
    | some key => memory (entries.erase key)
    | Option.none => memory entries
  | file f => file (f.remove t)

/-- All tiddlers kept, in order. -/
def list : Cache → List Tiddler
  | none => []
  | memory entries => entries.values
  | file f => f.list

/-- Forgets all tiddlers. -/
def clear : Cache → Cache
  | none => none
  | memory _ => memory .empty
  | file f => file f.clear

/-- The text of the file behind the cache, if there is one. -/
def text? : Cache → Option String
  | file f => f.text
  | _ => Option.none

end Cache

end TiddlerShelf
