import TiddlerShelf.Store.Basic
import TiddlerShelf.Store.Error

/-!
# Building stores

A store is built from its configuration. Defaults that are given go before those of the
configuration, and a store that has neither finds them out when it first needs them. Unless the
configuration says otherwise, the store starts with the edits that its cache holds.
-/

namespace TiddlerShelf.Store

/-- A store with given defaults, if any, over a cache. It holds nothing yet. -/
def fresh (config : Config) (clock : Instant) (defaults : Option Defaults) (cache : Cache) :
    Store where
  config := config
  clock := clock
  modified := { kind := .modified, cache }
  resolver := match defaults with
    | some d => .resolved d
    | none => .unresolved
  host := config.host

/-- Builds a store over a cache. -/
def build (config : Config) (clock : Instant) (defaults : Option Defaults) (cache : Cache) :
    Except StoreError Store := do
  let defaults ← match defaults with
    | some d => pure (some d)
    | none => config.explicitDefaults.mapError .ofSpecError
  let s := fresh config clock defaults cache
  return if config.loadCached then s.retrieveCached.2 else s

end TiddlerShelf.Store
