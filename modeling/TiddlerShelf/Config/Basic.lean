import TiddlerShelf.Defaults

/-!
# Configuration

Each setting is taken from the first layer that has it: the environment, then a file, then the
built-in value.
-/

namespace TiddlerShelf

/-- The settings of a store. -/
structure Config where
  host : String := "/"
  pullFrom : Option String := none
  pushTo : Option String := none
  loadCached : Bool := true
  cacheDir : Option String := none
  logLevel : String := "warn"
deriving DecidableEq

namespace Config

/-- The settings that one source gives. -/
structure Layer where
  host : Option String := none
  pullFrom : Option String := none
  pushTo : Option String := none
  loadCached : Option Bool := none
  cacheDir : Option String := none
  logLevel : Option String := none
deriving DecidableEq

/-- Takes each setting from the first layer if it has it, else from the second. -/
def Layer.over (first second : Layer) : Layer where
  host := first.host.or second.host
  pullFrom := first.pullFrom.or second.pullFrom
  pushTo := first.pushTo.or second.pushTo
  loadCached := first.loadCached.or second.loadCached
  cacheDir := first.cacheDir.or second.cacheDir
  logLevel := first.logLevel.or second.logLevel

/-- The settings of a layer, with built-in values for those that it lacks. -/
def ofLayer (l : Layer) : Config :=
  let builtIn : Config := {}
  { host := l.host.getD builtIn.host
    pullFrom := l.pullFrom.or builtIn.pullFrom
    pushTo := l.pushTo.or builtIn.pushTo
    loadCached := l.loadCached.getD builtIn.loadCached
    cacheDir := l.cacheDir.or builtIn.cacheDir
    logLevel := l.logLevel.getD builtIn.logLevel }

/-- Reads the layer that environment variables give, looked up by their names. An empty value
counts; a switch must be `true` or `false`. -/
def Layer.ofEnvironment? (value? : String → Option String) : Option Layer := do
  let loadCached ← match value? "LOAD_CACHED" with
    | none => some none
    | some "true" => some (some true)
    | some "false" => some (some false)
    | some _ => none
  some {
    host := value? "HOST"
    pullFrom := value? "PULL_FROM"
    pushTo := value? "PUSH_TO"
    loadCached
    cacheDir := value? "CACHE_DIR"
    logLevel := value? "LOG_LEVEL" }

/-- Reads the name of a container on the configured host, if there is one. -/
def container? (c : Config) : Option String → Except Container.SpecError (Option Container)
  | none => .ok none
  | some spec => (Container.ofSpec spec).map fun container => some { container with host := c.host }

/-- The containers that the settings name. One that stands alone serves both ways. -/
def explicitDefaults (c : Config) : Except Container.SpecError (Option Defaults) := do
  match ← c.container? c.pullFrom, ← c.container? c.pushTo with
  | some pullFrom, some pushTo => return some { pullFrom, pushTo }
  | some only, none | none, some only => return some (.single only)
  | none, none => return none

end Config

end TiddlerShelf
