import TiddlerShelf.Store.Program

/-!
# Finding the place

The defaults tell a store where to read and where to write. The first time they are known, the store
moves to the container that it reads from.
-/

namespace TiddlerShelf.Store

/-- The default containers, which are found out if need be. -/
def getDefaults : Program (Except StoreError Defaults) := do
  match ← Program.resolved with
  | .ok d =>
    Program.change (·.moveTo d.pullFrom)
    return .ok d
  | .error e => return .error e

end TiddlerShelf.Store
