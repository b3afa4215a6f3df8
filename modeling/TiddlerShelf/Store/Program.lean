import TiddlerShelf.Store.Basic
import TiddlerShelf.Store.Error

/-!
# Programs

What a store does with the help of a server is a program: it looks at the state and writes it, asks
the server, and waits until the defaults are known. Between two waits nothing else happens to the
store; while a program waits, others go on.
-/

namespace TiddlerShelf

/-- Something that a store does, step by step, until it has a result. -/
inductive Program (α : Type)
  /-- The result. -/
  | done (a : α)
  /-- Looks at the store. -/
  | look (next : Store → Program α)
  /-- Puts the store into a state. -/
  | write (s : Store) (next : Program α)
  /-- Asks the server and waits for its answer. -/
  | ask (r : Request) (next : Except RemoteError r.Reply → Program α)
  /-- Waits until the defaults are known, and has them found out if nobody else does. -/
  | resolve (next : Except StoreError Defaults → Program α)

namespace Program

variable {α β : Type}

/-- Goes on with the result of a program. -/
def bind : Program α → (α → Program β) → Program β
  | done a, f => f a
  | look next, f => look fun s => (next s).bind f
  | write s next, f => write s (next.bind f)
  | ask r next, f => ask r fun answer => (next answer).bind f
  | resolve next, f => resolve fun d => (next d).bind f

instance : Monad Program where
  pure := done
  bind := bind

/-- The store as it is. -/
def store : Program Store := look done

/-- Changes the store and gives a value. -/
def act (f : Store → α × Store) : Program α := look fun s => write (f s).2 (done (f s).1)

/-- Changes the store. -/
def change (f : Store → Store) : Program Unit := act fun s => ((), f s)

/-- The server's answer to a request. -/
def request (r : Request) : Program (Except RemoteError r.Reply) := ask r done

/-- The defaults, or why they could not be found out. -/
def resolved : Program (Except StoreError Defaults) := resolve done

/-- Runs a program for each item, one after the other, and gives all results. -/
def each (f : α → Program β) : List α → Program (List β)
  | [] => done []
  | a :: as => do
    let b ← f a
    return b :: (← each f as)

end Program

end TiddlerShelf
