import TiddlerShelf.Text.Decimal
import TiddlerShelf.Tiddler.Basic

/-!
# Talking to a server

A request asks a server for one thing, and its type of reply follows from what it asks. A server may
instead answer with an error.
-/

namespace TiddlerShelf

/-- A failed exchange with a server. There is no status if the server was not reached. -/
structure RemoteError where
  status : Option Nat
  statusText : String
  message : String
deriving DecidableEq

namespace RemoteError

/-- The server does not have what was asked for. -/
def notFound (message : String) : RemoteError := ⟨some 404, "Not Found", message⟩

/-- The server was not reached. -/
def transport (message : String) : RemoteError := ⟨none, "Transport Error", message⟩

/-- The error in one line. -/
def text (e : RemoteError) : String :=
  e.statusText ++ " (" ++ (e.status.map Text.numeral).getD "no status" ++ "): " ++ e.message

end RemoteError

/-- Where a server says the client is: in a recipe, in a bag or in neither. -/
structure Discovery where
  recipe : Option String := none
  bag : Option String := none
deriving DecidableEq

/-- The kinds of request. -/
inductive Operation
  | discover
  | get
  | put
  | delete
  | list
  | search
deriving DecidableEq

namespace Operation

/-- All kinds of request. -/
def all : List Operation := [discover, get, put, delete, list, search]

/-- The word for a kind of request. -/
def word : Operation → String
  | discover => "discover"
  | get => "get"
  | put => "put"
  | delete => "delete"
  | list => "list"
  | search => "search"

/-- The kind that a word stands for. -/
def ofWord? (word : String) : Option Operation := all.find? fun op => op.word == word

/-- The name of a kind of request. -/
def name : Operation → String
  | discover => "Discover"
  | get => "Get"
  | put => "Put"
  | delete => "Delete"
  | list => "List"
  | search => "Search"

end Operation

/-- A request to a server. -/
inductive Request
  | discover
  | get (wanted : Tiddler) (render : Bool)
  | put (t : Tiddler)
  | delete (t : Tiddler)
  | list (container : Container)
  | search (query : String)
deriving DecidableEq

namespace Request

/-- The kind of a request. -/
def operation : Request → Operation
  | discover => .discover
  | get .. => .get
  | put _ => .put
  | delete _ => .delete
  | list _ => .list
  | search _ => .search

/-- What a server replies to a request that it fulfils. -/
abbrev Reply : Request → Type
  | discover => Discovery
  | get .. | put _ => Tiddler
  | delete _ => Unit
  | list _ | search _ => List Tiddler

end Request

end TiddlerShelf
