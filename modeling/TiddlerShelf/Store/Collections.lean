import TiddlerShelf.Collection.Named
import TiddlerShelf.Store.Documents

/-!
# A store's collections

A store gives its tiddlers as a collection, which may be narrowed, saved as a whole and added to,
and whose filter may be listened to.
-/

namespace TiddlerShelf.Store

/-- All tiddlers as a collection. -/
def collection (s : Store) : Collection := { tiddlers := s.tiddlers }

/-- The tiddlers that a filter text accepts. -/
def query (s : Store) (filter : String) : Except Filter.ParseError Collection :=
  (Collection.Step.find? filter).map s.collection.apply

/-- The tiddlers that a named step leads to. -/
def findBy (s : Store) (name : String) (argument : Option String) : Collection :=
  s.collection.apply (.named s.location name argument)

/-- Has a listener hear of changes of tiddlers that a collection's filter accepts. The label stands
for this one registration. -/
def bindCollection (s : Store) (label : String) (c : Collection) (listener : String) : Store :=
  { s with audience := s.audience.bindFresh label c.filter listener }

/-- Saves every tiddler of a collection, one after the other. -/
def saveCollection (c : Collection) : Program (List (Except StoreError Tiddler)) :=
  Program.each (fun t => save (.document t)) c.tiddlers

/-- Adds a tiddler to the store and to a collection. -/
def addToCollection (c : Collection) (t : Tiddler) :
    Program (Except StoreError Tiddler × Collection) := do
  return (← add t, { c with tiddlers := c.tiddlers ++ [t] })

end TiddlerShelf.Store
