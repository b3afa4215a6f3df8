import TiddlerShelf.Filter.Token
import TiddlerShelf.Remote.Basic

/-!
# Errors of a store

What can go wrong while a store works, and the text for each case.
-/

namespace TiddlerShelf

/-- What went wrong while a store worked. -/
inductive StoreError
  | parse (cause : Filter.ParseError)
  | discovery (cause : RemoteError)
  | noSpaceMatch (subject : String)
  | retrieveTiddlers (cause : RemoteError)
  | getTiddler (title : String) (cause : RemoteError)
  | save (title : String) (cause : RemoteError)
  | delete (title : String) (cause : RemoteError)
  | search (cause : RemoteError)
  | empty
  | notFound (title : String)
  | config (reason : String)
deriving DecidableEq

namespace StoreError

/-- The server's error behind this one, if there is one. -/
def remote? : StoreError → Option RemoteError
  | discovery cause | retrieveTiddlers cause | getTiddler _ cause | save _ cause | delete _ cause
  | search cause => some cause
  | _ => none

/-- Whether the error only says that there was nothing to do. -/
def isBenign : StoreError → Bool
  | empty => true
  | _ => false

def message : StoreError → String
  | parse cause => "Parse error: " ++ cause.message
  | discovery cause => "Could not determine default containers: " ++ cause.text
  | noSpaceMatch subject => subject ++ " is not a valid space"
  | retrieveTiddlers cause => "Error getting tiddlers: " ++ cause.text
  | getTiddler title cause => "Error getting tiddler " ++ title ++ ": " ++ cause.text
  | save title cause => "Error saving " ++ title ++ ": " ++ cause.text
  | delete title cause => "Error deleting " ++ title ++ ": " ++ cause.text
  | search cause => "Error retrieving tiddlers from search: " ++ cause.text
  | empty => "Nothing to save"
  | notFound title => "Tiddler not found: " ++ title
  | config reason => "Config error: " ++ reason

/-- A server that reports no place at all leaves a store without defaults. -/
def nothingReported : StoreError := .noSpaceMatch "server reported neither a recipe nor a bag"

/-- A text that does not name a container is a fault of the configuration. -/
def ofSpecError (e : Container.SpecError) : StoreError := .config e.message

end StoreError

end TiddlerShelf
