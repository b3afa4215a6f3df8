import TiddlerShelf.Json.Basic
import TiddlerShelf.Json.Token

/-!
# Reading JSON

The reader takes one token at a time and keeps, for each array or object begun, what has been read
of it. A text is a JSON value if its tokens lead from the start to one finished value.
-/

namespace TiddlerShelf.Json

/-- An array or object that waits for the value being read. -/
inductive Frame
  | array (before : List Json)
  | object (before : List (Option String × Json)) (key : Option String)

/-- What the reader has just read, and so what may come next. -/
inductive Phase
  /-- A value must come. -/
  | value
  /-- An array has begun: its first item or its end must come. -/
  | arrayBegun
  /-- An object has begun: its first key or its end must come. -/
  | objectBegun
  /-- A member has ended with a comma: a key must come. -/
  | key (before : List (Option String × Json))
  /-- A key has been read: a colon must come. -/
  | colon (before : List (Option String × Json)) (key : Option String)
  /-- A value has ended. -/
  | ended (v : Json)

/-- How far the reader has come: the arrays and objects begun, innermost first, and the phase. -/
structure Reader where
  frames : List Frame
  phase : Phase

namespace Reader

/-- Begins a value with a token, if a value can begin with it. -/
def begin? (frames : List Frame) : Token → Option Reader
  | .null => some ⟨frames, .ended .null⟩
  | .bool b => some ⟨frames, .ended (.bool b)⟩
  | .number literal => some ⟨frames, .ended (.number literal)⟩
  | .string s => some ⟨frames, .ended (.string s)⟩
  | .arrayStart => some ⟨frames, .arrayBegun⟩
  | .objectStart => some ⟨frames, .objectBegun⟩
  | _ => none

/-- Goes on after a finished value. -/
def continue? (v : Json) : List Frame → Token → Option Reader
  | .array before :: frames, .comma => some ⟨.array (before ++ [v]) :: frames, .value⟩
  | .array before :: frames, .arrayEnd => some ⟨frames, .ended (.array (before ++ [v]))⟩
  | .object before key :: frames, .comma => some ⟨frames, .key (before ++ [(key, v)])⟩
  | .object before key :: frames, .objectEnd =>
    some ⟨frames, .ended (.object (before ++ [(key, v)]))⟩
  | _, _ => none

/-- Takes one token, or `none` if it may not stand there. -/
def step? (r : Reader) (token : Token) : Option Reader :=
  match r.phase with
  | .value => begin? r.frames token
  | .arrayBegun =>
    match token with
    | .arrayEnd => some ⟨r.frames, .ended (.array [])⟩
    | token => begin? (.array [] :: r.frames) token
  | .objectBegun =>
    match token with
    | .objectEnd => some ⟨r.frames, .ended (.object [])⟩
    | .string key => some ⟨r.frames, .colon [] key⟩
    | _ => none
  | .key before =>
    match token with
    | .string key => some ⟨r.frames, .colon before key⟩
    | _ => none
  | .colon before key =>
    match token with
    | .colon => some ⟨.object before key :: r.frames, .value⟩
    | _ => none
  | .ended v => continue? v r.frames token

/-- Before the first token. -/
def start : Reader := ⟨[], .value⟩

/-- The finished value, if every array and object has ended. -/
def result? : Reader → Option Json
  | ⟨[], .ended v⟩ => some v
  | _ => none

end Reader

/-- The value that a sequence of tokens writes. -/
def ofTokens? (tokens : List Token) : Option Json :=
  (tokens.foldlM Reader.step? Reader.start).bind Reader.result?

/-- Reads a JSON text: one value, with nothing but blanks around it. -/
def parse? (text : String) : Option Json := (Token.listOfChars? text.toList).bind ofTokens?

end TiddlerShelf.Json
