import TiddlerShelf.Config.Basic
import TiddlerShelf.Json.Quoted
import TiddlerShelf.Text.Cut
import TiddlerShelf.Text.Decimal

/-!
# Configuration files

A configuration file has one `key = value` to a line. Values are strings between double quotes,
where the backslash escapes, strings between single quotes, where it does not, whole numbers and
switches. A `#` outside a string begins a comment. No key may come twice, and a key that names a
setting must have a value of its type; other keys are ignored.
-/

namespace TiddlerShelf.Config

open TiddlerShelf.Text

/-- The value of a key. -/
inductive Value
  | text (s : String)
  | switch (b : Bool)
  | number (n : Int)
deriving DecidableEq

namespace File

/-- The blanks inside a line. -/
def isGap (c : Char) : Bool := c == ' ' || c == '\t'

/-- The characters that may stand in a comment or a string: all but control characters. -/
def isPlain (c : Char) : Bool := c == '\t' || (32 ≤ c.toNat && c.toNat != 127)

/-- The characters of a key without quotes. -/
def isBareKeyChar (c : Char) : Bool := c.isAlphanum || c == '_' || c == '-'

/-- The character that a hexadecimal number stands for, if it is one. -/
def charOfHex? (digits : List Char) : Option Char := do
  let n := (← digits.mapM Json.hexValue?).foldl (fun n d => 16 * n + d) 0
  if h : n.isValidChar then some (Char.ofNatAux n h) else none

/-- The character that a letter after a backslash stands for. -/
def escaped? : Char → Option Char
  | '"' => some '"'
  | '\\' => some '\\'
  | 'b' => some '\x08'
  | 'e' => some '\x1b'
  | 'f' => some '\x0c'
  | 'n' => some '\n'
  | 'r' => some '\r'
  | 't' => some '\t'
  | _ => none

/-- Reads a string between double quotes after the opening one. A code point may stand after `\x`,
`\u` or `\U`, in two, four or eight hexadecimal digits. -/
def basicString? : List Char → Option (List Char × List Char)
  | '"' :: rest => some ([], rest)
  | '\\' :: 'x' :: a :: b :: cs =>
    (charOfHex? [a, b]).bind fun x => (basicString? cs).map fun (s, rest) => (x :: s, rest)
  | '\\' :: 'u' :: a :: b :: c :: d :: cs =>
    (charOfHex? [a, b, c, d]).bind fun x => (basicString? cs).map fun (s, rest) => (x :: s, rest)
  | '\\' :: 'U' :: a :: b :: c :: d :: e :: f :: g :: h :: cs =>
    (charOfHex? [a, b, c, d, e, f, g, h]).bind fun x =>
      (basicString? cs).map fun (s, rest) => (x :: s, rest)
  | '\\' :: c :: cs =>
    (escaped? c).bind fun x => (basicString? cs).map fun (s, rest) => (x :: s, rest)
  | c :: cs =>
    if isPlain c && c != '\\' then (basicString? cs).map fun (s, rest) => (c :: s, rest) else none
  | [] => none

/-- Reads a string between single quotes after the opening one. -/
def literalString? : List Char → Option (List Char × List Char)
  | '\'' :: rest => some ([], rest)
  | c :: cs =>
    if isPlain c then (literalString? cs).map fun (s, rest) => (c :: s, rest) else none
  | [] => none

/-- Reads a key. -/
def key? : List Char → Option (List Char × List Char)
  | '"' :: cs => basicString? cs
  | '\'' :: cs => literalString? cs
  | cs => takeRun? isBareKeyChar cs

/-- Reads digits of a base into a number. Single underscores may stand between them. -/
def digits? (base : Nat) (cs : List Char) : Option Nat := do
  let runs := splitAll '_' cs
  if runs.any List.isEmpty then none
  let values ← runs.flatten.mapM Json.hexValue?
  if values.all (· < base) then some (values.foldl (fun n d => base * n + d) 0) else none

/-- Reads a number in base ten, which has no leading zeros. -/
def magnitude? (cs : List Char) : Option Nat :=
  match cs with
  | '0' :: _ :: _ => none
  | cs => digits? 10 cs

/-- Reads a whole number: in base ten with or without a sign, or after `0x`, `0o` or `0b`. -/
def number? : List Char → Option Int
  | '0' :: 'x' :: cs => (digits? 16 cs).map Int.ofNat
  | '0' :: 'o' :: cs => (digits? 8 cs).map Int.ofNat
  | '0' :: 'b' :: cs => (digits? 2 cs).map Int.ofNat
  | '+' :: cs => (magnitude? cs).map Int.ofNat
  | '-' :: cs => (magnitude? cs).map fun n => -Int.ofNat n
  | cs => (magnitude? cs).map Int.ofNat

/-- Numbers lie between these two: they fit into 128 bits, with or without a sign. -/
def numberLimits : Int × Int :=
  (-170141183460469231731687303715884105728, 340282366920938463463374607431768211455)

/-- Reads a value that stands without quotes. -/
def word? (word : List Char) : Option Value :=
  if word = ['t', 'r', 'u', 'e'] then some (.switch true)
  else if word = ['f', 'a', 'l', 's', 'e'] then some (.switch false)
  else match number? word with
    | some n => if numberLimits.1 ≤ n && n ≤ numberLimits.2 then some (.number n) else none
    | none => none

/-- Reads a value. -/
def value? : List Char → Option (Value × List Char)
  | '"' :: cs => (basicString? cs).map fun (s, rest) => (.text (String.ofList s), rest)
  | '\'' :: cs => (literalString? cs).map fun (s, rest) => (.text (String.ofList s), rest)
  | cs =>
    let isWordChar := fun c => !isGap c && c != '#'
    (word? (cs.takeWhile isWordChar)).map fun v => (v, cs.dropWhile isWordChar)

/-- Whether a line may end with these characters: blanks and a comment. -/
def isLineEnd (cs : List Char) : Bool :=
  match cs.dropWhile isGap with
  | [] => true
  | '#' :: comment => comment.all isPlain
  | _ => false

/-- Reads a line: a key with its value, or nothing. -/
def line? (cs : List Char) : Option (Option (String × Value)) :=
  if isLineEnd cs then some none
  else do
    let (key, cs) ← key? (cs.dropWhile isGap)
    match cs.dropWhile isGap with
    | '=' :: cs =>
      let (value, cs) ← value? (cs.dropWhile isGap)
      if isLineEnd cs then some (some (String.ofList key, value)) else none
    | _ => none

/-- The lines of a text. A carriage return before a line break belongs to the break. -/
def lines (cs : List Char) : List (List Char) :=
  let parts := splitAll '\n' cs
  parts.dropLast.map (fun part => (dropEnding? ['\r'] part).getD part) ++ parts.getLast?.toList

/-- Drops the byte order mark that a file may begin with. -/
def dropMark : List Char → List Char
  | '\uFEFF' :: cs => cs
  | cs => cs

/-- Reads the keys and values of a file, if every line is sound and no key comes twice. -/
def entries? (text : String) : Option (List (String × Value)) := do
  let entries := (← (lines (dropMark text.toList)).mapM line?).reduceOption
  if (entries.map Prod.fst).Nodup then some entries else none

end File

/-- The text of a value that must be one. -/
def Value.text? : Value → Option String
  | text s => some s
  | _ => none

/-- The state of a value that must be a switch. -/
def Value.switch? : Value → Option Bool
  | switch b => some b
  | _ => none

/-- Reads the value of a setting: missing as `some none`, and `none` if it has another type. -/
def setting? {α : Type} (read? : Value → Option α) (entries : List (String × Value))
    (key : String) : Option (Option α) :=
  match entries.lookup key with
  | none => some none
  | some value => (read? value).map some

/-- Reads the layer that a file gives. -/
def Layer.ofFile? (text : String) : Option Layer := do
  let entries ← File.entries? text
  some {
    host := ← setting? Value.text? entries "host"
    pullFrom := ← setting? Value.text? entries "pull_from"
    pushTo := ← setting? Value.text? entries "push_to"
    loadCached := ← setting? Value.switch? entries "load_cached"
    cacheDir := ← setting? Value.text? entries "cache_dir"
    logLevel := ← setting? Value.text? entries "log_level" }

/-- The settings that the environment and, if there is one, a file give; `none` if either cannot be
read. -/
def load? (environment? : String → Option String) (file : Option String) : Option Config := do
  let environment ← Layer.ofEnvironment? environment?
  match file with
  | none => some (ofLayer environment)
  | some text => some (ofLayer (environment.over (← Layer.ofFile? text)))

end TiddlerShelf.Config
