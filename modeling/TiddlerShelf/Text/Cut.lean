import TiddlerShelf.Text.Blank

/-!
# Cutting and searching text

Splitting at a separator, taking off an ending, and looking for one text inside another.
-/

namespace TiddlerShelf.Text

/-- Splits a text at the first `sep`, which belongs to neither part. -/
def splitOnce (sep : Char) : List Char → Option (List Char × List Char)
  | [] => none
  | c :: cs => if c = sep then some ([], cs) else (splitOnce sep cs).map fun (l, r) => (c :: l, r)

/-- Splits a text at every `sep`; there is always one part more than there are separators. -/
def splitAll (sep : Char) : List Char → List (List Char)
  | [] => [[]]
  | c :: cs =>
    if c = sep then [] :: splitAll sep cs
    else match splitAll sep cs with
      | [] => [[c]]
      | part :: parts => (c :: part) :: parts

/-- Takes `ending` off the end of a text, if the text has it there. -/
def dropEnding? (ending cs : List Char) : Option (List Char) :=
  if ending.isSuffixOf cs then some (cs.take (cs.length - ending.length)) else none

/-- Whether `needle` occurs as a run of characters in a text. -/
def occursIn (needle : List Char) : List Char → Bool
  | [] => needle.isEmpty
  | c :: cs => needle.isPrefixOf (c :: cs) || occursIn needle cs

/-- The longest beginning of a text whose characters all satisfy `p`, with the rest; `none` if that
beginning is empty. -/
def takeRun? (p : Char → Bool) (cs : List Char) : Option (List Char × List Char) :=
  match cs.takeWhile p with
  | [] => none
  | run => some (run, cs.dropWhile p)

/-- A text is its run of `p` characters followed by what `takeRun?` leaves. -/
theorem append_of_takeRun? {p : Char → Bool} {cs run rest : List Char}
    (h : takeRun? p cs = some (run, rest)) : run ++ rest = cs := by
  unfold takeRun? at h
  split at h
  · cases h
  · cases h
    exact List.takeWhile_append_dropWhile

theorem ne_nil_of_takeRun? {p : Char → Bool} {cs run rest : List Char}
    (h : takeRun? p cs = some (run, rest)) : run ≠ [] := by
  unfold takeRun? at h
  split at h
  · cases h
  · rename_i hne
    cases h
    exact fun hnil => hne hnil

theorem length_of_takeRun? {p : Char → Bool} {cs run rest : List Char}
    (h : takeRun? p cs = some (run, rest)) : rest.length < cs.length := by
  have happ := append_of_takeRun? h
  have hpos := List.length_pos_iff.2 (ne_nil_of_takeRun? h)
  rw [← happ, List.length_append]
  omega

end TiddlerShelf.Text
