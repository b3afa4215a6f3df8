/-!
# Blanks

White space is the Unicode property `White_Space`. Trimming removes it from both ends of a text and
nothing else; `length_trim_le` says that the text grows no longer.
-/

namespace TiddlerShelf.Text

/-- The characters of the Unicode property `White_Space`. -/
def isBlank (c : Char) : Bool :=
  let n := c.toNat
  (9 ≤ n && n ≤ 13) || n == 0x20 || n == 0x85 || n == 0xA0 || n == 0x1680 ||
    (0x2000 ≤ n && n ≤ 0x200A) || n == 0x2028 || n == 0x2029 || n == 0x202F || n == 0x205F ||
    n == 0x3000

/-- Drops the blanks a text begins with. -/
def trimStart (cs : List Char) : List Char := cs.dropWhile isBlank

/-- Drops the longest end of a text whose characters all satisfy `p`. -/
def trimEndWhile (p : Char → Bool) (cs : List Char) : List Char :=
  (cs.reverse.dropWhile p).reverse

/-- Drops the blanks at both ends of a text. -/
def trim (cs : List Char) : List Char := trimEndWhile isBlank (trimStart cs)

theorem length_dropWhile_le {p : Char → Bool} (cs : List Char) :
    (cs.dropWhile p).length ≤ cs.length := by
  induction cs with
  | nil => simp
  | cons c cs ih =>
    simp only [List.dropWhile_cons]
    split
    · exact Nat.le_succ_of_le ih
    · simp

theorem length_trimStart_le (cs : List Char) : (trimStart cs).length ≤ cs.length :=
  length_dropWhile_le cs

theorem length_trimEndWhile_le (p : Char → Bool) (cs : List Char) :
    (trimEndWhile p cs).length ≤ cs.length := by
  have h := length_dropWhile_le (p := p) cs.reverse
  simpa [trimEndWhile] using h

theorem length_trim_le (cs : List Char) : (trim cs).length ≤ cs.length :=
  Nat.le_trans (length_trimEndWhile_le _ _) (length_trimStart_le cs)

/-- Trims a string. -/
def trimText (s : String) : String := String.ofList (trim s.toList)

end TiddlerShelf.Text
