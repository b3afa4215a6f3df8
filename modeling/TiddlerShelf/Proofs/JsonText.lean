import Mathlib.Data.Fintype.Basic
import Mathlib.Tactic.FinCases
import TiddlerShelf.Json.Parser
import TiddlerShelf.Json.Printer

/-! # JSON texts read back

What is written of a value reads back as that value: each token is the first one that its text
begins with, the layout puts only blanks between tokens, and the reader builds the value up again
from its tokens. -/

namespace TiddlerShelf

open TiddlerShelf.Text

namespace Json

/-! ## Strings -/

theorem hexValue?_hexDigit {n : Nat} (h : n < 16) : hexValue? (hexDigit n) = some n := by
  have hall : ∀ m : Fin 16, hexValue? (hexDigit m.val) = some m.val := by decide
  exact hall ⟨n, h⟩

theorem hexNumber?_hexDigit {n : Nat} (h : n < 32) :
    hexNumber? '0' '0' (hexDigit (n / 16)) (hexDigit (n % 16)) = some n := by
  have hzero : hexValue? '0' = some 0 := by decide
  unfold hexNumber?
  rw [hzero, hexValue?_hexDigit (by omega), hexValue?_hexDigit (by omega)]
  show some (0 * 4096 + 0 * 256 + n / 16 * 16 + n % 16) = some n
  congr 1
  omega

/-- A character is escaped by a letter of its own, as a number, or not at all. -/
theorem escapeChar_cases (c : Char) :
    (∃ letter, letter ≠ 'u' ∧ escapeChar c = ['\\', letter] ∧ escaped? letter = some c) ∨
    (c.toNat < 32 ∧ escapeChar c =
      ['\\', 'u', '0', '0', hexDigit (c.toNat / 16), hexDigit (c.toNat % 16)]) ∨
    (c ≠ '"' ∧ c ≠ '\\' ∧ ¬c.toNat < 32 ∧ escapeChar c = [c]) := by
  unfold escapeChar
  split
  · exact .inl ⟨'"', by decide, rfl, rfl⟩
  · exact .inl ⟨'\\', by decide, rfl, rfl⟩
  · exact .inl ⟨'b', by decide, rfl, rfl⟩
  · exact .inl ⟨'t', by decide, rfl, rfl⟩
  · exact .inl ⟨'n', by decide, rfl, rfl⟩
  · exact .inl ⟨'f', by decide, rfl, rfl⟩
  · exact .inl ⟨'r', by decide, rfl, rfl⟩
  · rename_i hquote hbackslash _ _ _ _ _
    by_cases hc : c.toNat < 32
    · exact .inr (.inl ⟨hc, if_pos hc⟩)
    · exact .inr (.inr ⟨hquote, hbackslash, hc, if_neg hc⟩)

/-- Reading what is written of a character gives its code point. -/
theorem codePoints?_escapeChar (c : Char) (cs : List Char) :
    codePoints? (escapeChar c ++ cs) = (codePoints? cs).map (before c.toNat) := by
  rcases escapeChar_cases c with ⟨letter, hne, hchars, hread⟩ | ⟨hc, hchars⟩ |
    ⟨hquote, hbackslash, hc, hchars⟩
  · rw [hchars]
    show codePoints? ('\\' :: letter :: cs) = _
    rw [codePoints?.eq_3 letter cs fun _ _ _ _ _ h _ => hne h, hread]
    rfl
  · rw [hchars]
    show (hexNumber? _ _ _ _).bind _ = _
    rw [hexNumber?_hexDigit hc]
    rfl
  · rw [hchars]
    show codePoints? (c :: cs) = _
    rw [codePoints?.eq_4 c cs hquote (fun _ _ _ _ _ h _ => hbackslash h)
      fun _ _ h _ => hbackslash h]
    simp [hbackslash, hc]

theorem codePoints?_escaped (cs rest : List Char) :
    codePoints? (cs.flatMap escapeChar ++ '"' :: rest) = some (cs.map Char.toNat, rest) := by
  induction cs with
  | nil => rfl
  | cons c cs ih =>
    rw [List.flatMap_cons, List.append_assoc, codePoints?_escapeChar, ih]
    rfl

/-- A character is no half of a surrogate pair. -/
theorem not_half (c : Char) : isHighHalf c.toNat = false ∧ isLowHalf c.toNat = false := by
  have hvalid : c.toNat < 0xD800 ∨ 0xDFFF < c.toNat := by
    rcases c.valid with h | h
    · exact .inl h
    · exact .inr h.1
  unfold isHighHalf isLowHalf
  simp only [Bool.and_eq_false_iff, decide_eq_false_iff_not]
  omega

theorem joinPairs?_toNat (cs : List Char) : joinPairs? (cs.map Char.toNat) = some cs := by
  induction cs with
  | nil => rfl
  | cons c cs ih =>
    obtain ⟨hhigh, hlow⟩ := not_half c
    cases cs with
    | nil =>
      show joinPairs? [c.toNat] = _
      rw [joinPairs?, hhigh, hlow, Char.ofNat_toNat]
      rfl
    | cons d cs =>
      show joinPairs? (c.toNat :: d.toNat :: cs.map Char.toNat) = _
      rw [List.map_cons] at ih
      rw [joinPairs?, hhigh, hlow, ih, Char.ofNat_toNat]
      rfl

/-- A text that is written as a string reads back as that text. -/
theorem unquote?_escaped (s : String) (rest : List Char) :
    unquote? (s.toList.flatMap escapeChar ++ '"' :: rest) = some (some s, rest) := by
  unfold unquote?
  rw [codePoints?_escaped, Option.map_some]
  dsimp only
  rw [joinPairs?_toNat, Option.map_some, String.ofList_toList]

/-! ## Numbers -/

/-- Whether no number goes on with what follows. -/
def EndsNumber (rest : List Char) : Prop :=
  ∀ c ∈ rest.head?, isDigit c = false ∧ c ≠ '.' ∧ c ≠ 'e' ∧ c ≠ 'E'

theorem isDigit_of_mem_digits {n : Nat} {c : Char} (h : c ∈ digits n) : isDigit c = true := by
  have hdigit : ∀ m : Fin 10, isDigit (digitChar m.val) = true := by decide
  fun_induction digits n with
  | case1 n hn => exact List.mem_singleton.1 h ▸ hdigit ⟨n, hn⟩
  | case2 n _ ih =>
    rcases List.mem_append.1 h with h | h
    · exact ih h
    · exact List.mem_singleton.1 h ▸ hdigit ⟨n % 10, Nat.mod_lt _ (by decide)⟩

/-- A numeral begins with a digit, and it goes on after that only if it is no zero. -/
theorem digits_cases (n : Nat) :
    ∃ m : Fin 10, ∃ cs, digits n = digitChar m.val :: cs ∧ (m.val = 0 → cs = []) := by
  fun_induction digits n with
  | case1 n hn => exact ⟨⟨n, hn⟩, [], rfl, fun _ => rfl⟩
  | case2 n hn ih =>
    obtain ⟨m, cs, heq, hcs⟩ := ih
    refine ⟨m, _, by rw [heq]; rfl, ?_⟩
    intro hm
    have hvalue := digitsValue_digits (n / 10)
    have hzero : digitsValue [digitChar 0] = 0 := by decide
    rw [heq, hcs hm, hm] at hvalue
    omega

section

variable {rest : List Char}

theorem takeRun?_digits (n : Nat) (h : EndsNumber rest) :
    takeRun? isDigit (digits n ++ rest) = some (digits n, rest) := by
  have hall : ∀ c ∈ digits n, isDigit c = true := fun c => isDigit_of_mem_digits
  have hstop : rest.takeWhile isDigit = [] ∧ rest.dropWhile isDigit = rest := by
    cases rest with
    | nil => exact ⟨rfl, rfl⟩
    | cons c cs =>
      have hc := (h c rfl).1
      exact ⟨List.takeWhile_cons_of_neg (by simp [hc]), List.dropWhile_cons_of_neg (by simp [hc])⟩
  obtain ⟨m, cs, heq, -⟩ := digits_cases n
  unfold takeRun?
  rw [List.takeWhile_append_of_pos hall, List.dropWhile_append_of_pos hall, hstop.1, hstop.2,
    List.append_nil]
  split
  · rename_i hnil
    rw [heq] at hnil
    contradiction
  · rfl

theorem wholeDigits?_digits (n : Nat) (h : EndsNumber rest) :
    wholeDigits? (digits n ++ rest) = some (digits n, rest) := by
  obtain ⟨m, cs, heq, hcs⟩ := digits_cases n
  by_cases hm : m.val = 0
  · rw [heq, hcs hm, hm]
    rfl
  · have hne : ∀ m : Fin 10, m.val ≠ 0 → digitChar m.val ≠ '0' := by decide
    have hrun := takeRun?_digits n h
    rw [heq] at hrun ⊢
    exact (wholeDigits?.eq_2 _ fun _ hzero => hne m hm (List.head_eq_of_cons_eq hzero)).trans hrun

theorem fraction?_of_endsNumber (h : EndsNumber rest) : fraction? rest = some ([], rest) :=
  fraction?.eq_2 rest fun _ hcs => (h '.' (hcs ▸ rfl)).2.1 rfl

theorem exponent?_of_endsNumber (h : EndsNumber rest) : exponent? rest = some ([], rest) := by
  cases rest with
  | nil => rfl
  | cons c cs =>
    obtain ⟨-, -, he, hE⟩ := h c rfl
    simp [exponent?, he, hE]

theorem magnitude?_digits (n : Nat) (h : EndsNumber rest) :
    magnitude? (digits n ++ rest) = some (digits n, rest) := by
  simp [magnitude?, wholeDigits?_digits n h, fraction?_of_endsNumber h, exponent?_of_endsNumber h]

/-- A token that begins with a digit is a number without a sign. -/
theorem next?_digitChar (m : Fin 10) (cs : List Char) :
    Token.next? (digitChar m.val :: cs) =
      (magnitude? (digitChar m.val :: cs)).map fun (literal, rest) =>
        (.number literal, rest) := by
  fin_cases m <;> rfl

end

/-! ## Tokens -/

/-- The tokens that are written with nothing but what they are. -/
inductive Token.Plain : Token → Prop
  | null : Plain .null
  | bool (b : Bool) : Plain (.bool b)
  | number (n : Nat) : Plain (.number (digits n))
  | string (s : String) : Plain (.string (some s))
  | arrayStart : Plain .arrayStart
  | arrayEnd : Plain .arrayEnd
  | objectStart : Plain .objectStart
  | objectEnd : Plain .objectEnd
  | colon : Plain .colon
  | comma : Plain .comma

/-- A token is the first one that its text begins with. -/
theorem Token.Plain.next? {token : Token} (h : token.Plain) {rest : List Char}
    (hrest : EndsNumber rest) : Token.next? (token.chars ++ rest) = some (token, rest) := by
  cases h with
  | bool b => cases b <;> rfl
  | number n =>
    obtain ⟨m, cs, heq, -⟩ := digits_cases n
    have hread := magnitude?_digits n hrest
    show Token.next? (digits n ++ rest) = _
    rw [heq] at hread ⊢
    rw [List.cons_append] at hread ⊢
    rw [next?_digitChar, hread]
    rfl
  | string s =>
    show (unquote? ((s.toList.flatMap escapeChar ++ ['"']) ++ rest)).map _ = _
    rw [List.append_assoc]
    show (unquote? (s.toList.flatMap escapeChar ++ '"' :: rest)).map _ = _
    rw [unquote?_escaped]
    rfl
  | _ => rfl

namespace Token

theorem listOfChars?_eq (cs : List Char) : listOfChars? cs =
    match cs.dropWhile isGap with
    | [] => some []
    | c :: rest => (next? (c :: rest)).bind fun (token, rest) =>
      (listOfChars? rest).map (token :: ·) := by
  rw [listOfChars?]
  split
  · rename_i hgap
    rw [hgap]
  · rename_i c rest hgap
    split <;> rename_i hnext <;> simp only [hgap, hnext] <;> rfl

theorem listOfChars?_gap {gap : List Char} (hgap : ∀ c ∈ gap, isGap c = true) (cs : List Char) :
    listOfChars? (gap ++ cs) = listOfChars? cs := by
  rw [listOfChars?_eq, List.dropWhile_append_of_pos hgap, ← listOfChars?_eq]

/-- The tokens of a text are the first one and those of what it leaves. -/
theorem listOfChars?_of_next? {cs rest : List Char} {token : Token}
    (hc : ∀ c ∈ cs.head?, isGap c = false) (h : next? cs = some (token, rest)) :
    listOfChars? cs = (listOfChars? rest).map (token :: ·) := by
  have hgap : cs.dropWhile isGap = cs := by
    cases cs with
    | nil => rfl
    | cons c cs => exact List.dropWhile_cons_of_neg (by simp [hc c rfl])
  rw [listOfChars?_eq, hgap]
  cases cs with
  | nil => cases h
  | cons c cs =>
    dsimp only
    rw [h]
    rfl

end Token

/-! ## Layout -/

/-- Whether the tokens of a text are read wherever it is written, up to where it ends. -/
def Spells (cs : List Char) (tokens : List Token) : Prop := ∀ rest, EndsNumber rest →
  Token.listOfChars? (cs ++ rest) = (Token.listOfChars? rest).map (tokens ++ ·)

section

variable {cs ds blanks : List Char} {tokens tokens' : List Token}

theorem spells_nil : Spells [] [] := by
  intro rest _
  show _ = (Token.listOfChars? rest).map id
  rw [Option.map_id]
  rfl

theorem Token.Plain.spells {token : Token} (h : token.Plain) : Spells token.chars [token] := by
  have hdigit : ∀ m : Fin 10, isGap (digitChar m.val) = false := by decide
  intro rest hrest
  refine Token.listOfChars?_of_next? ?_ (h.next? hrest)
  intro c hc
  cases h with
  | bool b => cases b <;> (cases hc; rfl)
  | number n =>
    obtain ⟨m, cs, heq, -⟩ := digits_cases n
    rw [chars, heq] at hc
    cases hc
    exact hdigit m
  | _ => cases hc; rfl

/-- Blanks make no difference. -/
theorem Spells.gap (h : Spells cs tokens) (hblanks : ∀ c ∈ blanks, isGap c = true) :
    Spells (blanks ++ cs) tokens := by
  intro rest hrest
  rw [List.append_assoc, Token.listOfChars?_gap hblanks]
  exact h rest hrest

/-- A character that is a token may stand before any other. -/
theorem Spells.mark (h : Spells cs tokens) {c : Char} {token : Token} (hc : isGap c = false)
    (hnext : ∀ cs, Token.next? (c :: cs) = some (token, cs)) :
    Spells (c :: cs) (token :: tokens) := by
  intro rest hrest
  have hhead : ∀ d ∈ (c :: (cs ++ rest)).head?, isGap d = false :=
    fun d hd => Option.mem_some.1 hd ▸ hc
  show Token.listOfChars? (c :: (cs ++ rest)) = _
  rw [Token.listOfChars?_of_next? hhead (hnext _), h rest hrest, Option.map_map]
  rfl

theorem EndsNumber.append (h : EndsNumber cs) (h' : EndsNumber ds) : EndsNumber (cs ++ ds) := by
  cases cs with
  | nil => exact h'
  | cons c cs => exact h

theorem Spells.append (h : Spells cs tokens) (h' : Spells ds tokens') (hds : EndsNumber ds) :
    Spells (cs ++ ds) (tokens ++ tokens') := by
  intro rest hrest
  rw [List.append_assoc, h _ (hds.append hrest), h' rest hrest, Option.map_map]
  congr 1
  funext us
  exact (List.append_assoc tokens tokens' us).symm

end

theorem endsNumber_cons {c : Char} (hc : isDigit c = false ∧ c ≠ '.' ∧ c ≠ 'e' ∧ c ≠ 'E')
    (cs : List Char) : EndsNumber (c :: cs) :=
  fun _ hmem => Option.mem_some.1 hmem ▸ hc

theorem isGap_of_mem_lineBreak (level : Nat) (c : Char) (h : c ∈ lineBreak level) :
    isGap c = true := by
  rcases List.mem_cons.1 h with rfl | h
  · rfl
  · rw [(List.mem_replicate.1 h).2]
    rfl

theorem endsNumber_lineBreak (level : Nat) (cs : List Char) : EndsNumber (lineBreak level ++ cs) :=
  endsNumber_cons (by decide) _

/-- The values whose tokens are plain. -/
inductive Plain : Json → Prop
  | null : Plain .null
  | bool (b : Bool) : Plain (.bool b)
  | number (n : Nat) : Plain (.number (digits n))
  | string (s : String) : Plain (.string (some s))
  | array {items : List Json} (h : ∀ v ∈ items, Plain v) : Plain (.array items)
  | object {members : List (Option String × Json)} (hkeys : ∀ m ∈ members, m.1.isSome)
    (h : ∀ m ∈ members, Plain m.2) : Plain (.object members)

theorem spells_prettyItems {items : List Json}
    (hall : ∀ v ∈ items, ∀ level, Spells (prettyChars level v) v.tokens) (level : Nat) :
    Spells (prettyItems level items) (itemTokens items) := by
  induction items with
  | nil => exact spells_nil
  | cons v items ih =>
    have hv := (hall v List.mem_cons_self level).gap (isGap_of_mem_lineBreak level)
    cases items with
    | nil => exact hv
    | cons w items =>
      have hitems := ih fun u hu => hall u (List.mem_cons_of_mem _ hu)
      exact hv.append (hitems.mark rfl fun _ => rfl) (endsNumber_cons (by decide) _)

theorem spells_prettyMember (key : String) {v : Json} {level : Nat}
    (hv : Spells (prettyChars level v) v.tokens) :
    Spells (lineBreak level ++ (Token.string (some key)).chars ++ [':', ' '] ++ prettyChars level v)
      (.string (some key) :: .colon :: v.tokens) := by
  have hkey := (Token.Plain.string key).spells.gap (isGap_of_mem_lineBreak level)
  have hvalue : Spells (' ' :: prettyChars level v) v.tokens :=
    hv.gap fun c hc => List.mem_singleton.1 hc ▸ rfl
  have hmember := hkey.append (hvalue.mark (c := ':') rfl fun _ => rfl)
    (endsNumber_cons (by decide) _)
  rw [List.append_assoc]
  exact hmember

theorem spells_prettyMembers {members : List (Option String × Json)}
    (hkeys : ∀ m ∈ members, m.1.isSome)
    (hall : ∀ m ∈ members, ∀ level, Spells (prettyChars level m.2) m.2.tokens) (level : Nat) :
    Spells (prettyMembers level members) (memberTokens members) := by
  induction members with
  | nil => exact spells_nil
  | cons m members ih =>
    obtain ⟨key, v⟩ := m
    obtain ⟨key, rfl⟩ := Option.isSome_iff_exists.1 (hkeys _ List.mem_cons_self)
    have hv := spells_prettyMember key (hall _ List.mem_cons_self level)
    cases members with
    | nil => exact hv
    | cons n members =>
      have hmembers := ih (fun u hu => hkeys u (List.mem_cons_of_mem _ hu))
        fun u hu => hall u (List.mem_cons_of_mem _ hu)
      exact hv.append (hmembers.mark rfl fun _ => rfl) (endsNumber_cons (by decide) _)

/-- What is written of a plain value on lines of their own has the tokens of the value. -/
theorem Plain.spells {v : Json} (h : v.Plain) (level : Nat) :
    Spells (prettyChars level v) v.tokens := by
  induction h generalizing level with
  | null => exact Token.Plain.null.spells
  | bool b => exact (Token.Plain.bool b).spells
  | number n => exact (Token.Plain.number n).spells
  | string s => exact (Token.Plain.string s).spells
  | @array items _ ih =>
    have hend : Spells (lineBreak level ++ [']']) [.arrayEnd] :=
      (spells_nil.mark (c := ']') rfl fun _ => rfl).gap (isGap_of_mem_lineBreak level)
    cases items with
    | nil => exact (spells_nil.mark rfl fun _ => rfl).mark rfl fun _ => rfl
    | cons v items =>
      have hitems := (spells_prettyItems ih (level + 1)).mark (c := '[') rfl fun _ => rfl
      have harray := hitems.append hend (endsNumber_lineBreak _ _)
      rw [← List.append_assoc] at harray
      exact harray
  | @object members hkeys _ ih =>
    have hend : Spells (lineBreak level ++ ['}']) [.objectEnd] :=
      (spells_nil.mark (c := '\x7d') rfl fun _ => rfl).gap (isGap_of_mem_lineBreak level)
    cases members with
    | nil => exact (spells_nil.mark rfl fun _ => rfl).mark rfl fun _ => rfl
    | cons m members =>
      have hmembers :=
        (spells_prettyMembers hkeys ih (level + 1)).mark (c := '\x7b') rfl fun _ => rfl
      have hobject := hmembers.append hend (endsNumber_lineBreak _ _)
      rw [← List.append_assoc] at hobject
      exact hobject

/-- What is written of tokens one right after the other. -/
def tokenChars (tokens : List Token) : List Char := tokens.flatMap Token.chars

theorem spells_compactItems {items : List Json}
    (hall : ∀ v ∈ items, Spells (tokenChars v.tokens) v.tokens) :
    Spells (tokenChars (itemTokens items)) (itemTokens items) := by
  induction items with
  | nil => exact spells_nil
  | cons v items ih =>
    have hv := hall v List.mem_cons_self
    cases items with
    | nil => exact hv
    | cons w items =>
      have hitems := ih fun u hu => hall u (List.mem_cons_of_mem _ hu)
      have happend := hv.append (hitems.mark (c := ',') rfl fun _ => rfl)
        (endsNumber_cons (by decide) _)
      unfold tokenChars at happend ⊢
      rw [itemTokens, List.flatMap_append, List.flatMap_cons]
      exact happend

theorem spells_compactMember (key : String) {v : Json}
    (hv : Spells (tokenChars v.tokens) v.tokens) :
    Spells (tokenChars (.string (some key) :: .colon :: v.tokens))
      (.string (some key) :: .colon :: v.tokens) :=
  (Token.Plain.string key).spells.append (hv.mark (c := ':') rfl fun _ => rfl)
    (endsNumber_cons (by decide) _)

theorem spells_compactMembers {members : List (Option String × Json)}
    (hkeys : ∀ m ∈ members, m.1.isSome)
    (hall : ∀ m ∈ members, Spells (tokenChars m.2.tokens) m.2.tokens) :
    Spells (tokenChars (memberTokens members)) (memberTokens members) := by
  induction members with
  | nil => exact spells_nil
  | cons m members ih =>
    obtain ⟨key, v⟩ := m
    obtain ⟨key, rfl⟩ := Option.isSome_iff_exists.1 (hkeys _ List.mem_cons_self)
    have hv := spells_compactMember key (hall _ List.mem_cons_self)
    cases members with
    | nil => exact hv
    | cons n members =>
      have hmembers := ih (fun u hu => hkeys u (List.mem_cons_of_mem _ hu))
        fun u hu => hall u (List.mem_cons_of_mem _ hu)
      have happend := hv.append (hmembers.mark (c := ',') rfl fun _ => rfl)
        (endsNumber_cons (by decide) _)
      have hchars : tokenChars (memberTokens ((some key, v) :: n :: members)) =
          tokenChars (.string (some key) :: .colon :: v.tokens) ++
            ',' :: tokenChars (memberTokens (n :: members)) :=
        List.flatMap_append
      rw [hchars]
      exact happend

/-- What is written of a plain value without blanks has the tokens of the value. -/
theorem Plain.spells_compact {v : Json} (h : v.Plain) : Spells (tokenChars v.tokens) v.tokens := by
  have hone : ∀ token : Token, tokenChars [token] = token.chars := fun token => List.append_nil _
  induction h with
  | null => exact hone .null ▸ Token.Plain.null.spells
  | bool b => exact hone (.bool b) ▸ (Token.Plain.bool b).spells
  | number n => exact hone (.number (digits n)) ▸ (Token.Plain.number n).spells
  | string s => exact hone (.string (some s)) ▸ (Token.Plain.string s).spells
  | @array items _ ih =>
    have hend : Spells [']'] [.arrayEnd] := spells_nil.mark rfl fun _ => rfl
    have harray := ((spells_compactItems ih).append hend (endsNumber_cons (by decide) _)).mark
      (c := '[') rfl fun _ => rfl
    have hchars : tokenChars (Json.array items).tokens =
        '[' :: (tokenChars (itemTokens items) ++ [']']) := by
      simp [tokens, tokenChars, Token.chars]
    rw [hchars]
    exact harray
  | @object members hkeys _ ih =>
    have hend : Spells ['\x7d'] [.objectEnd] := spells_nil.mark rfl fun _ => rfl
    have hobject := ((spells_compactMembers hkeys ih).append hend
      (endsNumber_cons (by decide) _)).mark (c := '\x7b') rfl fun _ => rfl
    have hchars : tokenChars (Json.object members).tokens =
        '\x7b' :: (tokenChars (memberTokens members) ++ ['\x7d']) := by
      simp [tokens, tokenChars, Token.chars]
    rw [hchars]
    exact hobject

/-! ## Reading -/

/-- Takes tokens one after the other. -/
def Reader.takes? (r : Reader) (tokens : List Token) : Option Reader := tokens.foldlM Reader.step? r

theorem Reader.takes?_append (r : Reader) (tokens tokens' : List Token) :
    r.takes? (tokens ++ tokens') = (r.takes? tokens).bind (·.takes? tokens') :=
  List.foldlM_append

/-- Whether the reader builds a value up from its tokens, whatever arrays and objects have begun. -/
def Built (v : Json) : Prop := ∀ frames,
  Reader.takes? ⟨frames, .value⟩ v.tokens = some ⟨frames, .ended v⟩

section

variable {items : List Json} {members : List (Option String × Json)} (frames : List Frame)

theorem built_items (hall : ∀ v ∈ items, v.Built) (hne : items ≠ []) (before : List Json) :
    Reader.takes? ⟨.array before :: frames, .value⟩ (itemTokens items ++ [.arrayEnd]) =
      some ⟨frames, .ended (.array (before ++ items))⟩ := by
  induction items generalizing before with
  | nil => exact absurd rfl hne
  | cons v items ih =>
    have hv := hall v List.mem_cons_self (.array before :: frames)
    cases items with
    | nil =>
      rw [itemTokens, Reader.takes?_append, hv]
      rfl
    | cons w items =>
      have hitems := ih (fun u hu => hall u (List.mem_cons_of_mem _ hu)) (List.cons_ne_nil _ _)
        (before ++ [v])
      rw [itemTokens, List.append_assoc, Reader.takes?_append, hv]
      rw [List.append_assoc] at hitems
      exact hitems

theorem built_members (hall : ∀ m ∈ members, m.2.Built) (hne : members ≠ [])
    (before : List (Option String × Json)) :
    Reader.takes? ⟨frames, .key before⟩ (memberTokens members ++ [.objectEnd]) =
      some ⟨frames, .ended (.object (before ++ members))⟩ := by
  induction members generalizing before with
  | nil => exact absurd rfl hne
  | cons m members ih =>
    obtain ⟨key, v⟩ := m
    have hv := hall _ List.mem_cons_self (.object before key :: frames)
    cases members with
    | nil =>
      show Reader.takes? ⟨.object before key :: frames, .value⟩ (v.tokens ++ [.objectEnd]) = _
      rw [Reader.takes?_append, hv]
      rfl
    | cons n members =>
      have hmembers := ih (fun u hu => hall u (List.mem_cons_of_mem _ hu)) (List.cons_ne_nil _ _)
        (before ++ [(key, v)])
      show Reader.takes? ⟨.object before key :: frames, .value⟩
        (v.tokens ++ .comma :: memberTokens (n :: members) ++ [.objectEnd]) = _
      rw [List.append_assoc, Reader.takes?_append, hv]
      rw [List.append_assoc] at hmembers
      exact hmembers

/-- The tokens of items do not begin with the end of the array. -/
theorem itemTokens_cons (v : Json) (items : List Json) :
    ∃ token tokens, itemTokens (v :: items) = token :: tokens ∧ token ≠ .arrayEnd := by
  have hv : ∃ token tokens, v.tokens = token :: tokens ∧ token ≠ .arrayEnd := by
    cases v <;> exact ⟨_, _, rfl, nofun⟩
  obtain ⟨token, tokens, heq, hne⟩ := hv
  cases items with
  | nil => exact ⟨token, tokens, heq, hne⟩
  | cons w items =>
    rw [itemTokens, heq]
    exact ⟨token, _, rfl, hne⟩

/-- What may come first in an array is what may come after a comma, but for its end. -/
theorem step?_arrayBegun {token : Token} (h : token ≠ .arrayEnd) :
    Reader.step? ⟨frames, .arrayBegun⟩ token =
      Reader.step? ⟨.array [] :: frames, .value⟩ token := by
  cases token with
  | arrayEnd => exact absurd rfl h
  | _ => rfl

end

theorem Plain.built {v : Json} (h : v.Plain) : v.Built := by
  induction h with
  | @array items _ ih =>
    intro frames
    show Reader.takes? ⟨frames, .arrayBegun⟩ (itemTokens items ++ [.arrayEnd]) = _
    cases items with
    | nil => rfl
    | cons v items =>
      obtain ⟨token, tokens, heq, hne⟩ := itemTokens_cons v items
      have hitems := built_items frames ih (List.cons_ne_nil v items) []
      rw [List.nil_append] at hitems
      rw [← hitems, heq]
      show (Reader.step? _ token).bind _ = (Reader.step? _ token).bind _
      rw [step?_arrayBegun frames hne]
  | @object members _ _ ih =>
    intro frames
    show Reader.takes? ⟨frames, .objectBegun⟩ (memberTokens members ++ [.objectEnd]) = _
    cases members with
    | nil => rfl
    | cons m members =>
      have hmembers := built_members frames ih (List.cons_ne_nil m members) []
      rw [List.nil_append] at hmembers
      rw [← hmembers]
      cases members <;> rfl
  | _ => exact fun frames => rfl

/-- A text that has the tokens of a plain value reads as that value. -/
theorem Plain.parse?_of_spells {v : Json} (h : v.Plain) {cs : List Char}
    (hcs : Spells cs v.tokens) : parse? (String.ofList cs) = some v := by
  have htokens := hcs [] fun _ hc => nomatch hc
  have hnone : Token.listOfChars? [] = some [] := by
    rw [Token.listOfChars?_eq]
    rfl
  rw [List.append_nil, hnone, Option.map_some, List.append_nil] at htokens
  unfold parse?
  rw [String.toList_ofList, htokens, Option.bind_some]
  show (Reader.takes? ⟨[], .value⟩ v.tokens).bind Reader.result? = _
  rw [h.built]
  rfl

/-- A plain value that is written on lines of their own reads back as that value. -/
theorem parse?_pretty {v : Json} (h : v.Plain) : parse? v.pretty = some v :=
  h.parse?_of_spells (h.spells 0)

/-- A plain value that is written without blanks reads back as that value. -/
theorem parse?_compact {v : Json} (h : v.Plain) : parse? v.compact = some v :=
  h.parse?_of_spells h.spells_compact

end Json

end TiddlerShelf
