import Mathlib.Data.List.TakeWhile
import TiddlerShelf.Proofs.Calendar
import TiddlerShelf.Proofs.JsonText
import TiddlerShelf.Proofs.Trimming
import TiddlerShelf.Time.Rfc3339

/-! # Times read back

The text of a moment reads back as that moment: each number of it has as many digits as the reader
takes, no part begins with a blank, and the date, the time of day and the fraction together name the
moment again. This is stated for the years that four digits hold and for moments that lie in no leap
second. -/

namespace TiddlerShelf

open TiddlerShelf.Text

namespace Text

/-! ## Numerals of a fixed width -/

theorem length_digits_le {n width : Nat} (h : n < 10 ^ width) (hwidth : 0 < width) :
    (digits n).length ≤ width := by
  fun_induction digits n generalizing width with
  | case1 n hn => exact hwidth
  | case2 n hn ih =>
    obtain ⟨w, rfl⟩ := Nat.exists_eq_add_of_lt hwidth
    have hshort : n / 10 < 10 ^ w := by
      rw [Nat.zero_add, Nat.pow_succ] at h
      omega
    have hw : 0 < w := by
      by_contra hzero
      obtain rfl : w = 0 := by omega
      omega
    have hlength := ih hshort hw
    rw [List.length_append, List.length_singleton]
    omega

theorem digitsValue_replicate_append (k : Nat) (cs : List Char) :
    digitsValue (List.replicate k '0' ++ cs) = digitsValue cs := by
  induction k with
  | zero => rfl
  | succ k ih => exact ih

theorem digitsValue_append_replicate (cs : List Char) (k : Nat) :
    digitsValue (cs ++ List.replicate k '0') = digitsValue cs * 10 ^ k := by
  have hzero : digitValue '0' = 0 := by decide
  induction k with
  | zero => simp
  | succ k ih =>
    rw [List.replicate_succ', ← List.append_assoc, digitsValue_append_singleton, ih, hzero,
      Nat.pow_succ, Nat.add_zero, Nat.mul_comm 10, Nat.mul_assoc]

theorem isDigit_of_mem_paddedDigits {width n : Nat} {c : Char} (h : c ∈ paddedDigits width n) :
    isDigit c = true := by
  rcases List.mem_append.1 h with h | h
  · exact (List.mem_replicate.1 h).2 ▸ rfl
  · exact Json.isDigit_of_mem_digits h

/-- A numeral that is padded reads back as the number it was written for. -/
theorem digitsValue_paddedDigits (width n : Nat) : digitsValue (paddedDigits width n) = n := by
  rw [paddedDigits, digitsValue_replicate_append, digitsValue_digits]

theorem length_paddedDigits {width n : Nat} (h : n < 10 ^ width) (hwidth : 0 < width) :
    (paddedDigits width n).length = width := by
  have hlength := length_digits_le h hwidth
  rw [paddedDigits, List.length_append, List.length_replicate]
  omega

/-- A digit is no blank and no other mark. -/
theorem isBlank_of_isDigit {c : Char} (h : isDigit c = true) : isBlank c = false := by
  have hbounds : 48 ≤ c.toNat ∧ c.toNat ≤ 57 := by
    simpa [isDigit, Char.le_def, UInt32.le_iff_toNat_le] using h
  unfold isBlank
  simp only [Bool.or_eq_false_iff, Bool.and_eq_false_iff, decide_eq_false_iff_not,
    beq_eq_false_iff_ne]
  omega

end Text

namespace Instant

section

variable {least width n : Nat} {rest : List Char}

/-! ## Parts -/

/-- A number of a fixed width is read by whoever takes as many digits at most. -/
theorem readNumber?_paddedDigits (hleast : least ≤ width) (h : n < 10 ^ width)
    (hwidth : 0 < width) :
    readNumber? least width (paddedDigits width n ++ rest) = some (n, rest) := by
  have hlength := length_paddedDigits h hwidth
  have htake : ((paddedDigits width n ++ rest).take width).takeWhile isDigit =
      paddedDigits width n := by
    rw [List.take_left' hlength]
    exact List.takeWhile_eq_self_iff.2 fun c hc => isDigit_of_mem_paddedDigits hc
  simp only [readNumber?, htake, hlength, digitsValue_paddedDigits, List.drop_left' hlength]
  exact if_neg (by omega)

/-- A number of a fixed width begins with a digit. -/
theorem paddedDigits_cons (h : n < 10 ^ width) (hwidth : 0 < width) :
    ∃ c cs, paddedDigits width n = c :: cs ∧ isDigit c = true := by
  have hlength := length_paddedDigits h hwidth
  cases heq : paddedDigits width n with
  | nil =>
    rw [heq, List.length_nil] at hlength
    omega
  | cons c cs => exact ⟨c, cs, rfl, isDigit_of_mem_paddedDigits (heq ▸ List.mem_cons_self)⟩

theorem trimStart_paddedDigits (h : n < 10 ^ width) (hwidth : 0 < width) :
    trimStart (paddedDigits width n ++ rest) = paddedDigits width n ++ rest := by
  obtain ⟨c, cs, heq, hc⟩ := paddedDigits_cons h hwidth
  rw [heq]
  exact trimStart_cons (isBlank_of_isDigit hc) _

theorem readPart?_paddedDigits (h : n < 100) :
    readPart? (paddedDigits 2 n ++ rest) = some (n, rest) := by
  unfold readPart?
  rw [trimStart_paddedDigits h (by decide)]
  exact readNumber?_paddedDigits (by decide) h (by decide)

theorem readYear?_paddedDigits (h : n < 10000) :
    readYear? (paddedDigits 4 n ++ rest) = some ((n : Int), rest) := by
  have hread : readNumber? 1 4 (paddedDigits 4 n ++ rest) = some (n, rest) :=
    readNumber?_paddedDigits (by decide) h (by decide)
  obtain ⟨c, cs, heq, hc⟩ := paddedDigits_cons (show n < 10 ^ 4 from h) (by decide)
  unfold readYear?
  rw [trimStart_paddedDigits h (by decide)]
  split
  · rename_i hsign
    rw [heq] at hsign
    cases hsign
    contradiction
  · rename_i hsign
    rw [heq] at hsign
    cases hsign
    contradiction
  · rw [hread]
    rfl

end

theorem readMark?_cons {c : Char} (h : isBlank c = false) (cs : List Char) :
    readMark? c (c :: cs) = some cs := by
  unfold readMark?
  rw [trimStart_cons h]
  exact if_pos rfl

/-- A fraction of `width` digits is read as that many nanoseconds. -/
theorem readFraction?_paddedDigits {width n : Nat} (hn : n < 10 ^ width)
    (hwidth : 0 < width ∧ width ≤ 9) {c : Char} (hc : isDigit c = false) (cs : List Char) :
    readFraction? ('.' :: paddedDigits width n ++ c :: cs) =
      some (n * 10 ^ (9 - width), c :: cs) := by
  have hlength := length_paddedDigits hn hwidth.1
  have hall : ∀ d ∈ paddedDigits width n, isDigit d = true := fun d => isDigit_of_mem_paddedDigits
  have hrun : ((paddedDigits width n ++ c :: cs).take 9).takeWhile isDigit =
      paddedDigits width n := by
    rw [List.take_append, List.take_of_length_le (by omega), List.takeWhile_append_of_pos hall]
    cases 9 - (paddedDigits width n).length with
    | zero => simp
    | succ k => simp [hc]
  obtain ⟨d, ds, heq, -⟩ := paddedDigits_cons hn hwidth.1
  have hne : (paddedDigits width n).isEmpty = false := by
    rw [heq]
    rfl
  simp only [List.cons_append, readFraction?, hrun, hne, digitsValue_append_replicate,
    digitsValue_paddedDigits, List.drop_left' hlength, hlength]
  simp [hc]

/-- The fraction of a second is read from as many digits as it takes. -/
theorem readFraction?_fractionChars {nanos : Nat} (h : nanos < 1000000000) :
    readFraction? (fractionChars nanos ++ ['Z']) = some (nanos, ['Z']) := by
  have hstop : isDigit 'Z' = false := by decide
  unfold fractionChars
  split
  · rename_i hzero
    rw [hzero]
    rfl
  · split
    · rename_i hmilli
      rw [readFraction?_paddedDigits (by omega) (by decide) hstop]
      congr 2
      omega
    · split
      · rename_i hmicro
        rw [readFraction?_paddedDigits (by omega) (by decide) hstop]
        congr 2
        omega
      · rw [readFraction?_paddedDigits (by omega) (by decide) hstop]
        congr 2
        omega

/-! ## Moments -/

/-- The year that a moment lies in. -/
def year (i : Instant) : Int := (CalendarDay.ofDayNumber i.dayNumber).year

/-- Whether a moment lies in the years that four digits hold, and in no leap second. -/
structure IsOrdinary (i : Instant) : Prop where
  year_le : 0 ≤ i.year ∧ i.year ≤ 9999
  nanos_lt : i.nanos < 1000000000

variable {i : Instant}

theorem IsOrdinary.isInLimits (h : i.IsOrdinary) : i.isInLimits = true := by
  have hday := CalendarDay.toDayNumber_bounds (CalendarDay.isValid_ofDayNumber i.dayNumber)
    h.year_le
  rw [CalendarDay.toDayNumber_ofDayNumber] at hday
  have hleast : CalendarDay.toDayNumber ⟨yearLimits.1, 1, 1⟩ ≤ -800000 := by decide
  have hlast : 3000000 ≤ CalendarDay.toDayNumber ⟨yearLimits.2, 12, 31⟩ := by decide
  unfold Instant.isInLimits
  simp only [Bool.and_eq_true, decide_eq_true_eq]
  omega

/-- The date and the time of day of a moment name it. -/
theorem IsOrdinary.toInstant? (h : i.IsOrdinary) {clock : Nat}
    (hclock : clock = (i.seconds % 86400).toNat) :
    Parts.toInstant? {
      day := CalendarDay.ofDayNumber i.dayNumber
      hour := clock / 3600
      minute := clock / 60 % 60
      second := clock % 60
      nanos := i.nanos
      offset := 0 } = some i := by
  have hvalid := CalendarDay.isValid_ofDayNumber i.dayNumber
  have hyear : yearLimits.1 ≤ i.year ∧ i.year ≤ yearLimits.2 := by
    have hlimits : yearLimits.1 ≤ 0 ∧ 9999 ≤ yearLimits.2 := by decide
    have := h.year_le
    omega
  have hsecond : ¬clock % 60 = 60 := by omega
  have hseconds : (CalendarDay.ofDayNumber i.dayNumber).toDayNumber * 86400 +
      (clock / 3600 : Nat) * 3600 + (clock / 60 % 60 : Nat) * 60 + (clock % 60 : Nat) - 0 =
        i.seconds := by
    rw [CalendarDay.toDayNumber_ofDayNumber, dayNumber]
    omega
  have hguard : (clock / 3600 < 24) ∧ (clock / 60 % 60 < 60) ∧ clock % 60 ≤ 60 := by omega
  have hlimits := h.isInLimits
  unfold Parts.toInstant?
  simp only [hvalid, if_neg hsecond, hseconds]
  rw [if_pos hlimits, if_pos]
  simp only [Bool.and_eq_true, decide_eq_true_eq]
  exact ⟨⟨⟨⟨⟨⟨trivial, hyear.1⟩, hyear.2⟩, hguard.1⟩, hguard.2.1⟩, hguard.2.2⟩, by decide⟩

/-- The text of a moment, one part after the other. -/
theorem IsOrdinary.toChars_eq (h : i.IsOrdinary) {clock : Nat}
    (hclock : clock = (i.seconds % 86400).toNat) {day : CalendarDay}
    (hday : day = CalendarDay.ofDayNumber i.dayNumber) :
    i.toChars = paddedDigits 4 day.year.toNat ++ ('-' :: (paddedDigits 2 day.month ++ ('-' ::
      (paddedDigits 2 day.day ++ ('T' :: (paddedDigits 2 (clock / 3600) ++ (':' ::
      (paddedDigits 2 (clock / 60 % 60) ++ (':' :: (paddedDigits 2 (clock % 60) ++
      (fractionChars i.nanos ++ ['Z']))))))))))) := by
  have hyear : yearChars i.year = paddedDigits 4 i.year.toNat := by
    unfold yearChars
    exact if_pos (by simpa using h.year_le)
  unfold toChars
  simp only [if_pos h.nanos_lt, ← hclock, ← hday]
  rw [hday, ← year, hyear]
  simp only [List.append_assoc, List.cons_append]

/-- A moment reads back from its text. -/
theorem IsOrdinary.parseLoose?_toText (h : i.IsOrdinary) : parseLoose? i.toText = some i := by
  obtain ⟨clock, hclock⟩ : ∃ clock, clock = (i.seconds % 86400).toNat := ⟨_, rfl⟩
  obtain ⟨day, hday⟩ : ∃ day, day = CalendarDay.ofDayNumber i.dayNumber := ⟨_, rfl⟩
  have hyear : 0 ≤ day.year ∧ day.year ≤ 9999 := hday ▸ h.year_le
  obtain ⟨hmonth, hdayOf⟩ : (1 ≤ day.month ∧ day.month ≤ 12) ∧ 1 ≤ day.day ∧ day.day ≤ 31 :=
    CalendarDay.bounds_of_isValid (hday ▸ CalendarDay.isValid_ofDayNumber i.dayNumber)
  have hread := h.toInstant? hclock
  have hyearOf : ((day.year.toNat : Nat) : Int) = day.year := Int.toNat_of_nonneg hyear.1
  have hdash : isBlank '-' = false := by decide
  have hcolon : isBlank ':' = false := by decide
  have hoffset : readLooseOffset? (trimStart ['Z']) = some (0, []) := by decide
  unfold parseLoose? toText
  rw [String.toList_ofList, h.toChars_eq hclock hday]
  unfold parseLooseChars?
  have hbind : ∀ {α : Type} {x : Option α} {a : α} {f : α → Option Instant}, x = some a →
      f a = some i → (x >>= f) = some i := by
    intro α x a f hx hf
    rw [hx]
    exact hf
  refine hbind (readYear?_paddedDigits (by omega)) <| hbind (readMark?_cons hdash _) <|
    hbind (readPart?_paddedDigits (by omega)) <| hbind (readMark?_cons hdash _) <|
    hbind (readPart?_paddedDigits (by omega)) <| hbind rfl <|
    hbind (readPart?_paddedDigits (by omega)) <| hbind (readMark?_cons hcolon _) <|
    hbind (readPart?_paddedDigits (by omega)) <| hbind (readMark?_cons hcolon _) <|
    hbind (readPart?_paddedDigits (by omega)) <| hbind (readFraction?_fractionChars h.nanos_lt) <|
    hbind hoffset ?_
  rw [hyearOf, hday]
  exact hread

end Instant

end TiddlerShelf
