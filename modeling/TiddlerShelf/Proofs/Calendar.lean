import Mathlib.Tactic.IntervalCases
import TiddlerShelf.Time.Instant

/-! # Days and their numbers

Every number of a day is that of a day which the calendar has, and the day is found from it: the
number of `ofDayNumber n` is `n` again. The years are taken to begin in March, so that a leap day
comes last, and a cycle of 400 years is cut into centuries, those into four years each with one leap
day, and those into years. Only the last century of a cycle ends with a leap day. -/

namespace TiddlerShelf.CalendarDay

variable {n century fours year d : Int} {k day : Nat}

/-! ## Places in a cycle -/

/-- Where a day of a cycle lies: in which century, in which four years of it, in which of these, and
which day of the year it is. Each of them is counted from zero. -/
structure Place (n century fours year d : Int) : Prop where
  century_le : 0 ≤ century ∧ century ≤ 3
  fours_le : 0 ≤ fours ∧ fours ≤ 24
  year_le : 0 ≤ year ∧ year ≤ 3
  day_le : 0 ≤ d ∧ d ≤ 365
  sum : n = 36524 * century + 1461 * fours + 365 * year + d
  leapDay : d = 365 → year = 3 ∧ (fours = 24 → century = 3)

theorem exists_century (h : 0 ≤ n ∧ n < 146097) : ∃ century r : Int, (0 ≤ century ∧ century ≤ 3) ∧
    (0 ≤ r ∧ r ≤ 36524) ∧ (r = 36524 → century = 3) ∧ n = 36524 * century + r := by
  by_cases hlast : n = 146096
  · exact ⟨3, 36524, by omega⟩
  · exact ⟨n / 36524, n % 36524, by omega⟩

theorem exists_year {r : Int} (h : 0 ≤ r ∧ r < 1461) : ∃ year d : Int, (0 ≤ year ∧ year ≤ 3) ∧
    (0 ≤ d ∧ d ≤ 365) ∧ (d = 365 → year = 3) ∧ r = 365 * year + d := by
  by_cases hlast : r = 1460
  · exact ⟨3, 365, by omega⟩
  · exact ⟨r / 365, r % 365, by omega⟩

/-- Every day of a cycle has its place. -/
theorem exists_place (h : 0 ≤ n ∧ n < 146097) :
    ∃ century fours year d, Place n century fours year d := by
  obtain ⟨century, r, hcentury, hr, hrlast, hn⟩ := exists_century h
  obtain ⟨year, d, hyear, hd, hdlast, hs⟩ := exists_year (r := r % 1461) (by omega)
  have hfours : r / 1461 ≤ 24 ∧ r = 1461 * (r / 1461) + 365 * year + d := by omega
  exact ⟨century, r / 1461, year, d, hcentury, by omega, hyear, hd, by omega, fun hday =>
    ⟨hdlast hday, fun hlast => hrlast (by omega)⟩⟩

theorem Place.bounds (h : Place n century fours year d) : 0 ≤ n ∧ n < 146097 := by
  obtain ⟨hcentury, hfours, hyear, hd, hn, -⟩ := h
  omega

theorem Place.ediv_century (h : Place n century fours year d) (hne : n ≠ 146096) :
    n / 36524 = century := by
  obtain ⟨hcentury, hfours, hyear, hd, hn, hleap⟩ := h
  have hr : 1461 * fours + 365 * year + d < 36524 := by omega
  omega

/-- The leap days up to a day of a cycle, counted as one every 1460 days: at most the day itself is
one too many. -/
theorem Place.ediv_fours (h : Place n century fours year d) :
    ∃ e, n / 1460 = 25 * century + fours + e ∧ 0 ≤ d - e ∧ d - e < 365 := by
  obtain ⟨hcentury, hfours, hyear, hd, hn, hleap⟩ := h
  by_cases he : 24 * century + fours + 365 * year + d < 1460
  · refine ⟨0, ?_, ?_⟩
    · omega
    · omega
  · refine ⟨1, ?_, ?_⟩
    · omega
    · omega

/-- The year of a cycle that a day lies in. -/
theorem Place.yearOfCycle (h : Place n century fours year d) :
    (n - n / 1460 + n / 36524 - n / 146096) / 365 = 100 * century + 4 * fours + year := by
  obtain ⟨e, hfours, he⟩ := h.ediv_fours
  have hcentury : n / 36524 - n / 146096 = century := by
    by_cases hlast : n = 146096
    · obtain ⟨hcentury, hfours, hyear, hd, hn, -⟩ := h
      omega
    · have hbounds := h.bounds
      rw [h.ediv_century hlast, Int.ediv_eq_zero_of_lt (by omega) (by omega), Int.sub_zero]
  have hsum := h.sum
  omega

/-- The day of the year is what lies beyond the years before it. -/
theorem Place.dayOfYear (h : Place n century fours year d) {y : Int}
    (hy : y = 100 * century + 4 * fours + year) : n - (365 * y + y / 4 - y / 100) = d := by
  obtain ⟨hcentury, hfours, hyear, hd, hn, -⟩ := h
  have hfour : y / 4 = 25 * century + fours := by omega
  have hhundred : y / 100 = century := by omega
  omega

/-! ## Months -/

/-- Which month and which day of it the day of a year is, the months being counted from March. -/
structure MonthDay (d : Int) (k day : Nat) : Prop where
  month : k < 12
  number : (5 * d + 2) / 153 = k
  day : d - (153 * (k : Int) + 2) / 5 + 1 = day

theorem exists_monthDay (h : 0 ≤ d ∧ d ≤ 365) : ∃ k day, MonthDay d k day := by
  refine ⟨((5 * d + 2) / 153).toNat, (d - (153 * ((5 * d + 2) / 153) + 2) / 5 + 1).toNat,
    ?_, ?_, ?_⟩
  · omega
  · omega
  · omega

/-- The day of a year that begins in March. -/
def ofMarch (year : Int) (k day : Nat) : CalendarDay :=
  if k < 10 then ⟨year, k + 3, day⟩ else ⟨year + 1, k - 9, day⟩

/-- The number of a day is counted from the cycle, the year and the month that it lies in. -/
theorem toDayNumber_ofMarch (cycle : Int) {y : Int} (hy : 0 ≤ y ∧ y < 400) (hk : k < 12) :
    (ofMarch (400 * cycle + y) k day).toDayNumber =
      146097 * cycle + (365 * y + y / 4 - y / 100 + ((153 * (k : Int) + 2) / 5 + day - 1)) -
        719468 := by
  unfold ofMarch toDayNumber
  by_cases h : k < 10
  · simp only [if_pos h]
    omega
  · simp only [if_neg h]
    omega

/-- The day of a number lies at a place in its cycle, which gives its year, month and day. -/
theorem exists_ofMarch (n : Int) : ∃ cycle century fours year d k day,
    Place (n + 719468 - 146097 * cycle) century fours year d ∧ MonthDay d k day ∧
    ofDayNumber n = ofMarch (400 * cycle + (100 * century + 4 * fours + year)) k day := by
  obtain ⟨century, fours, year, d, hplace⟩ := exists_place (n := (n + 719468) % 146097) (by omega)
  obtain ⟨k, day, hday⟩ := exists_monthDay hplace.day_le
  refine ⟨(n + 719468) / 146097, century, fours, year, d, k, day, ?_, hday, ?_⟩
  · have hmod : (n + 719468) % 146097 = n + 719468 - 146097 * ((n + 719468) / 146097) := by omega
    rw [← hmod]
    exact hplace
  · unfold ofDayNumber ofMarch
    dsimp only
    rw [hplace.yearOfCycle, hplace.dayOfYear rfl, hday.number, hday.day]
    by_cases hk : k < 10
    · rw [if_pos hk, if_pos (by omega)]
      congr 1
      omega
    · rw [if_neg hk, if_neg (by omega)]
      congr 1
      · omega
      · omega

/-- A day is found from its number. -/
theorem toDayNumber_ofDayNumber (n : Int) : (ofDayNumber n).toDayNumber = n := by
  obtain ⟨cycle, century, fours, year, d, k, day, hplace, hday, heq⟩ := exists_ofMarch n
  obtain ⟨y, hy⟩ : ∃ y, y = 100 * century + 4 * fours + year := ⟨_, rfl⟩
  have hyear := hplace.dayOfYear hy
  have hrange : 0 ≤ y ∧ y < 400 := by
    obtain ⟨hcentury, hfours, hyear, -⟩ := hplace
    omega
  have hnumber := hday.day
  rw [heq, ← hy, toDayNumber_ofMarch cycle hrange hday.month]
  omega

/-! ## Days of the calendar -/

/-- A year of 366 days, which begins in March, is followed by the first months of a leap year. -/
theorem Place.isLeapYear (h : Place n century fours year 365) (cycle : Int) :
    isLeapYear (400 * cycle + (100 * century + 4 * fours + year) + 1) = true := by
  obtain ⟨hcentury, hfours, -, -, -, hleap⟩ := h
  obtain ⟨hyear, hlast⟩ := hleap rfl
  have hfour : (400 * cycle + (100 * century + 4 * fours + year) + 1) % 4 = 0 := by omega
  unfold CalendarDay.isLeapYear
  rw [hfour]
  by_cases h24 : fours = 24
  · have hcycle : (400 * cycle + (100 * century + 4 * fours + year) + 1) % 400 = 0 := by
      rw [hyear, h24, hlast h24]
      omega
    rw [hcycle]
    simp
  · have hne : (400 * cycle + (100 * century + 4 * fours + year) + 1) % 100 ≠ 0 := by omega
    simp [hne]

/-- The calendar has every day of a year that begins in March. -/
theorem MonthDay.isValid (h : MonthDay d k day) (hd : 0 ≤ d ∧ d ≤ 365)
    (hleap : d = 365 → isLeapYear (year + 1) = true) : (ofMarch year k day).isValid = true := by
  obtain ⟨hk, hnumber, hday⟩ := h
  have hfebruary : k = 11 → day ≤ daysInMonth (year + 1) 2 := by
    intro hk
    have hdays : daysInMonth (year + 1) 2 = if isLeapYear (year + 1) then 29 else 28 := rfl
    rw [hdays]
    by_cases hlast : d = 365
    · rw [if_pos (hleap hlast)]
      omega
    · split <;> omega
  have hlength : day ≤ daysInMonth (ofMarch year k day).year (ofMarch year k day).month := by
    by_cases hk' : k = 11
    · subst hk'
      exact hfebruary rfl
    · interval_cases k
      all_goals simp [ofMarch, daysInMonth]
      all_goals omega
  have hmonth : 1 ≤ (ofMarch year k day).month ∧ (ofMarch year k day).month ≤ 12 := by
    unfold ofMarch
    split <;> (dsimp only; omega)
  have hdayOf : (ofMarch year k day).day = day := by
    unfold ofMarch
    split <;> rfl
  have hpositive : 1 ≤ day := by omega
  unfold CalendarDay.isValid
  simp [hmonth, hpositive, hdayOf, hlength]

/-- Every number is that of a day which the calendar has. -/
theorem isValid_ofDayNumber (n : Int) : (ofDayNumber n).isValid = true := by
  obtain ⟨cycle, century, fours, year, d, k, day, hplace, hday, heq⟩ := exists_ofMarch n
  rw [heq]
  refine hday.isValid hplace.day_le fun hlast => ?_
  rw [hlast] at hplace
  exact hplace.isLeapYear cycle

/-- A day of the calendar has a month and a day of it, each of two digits at most. -/
theorem bounds_of_isValid {c : CalendarDay} (h : c.isValid = true) :
    (1 ≤ c.month ∧ c.month ≤ 12) ∧ 1 ≤ c.day ∧ c.day ≤ 31 := by
  unfold isValid at h
  simp only [Bool.and_eq_true, decide_eq_true_eq] at h
  obtain ⟨⟨⟨hfirst, hlast⟩, hday⟩, hlength⟩ := h
  have hmonth : daysInMonth c.year c.month ≤ 31 := by
    unfold daysInMonth
    split
    · split <;> omega
    · split <;> omega
  omega

/-- The number of a day in the years of four digits is no larger than those years make it. -/
theorem toDayNumber_bounds {c : CalendarDay} (h : c.isValid = true)
    (hyear : 0 ≤ c.year ∧ c.year ≤ 9999) :
    -800000 ≤ c.toDayNumber ∧ c.toDayNumber ≤ 3000000 := by
  obtain ⟨hmonth, hday⟩ := bounds_of_isValid h
  unfold toDayNumber
  by_cases hmarch : c.month ≤ 2
  · simp only [if_pos hmarch]
    omega
  · simp only [if_neg hmarch]
    omega

end TiddlerShelf.CalendarDay
