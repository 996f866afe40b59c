/-!
# Dates

Days of the proleptic Gregorian calendar in the years 1 to 9999, and their count from 1 January of
the year 1, which is day 1.

* `Date.ordinal`, `Date.ofOrdinal`: the count of a day and the day of a count.
* `Date.next?`, `Date.previous?`: the neighbouring days, none beyond the calendar.
* `Date.ofWeek?`: the day of a week-numbered year.
-/

namespace ChangeRules

/-- A day of the calendar. -/
structure Date where
  year : Nat
  month : Nat
  day : Nat
  deriving DecidableEq, Inhabited

namespace Date

def isLeap (year : Nat) : Bool :=
  year % 4 == 0 && (year % 100 != 0 || year % 400 == 0)

/-- The lengths of the months of a year. -/
def monthLengths (year : Nat) : List Nat :=
  [31, if isLeap year then 29 else 28, 31, 30, 31, 30, 31, 31, 30, 31, 30, 31]

/-- The length of a month; zero for a month that does not exist. -/
def daysInMonth (year month : Nat) : Nat :=
  if month = 0 then 0 else (monthLengths year)[month - 1]?.getD 0

/-- A year, month and day that name a day of the calendar. -/
def isValid (d : Date) : Bool :=
  1 ≤ d.year && d.year ≤ 9999 && 1 ≤ d.month && d.month ≤ 12 &&
    1 ≤ d.day && d.day ≤ daysInMonth d.year d.month

/-- The day of a year, month and day, if there is one. -/
def of? (year month day : Nat) : Option Date :=
  let d : Date := ⟨year, month, day⟩
  if d.isValid then some d else none

/-! ## Counting days -/

/-- The days before 1 January of a year. -/
def daysBeforeYear (year : Nat) : Nat :=
  let y := year - 1
  y * 365 + y / 4 - y / 100 + y / 400

/-- The count of a day. -/
def ordinal (d : Date) : Nat :=
  daysBeforeYear d.year + ((monthLengths d.year).take (d.month - 1)).foldl Nat.add 0 + d.day

/-- The month and the day in it of a count of days that starts at zero, given the lengths of the
months from `month` on. -/
def locate (month : Nat) : List Nat → Nat → Nat × Nat
  | [], n => (month, n + 1)
  | length :: lengths, n =>
    if n < length then (month, n + 1) else locate (month + 1) lengths (n - length)

/-- The day with the given count: periods of 400, 100, 4 and 1 years are split off in turn. -/
def ofOrdinal (n : Nat) : Date :=
  let n := n - 1
  let (p400, n) := (n / 146097, n % 146097)
  let (p100, n) := (n / 36524, n % 36524)
  let (p4, n) := (n / 1461, n % 1461)
  let (p1, n) := (n / 365, n % 365)
  let year := p400 * 400 + p100 * 100 + p4 * 4 + p1 + 1
  if p1 = 4 ∨ p100 = 4 then ⟨year - 1, 12, 31⟩
  else
    let (month, day) := locate 1 (monthLengths year) n
    ⟨year, month, day⟩

/-- The greatest count of a day. -/
def lastOrdinal : Nat := 3652059

/-- The weekday, Monday being 0. -/
def weekday (d : Date) : Nat := (d.ordinal + 6) % 7

/-! ## Neighbours -/

def next? (d : Date) : Option Date :=
  if d.day < daysInMonth d.year d.month then some { d with day := d.day + 1 }
  else if d.month < 12 then some ⟨d.year, d.month + 1, 1⟩
  else if d.year < 9999 then some ⟨d.year + 1, 1, 1⟩
  else none

def previous? (d : Date) : Option Date :=
  if 1 < d.day then some { d with day := d.day - 1 }
  else if 1 < d.month then some ⟨d.year, d.month - 1, daysInMonth d.year (d.month - 1)⟩
  else if 1 < d.year then some ⟨d.year - 1, 12, 31⟩
  else none

/-! ## Weeks -/

/-- The count of the Monday that starts week 1, the week with the year's first Thursday. -/
def firstMonday (year : Nat) : Nat :=
  let newYear : Date := ⟨year, 1, 1⟩
  let monday := newYear.ordinal - newYear.weekday
  if 3 < newYear.weekday then monday + 7 else monday

/-- Whether a year has a week 53. -/
def hasLongYear (year : Nat) : Bool :=
  let first := weekday ⟨year, 1, 1⟩
  first == 3 || (first == 2 && isLeap year)

/-- The day of a week-numbered year, with weekdays from 1 for Monday. -/
def ofWeek? (year week day : Nat) : Option Date :=
  if 1 ≤ year ∧ year ≤ 9999 ∧ 1 ≤ week ∧ (week ≤ 52 ∨ (week = 53 ∧ hasLongYear year)) ∧
      1 ≤ day ∧ day ≤ 7 then
    let d := ofOrdinal (firstMonday year + (week - 1) * 7 + day - 1)
    if d.isValid then some d else none
  else none

theorem isValid_of? {year month day : Nat} {d : Date} (h : of? year month day = some d) :
    d.isValid = true := by
  simp only [of?] at h
  split at h <;> simp_all

/-! ## Text -/

/-- At least `width` decimal digits. -/
def padded (width n : Nat) : List Char :=
  let ds := Nat.toDigits 10 n
  List.replicate (width - ds.length) '0' ++ ds

/-- Year, month and day in digits, between hyphens. -/
def textChars (d : Date) : List Char :=
  padded 4 d.year ++ '-' :: padded 2 d.month ++ '-' :: padded 2 d.day

def text (d : Date) : String := String.ofList d.textChars

end Date

end ChangeRules
