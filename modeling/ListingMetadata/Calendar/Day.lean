/-
  ListingMetadata.Calendar.Day
  ────────────────────────────
  **THE GREGORIAN CALENDAR, WITHOUT BEGINNING OR END.**

  Dates are counted as days since 1970-01-01.  The calendar's rules reach back
  and ahead of their historical use; the dates that a value may hold lie in
  the years -262143 to 262142.
-/

namespace ListingMetadata.Calendar

/-! ## §1. Years and months -/

/-- A day of the calendar. -/
structure Date where
  year : Int
  month : Nat
  day : Nat
deriving DecidableEq, Repr

/-- Every fourth year, but of the centuries only every fourth. -/
def isLeap (year : Int) : Bool :=
  decide (year % 4 = 0) && (decide (year % 100 ≠ 0) || decide (year % 400 = 0))

/-- The days of a month. -/
def monthLength (year : Int) (month : Nat) : Nat :=
  if month = 2 then (if isLeap year then 29 else 28)
  else if month = 4 ∨ month = 6 ∨ month = 9 ∨ month = 11 then 30
  else 31

/-- The days from 0001-01-01 to the first of January. -/
def daysBeforeYear (year : Int) : Int :=
  365 * (year - 1) + (year - 1) / 4 - (year - 1) / 100 + (year - 1) / 400

/-- The days from the first of January to the first of a month. -/
def daysBeforeMonth (year : Int) : Nat → Nat
  | 0 => 0
  | 1 => 0
  | month + 1 => daysBeforeMonth year month + monthLength year month

/-- The days from 0001-01-01 to 1970-01-01. -/
def epochDay : Int := 719162

example : daysBeforeYear 1970 = epochDay := by decide

/-! ## §2. Dates and day numbers -/

/-- The first year that a value may hold. -/
def minYear : Int := -262143

/-- The last year that a value may hold. -/
def maxYear : Int := 262142

/-- The month exists and has such a day. -/
def Date.isValid (d : Date) : Bool :=
  decide (1 ≤ d.month) && decide (d.month ≤ 12) &&
    decide (1 ≤ d.day) && decide (d.day ≤ monthLength d.year d.month)

/-- A date that exists, in a year that a value may hold. -/
def Date.make? (year : Int) (month day : Nat) : Option Date :=
  let d : Date := ⟨year, month, day⟩
  if d.isValid && decide (minYear ≤ year) && decide (year ≤ maxYear) then some d else none

/-- The days from 1970-01-01 to a date. -/
def Date.number (d : Date) : Int :=
  daysBeforeYear d.year + daysBeforeMonth d.year d.month + (d.day - 1) - epochDay

/-- The year that holds the day so many days after 0001-01-01. -/
def yearOf (days : Int) : Int :=
  let guess := 400 * days / 146097 + 1
  if days < daysBeforeYear guess then guess - 1
  else if daysBeforeYear (guess + 1) ≤ days then guess + 1
  else guess

/-- The month that holds the day so many days after the first of January:
the last of the twelve that does not begin later. -/
def monthOf (year : Int) (days : Nat) : Nat → Nat
  | 0 => 1
  | month + 1 => if daysBeforeMonth year (month + 1) ≤ days then month + 1 else monthOf year days month

/-- The date so many days after 1970-01-01. -/
def Date.ofNumber (n : Int) : Date :=
  let days := n + epochDay
  let year := yearOf days
  let inYear := (days - daysBeforeYear year).toNat
  let month := monthOf year inYear 12
  ⟨year, month, inYear - daysBeforeMonth year month + 1⟩

/-- The day of the week, Monday being 0. -/
def weekday (n : Int) : Nat :=
  ((n + 3) % 7).toNat

example : Date.ofNumber 0 = ⟨1970, 1, 1⟩ := by decide
example : Date.ofNumber (-719163) = ⟨0, 12, 31⟩ := by decide
example : (⟨2000, 2, 29⟩ : Date).number = 11016 := by decide
example : weekday (⟨2003, 7, 1⟩ : Date).number = 1 := by decide

end ListingMetadata.Calendar
