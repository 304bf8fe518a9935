/-
  ListingMetadata.Calendar.Instant
  ────────────────────────────────
  **POINTS IN TIME AND THEIR TEXTS.**

  An instant is a whole second since 1970-01-01T00:00:00Z and a fraction in
  nanoseconds.  A fraction of a second or more stands for the leap second that
  follows second 59; it is written as second 60.
-/
import ListingMetadata.Calendar.Day
import ListingMetadata.Number.Integer

namespace ListingMetadata.Calendar

open ListingMetadata.Number

/-! ## §1. The type -/

/-- A point in time. -/
structure Instant where
  seconds : Int
  nanos : Nat
deriving DecidableEq, Repr

/-- The nanoseconds of a second. -/
def nanosPerSecond : Nat := 1000000000

/-- The seconds of a day. -/
def secondsPerDay : Int := 86400

/-- Earlier in time; a leap second comes after the second it follows. -/
def Instant.before (a b : Instant) : Bool :=
  decide (a.seconds < b.seconds) || (decide (a.seconds = b.seconds) && decide (a.nanos < b.nanos))

/-- The whole second that holds the instant; a leap second counts to the one
before it. -/
def Instant.wholeSecond (t : Instant) : Instant :=
  { t with nanos := 0 }

/-- The instant of a date and a time of day in universal time. -/
def Instant.ofParts (date : Date) (hour minute second nanos : Nat) : Instant :=
  ⟨date.number * secondsPerDay + (hour * 3600 + minute * 60 + second : Nat), nanos⟩

/-- The date in universal time. -/
def Instant.date (t : Instant) : Date :=
  Date.ofNumber (t.seconds / secondsPerDay)

/-- The seconds since midnight. -/
def Instant.secondOfDay (t : Instant) : Nat :=
  (t.seconds % secondsPerDay).toNat

/-! ## §2. Texts -/

/-- Four digits from year 0 to 9999, otherwise a sign and at least four. -/
def yearText (year : Int) : List Char :=
  if 0 ≤ year ∧ year ≤ 9999 then padded 4 year
  else if year < 0 then padded 5 year
  else '+' :: padded 4 year

/-- Year, month and day. -/
def Date.text (d : Date) : List Char :=
  yearText d.year ++ ['-'] ++ padded 2 d.month ++ ['-'] ++ padded 2 d.day

/-- A fraction with 0, 3, 6 or 9 digits, the fewest that lose nothing. -/
def fractionText (nanos : Nat) : List Char :=
  if nanos = 0 then []
  else if nanos % 1000000 = 0 then '.' :: padded 3 (nanos / 1000000 : Nat)
  else if nanos % 1000 = 0 then '.' :: padded 6 (nanos / 1000 : Nat)
  else '.' :: padded 9 nanos

/-- Hour, minute and second, the leap second being 60. -/
def Instant.clockText (t : Instant) : List Char :=
  let s := t.secondOfDay
  let leap := if t.nanos ≥ nanosPerSecond then 1 else 0
  padded 2 (s / 3600 : Nat) ++ [':'] ++ padded 2 (s / 60 % 60 : Nat) ++ [':']
    ++ padded 2 (s % 60 + leap : Nat)

/-- The fraction of the second shown. -/
def Instant.fraction (t : Instant) : List Char :=
  fractionText (t.nanos % nanosPerSecond)

/-- Whole seconds, as dates are written in values and headers. -/
def Instant.text (t : Instant) : String :=
  String.ofList (t.date.text ++ ['T'] ++ t.clockText ++ ['Z'])

/-- With the fraction, as dates are written in documents. -/
def Instant.fullText (t : Instant) : String :=
  String.ofList (t.date.text ++ ['T'] ++ t.clockText ++ t.fraction ++ ['Z'])

/-- With the fraction, as dates are written in log lines. -/
def Instant.spokenText (t : Instant) : String :=
  String.ofList (t.date.text ++ [' '] ++ t.clockText ++ t.fraction) ++ " UTC"

example : (⟨0, 0⟩ : Instant).text = "1970-01-01T00:00:00Z" := by decide
example : (⟨1483228799, 1500000000⟩ : Instant).fullText = "2016-12-31T23:59:60.500Z" := by decide
example : (⟨-62167219201, 0⟩ : Instant).text = "-0001-12-31T23:59:59Z" := by decide

end ListingMetadata.Calendar
