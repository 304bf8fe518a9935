/-
  ListingMetadata.Calendar.Scan
  ─────────────────────────────
  **PIECES OF DATE TEXTS.**

  The date formats share their numbers, fractions and zone offsets.  A piece
  reads the front of a text and gives back the rest, or the fault that ends
  the reading.
-/
import ListingMetadata.Calendar.Instant
import ListingMetadata.Text.Blank

namespace ListingMetadata.Calendar

open ListingMetadata.Number ListingMetadata.Text

/-! ## §1. Faults -/

/-- Why a text is no date. -/
inductive DateFault where
  | tooShort
  | invalid
  | outOfRange
  | impossible
  | tooLong
deriving DecidableEq, Repr

/-- The wording of a fault. -/
def DateFault.message : DateFault → String
  | .tooShort => "premature end of input"
  | .invalid => "input contains invalid characters"
  | .outOfRange => "input is out of range"
  | .impossible => "no possible date and time matching input"
  | .tooLong => "trailing input"

/-! ## §2. Numbers and marks -/

/-- A number of `least` to `most` digits; with no `most`, of any length. -/
def scanNumber (least : Nat) (most : Option Nat) (cs : List Char) :
    Except DateFault (Nat × List Char) :=
  let window := match most with
    | some n => cs.take n
    | none => cs
  let ds := window.takeWhile Char.isDigit
  if ds.length < least then .error (if cs.length < least then .tooShort else .invalid)
  else if digitsValue ds > maxInt then .error .outOfRange
  else .ok (digitsValue ds, cs.drop ds.length)

/-- A number within bounds. -/
def scanBounded (least : Nat) (most : Option Nat) (lo hi : Nat) (cs : List Char) :
    Except DateFault (Nat × List Char) := do
  let (n, cs) ← scanNumber least most cs
  if lo ≤ n ∧ n ≤ hi then .ok (n, cs) else .error .outOfRange

/-- One given character. -/
def scanMark (mark : Char) : List Char → Except DateFault (List Char)
  | [] => .error .tooShort
  | c :: cs => if c = mark then .ok cs else .error .invalid

/-- One or more blanks. -/
def scanBlanks : List Char → Except DateFault (List Char)
  | [] => .error .tooShort
  | c :: cs => if isBlank c then .ok (trimStart cs) else .error .invalid

/-- A fraction after its point: the first nine digits count, further ones are
passed over. -/
def scanFraction (cs : List Char) : Except DateFault (Nat × List Char) := do
  let (n, rest) ← scanNumber 1 (some 9) cs
  let count := cs.length - rest.length
  .ok (n * Nat.pow 10 (9 - count), rest.dropWhile Char.isDigit)

/-! ## §3. Zone offsets -/

/-- Two digits.  A single character of several bytes is a wrong one rather than
half of a pair. -/
def scanPair : List Char → Except DateFault (Nat × Nat × List Char)
  | [] => .error .tooShort
  | [c] => .error (if c.utf8Size = 1 then .tooShort else .invalid)
  | a :: b :: cs =>
    match digitValue? a, digitValue? b with
    | some x, some y => .ok (x, y, cs)
    | _, _ => .error .invalid

/-- What an offset may look like beyond `+hh:mm`. -/
structure OffsetForm where
  /-- `Z` stands for universal time. -/
  zulu : Bool
  /-- The mathematical minus sign counts as a minus. -/
  longMinus : Bool
  /-- What stands between hours and minutes. -/
  separator : List Char → Except DateFault (List Char)

/-- The seconds that a zone is ahead of universal time. -/
def scanOffset (form : OffsetForm) (cs : List Char) : Except DateFault (Int × List Char) :=
  match cs with
  | [] => .error .tooShort
  | c :: rest =>
    if form.zulu ∧ (c = 'Z' ∨ c = 'z') then .ok (0, rest)
    else if c = '+' ∨ c = '-' ∨ (form.longMinus ∧ c = '\u2212') then do
      let (h, h', rest) ← scanPair rest
      let rest ← form.separator rest
      let (m, m', rest) ← scanPair rest
      if m > 5 then .error .outOfRange
      else
        let size : Int := ((h * 10 + h') * 3600 + (m * 10 + m') * 60 : Nat)
        .ok (if c = '+' then size else -size, rest)
    else .error .invalid

/-- A zone is less than a day away from universal time. -/
def isZone (offset : Int) : Bool :=
  decide (-secondsPerDay < offset) && decide (offset < secondsPerDay)

/-! ## §4. Putting the pieces together -/

/-- A date and a time of day in some zone; second 60 is the leap second. -/
structure Reading where
  year : Int
  month : Nat
  day : Nat
  hour : Nat
  minute : Nat
  second : Nat
  nanos : Nat
  offset : Int
deriving DecidableEq, Repr

/-- The instant of a reading whose date exists. -/
def Reading.at (r : Reading) (date : Date) : Instant :=
  let leap := decide (r.second = 60)
  let local_ := Instant.ofParts date r.hour r.minute (if leap then 59 else r.second)
    (if leap then r.nanos + nanosPerSecond else r.nanos)
  { local_ with seconds := local_.seconds - r.offset }

/-- The date exists, the zone is one, and the instant is in a year that a value
may hold. -/
def Reading.resolve (r : Reading) : Except DateFault Instant :=
  match Date.make? r.year r.month r.day with
  | none => .error .outOfRange
  | some date =>
    if isZone r.offset = false then .error .outOfRange
    else
      let t := r.at date
      if minYear ≤ t.date.year ∧ t.date.year ≤ maxYear then .ok t else .error .impossible

end ListingMetadata.Calendar
