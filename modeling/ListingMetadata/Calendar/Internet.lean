/-
  ListingMetadata.Calendar.Internet
  ─────────────────────────────────
  **INTERNET DATES, `2004-06-01T12:30:00Z`.**

  Two readers.  The strict one takes the fields at fixed places and is used for
  attribute values and for dates given by hand; the lenient one lets years be
  wide and blanks stand between the fields and is used for dates in documents.
-/
import ListingMetadata.Calendar.Scan
import ListingMetadata.Text.Bytes

namespace ListingMetadata.Calendar

open ListingMetadata.Number ListingMetadata.Text

/-! ## §1. Fixed places -/

/-- Two digits at a fixed place. -/
def fixedPair : List Char → Except DateFault (Nat × List Char)
  | a :: b :: cs =>
    match digitValue? a, digitValue? b with
    | some x, some y => .ok (x * 10 + y, cs)
    | _, _ => .error .invalid
  | _ => .error .invalid

/-- A character of a class at a fixed place. -/
def fixedMark (p : Char → Bool) : List Char → Except DateFault (List Char)
  | c :: cs => if p c then .ok cs else .error .invalid
  | [] => .error .invalid

/-- Four digits, two and two with hyphens between: a date that exists. -/
def fixedDate (cs : List Char) : Except DateFault (Date × List Char) := do
  let (century, cs) ← fixedPair cs
  let (year, cs) ← fixedPair cs
  let cs ← fixedMark (· == '-') cs
  let (month, cs) ← fixedPair cs
  let cs ← fixedMark (· == '-') cs
  let (day, cs) ← fixedPair cs
  match Date.make? (century * 100 + year : Nat) month day with
  | some date => .ok (date, cs)
  | none => .error .outOfRange

/-- Hour, minute and second with colons between. -/
def fixedClock (cs : List Char) : Except DateFault (Nat × Nat × Nat × List Char) := do
  let (hour, cs) ← fixedPair cs
  let cs ← fixedMark (· == ':') cs
  let (minute, cs) ← fixedPair cs
  let cs ← fixedMark (· == ':') cs
  let (second, cs) ← fixedPair cs
  .ok (hour, minute, second, cs)

/-- The fraction, if a point follows. -/
def optionalFraction : List Char → Except DateFault (Nat × List Char)
  | '.' :: cs => scanFraction cs
  | cs => .ok (0, cs)

/-- `Z`, or hours and minutes with exactly a colon between. -/
def strictOffset : OffsetForm :=
  ⟨true, true, scanMark ':'⟩

/-- The bytes of the shortest date and time. -/
def shortestLength : Nat := 19

/-- The instant of a text with every field at its place. -/
def readInternet (text : String) : Except DateFault Instant := do
  let cs := text.toList
  if byteLength cs < shortestLength then .error .tooShort
  else
    let (date, cs) ← fixedDate cs
    let cs ← fixedMark (fun c => c == 'T' || c == 't' || c == ' ') cs
    let (hour, minute, second, cs) ← fixedClock cs
    let (nanos, cs) ← optionalFraction cs
    if hour < 24 ∧ minute < 60 ∧ second ≤ 60 then
      let (offset, cs) ← scanOffset strictOffset cs
      if cs ≠ [] then .error .tooLong
      else if isZone offset = false then .error .outOfRange
      else
        .ok ((⟨date.year, date.month, date.day, hour, minute, second, nanos, offset⟩ :
          Reading).at date)
    else .error .outOfRange

/-! ## §2. Fields with room -/

/-- A year: after a sign of any length, otherwise at most four digits. -/
def roomyYear (cs : List Char) : Except DateFault (Int × List Char) := do
  let (year, rest) ← match trimStart cs with
    | '-' :: cs => do
      let (n, rest) ← scanNumber 1 none cs
      Except.ok (-(n : Int), rest)
    | '+' :: cs => do
      let (n, rest) ← scanNumber 1 none cs
      Except.ok ((n : Int), rest)
    | cs => do
      let (n, rest) ← scanNumber 1 (some 4) cs
      Except.ok ((n : Int), rest)
  if -2147483648 ≤ year ∧ year ≤ 2147483647 then .ok (year, rest) else .error .outOfRange

/-- A number of one or two digits after any blanks, within bounds. -/
def roomyPair (lo hi : Nat) (cs : List Char) : Except DateFault (Nat × List Char) :=
  scanBounded 1 (some 2) lo hi (trimStart cs)

/-- Any run of colons and blanks. -/
def roomySeparator (cs : List Char) : Except DateFault (List Char) :=
  .ok (cs.dropWhile fun c => c == ':' || isBlank c)

/-- `UTC` in any case, or an offset with any run of colons and blanks. -/
def roomyOffset (cs : List Char) : Except DateFault (Int × List Char) :=
  if (cs.take 3).map Char.toUpper = ['U', 'T', 'C'] then .ok (0, cs.drop 3)
  else scanOffset ⟨true, true, roomySeparator⟩ cs

/-- The separator between date and time: one `T` or blank. -/
def roomyDivider : List Char → Except DateFault (List Char)
  | [] => .error .tooShort
  | c :: cs => if c = 'T' ∨ c = 't' ∨ c = ' ' then .ok cs else .error .invalid

/-- The instant of a text with wide years and blanks between the fields. -/
def readRoomy (text : String) : Except DateFault Instant := do
  let (year, cs) ← roomyYear text.toList
  let cs ← scanMark '-' (trimStart cs)
  let (month, cs) ← roomyPair 1 12 cs
  let cs ← scanMark '-' (trimStart cs)
  let (day, cs) ← roomyPair 1 31 cs
  let cs ← roomyDivider cs
  let (hour, cs) ← roomyPair 0 23 cs
  let cs ← scanMark ':' (trimStart cs)
  let (minute, cs) ← roomyPair 0 59 cs
  let cs ← scanMark ':' (trimStart cs)
  let (second, cs) ← roomyPair 0 60 cs
  let (nanos, cs) ← optionalFraction cs
  let (offset, cs) ← roomyOffset (trimStart cs)
  if trimStart cs ≠ [] then .error .tooLong
  else (⟨year, month, day, hour, minute, second, nanos, offset⟩ : Reading).resolve

end ListingMetadata.Calendar
