/-
  ListingMetadata.Calendar.Plain
  ──────────────────────────────
  **DATES WITHOUT A ZONE, `2004-06-01 12:30:00`.**

  Dates of unknown form are tried one format after the other: internet dates,
  mail dates, and the two zone-less forms with a `T` or with blanks between
  date and time.  A date without a zone is in universal time.
-/
import ListingMetadata.Calendar.Internet
import ListingMetadata.Calendar.Mail

namespace ListingMetadata.Calendar

open ListingMetadata.Number ListingMetadata.Text

/-- One literal `T`. -/
def letterDivider (cs : List Char) : Except DateFault (List Char) :=
  scanMark 'T' cs

/-- Any number of blanks, none included. -/
def blankDivider (cs : List Char) : Except DateFault (List Char) :=
  .ok (trimStart cs)

/-- The instant of a date without a zone. -/
def readPlain (divider : List Char → Except DateFault (List Char)) (text : String) :
    Except DateFault Instant := do
  let (year, cs) ← roomyYear text.toList
  let cs ← scanMark '-' cs
  let (month, cs) ← roomyPair 1 12 cs
  let cs ← scanMark '-' cs
  let (day, cs) ← roomyPair 1 31 cs
  let cs ← divider cs
  let (hour, cs) ← roomyPair 0 23 cs
  let cs ← scanMark ':' cs
  let (minute, cs) ← roomyPair 0 59 cs
  let cs ← scanMark ':' cs
  let (second, cs) ← roomyPair 0 60 cs
  if cs ≠ [] then .error .tooLong
  else (⟨year, month, day, hour, minute, second, 0, 0⟩ : Reading).resolve

/-- The whole second of the first format that takes the text. -/
def readAnyDate? (text : String) : Option Instant :=
  let attempts : List (String → Except DateFault Instant) :=
    [readInternet, readMail, readPlain letterDivider, readPlain blankDivider]
  attempts.findSome? fun read =>
    match read text with
    | .ok t => some t.wholeSecond
    | .error _ => none

end ListingMetadata.Calendar
