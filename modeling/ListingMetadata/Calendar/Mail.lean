/-
  ListingMetadata.Calendar.Mail
  ─────────────────────────────
  **MAIL DATES, `Tue, 1 Jul 2003 10:52:37 +0200`.**

  The date format of electronic mail, with its short years, named zones and
  trailing comments.  A day of the week must be the date's own.
-/
import ListingMetadata.Calendar.Scan

namespace ListingMetadata.Calendar

open ListingMetadata.Number ListingMetadata.Text

/-! ## §1. Names -/

/-- Days of the week, from Monday on. -/
def weekdayNames : List String :=
  ["mon", "tue", "wed", "thu", "fri", "sat", "sun"]

/-- Months, from January on. -/
def monthNames : List String :=
  ["jan", "feb", "mar", "apr", "may", "jun", "jul", "aug", "sep", "oct", "nov", "dec"]

/-- The place of the three letters in front among the names, in any case. -/
def scanName (names : List String) (cs : List Char) : Option (Nat × List Char) :=
  match names.findIdx? fun name => decide (name.toList = (cs.take 3).map Char.toLower) with
  | some i => some (i, cs.drop 3)
  | none => none

/-- Named zones and the hours that they are ahead of universal time. -/
def zoneNames : List (String × Int) :=
  [("gmt", 0), ("ut", 0), ("z", 0), ("edt", -4), ("est", -5), ("cdt", -5), ("cst", -6),
   ("mdt", -6), ("mst", -7), ("pdt", -7), ("pst", -8)]

/-- A single letter but `j` is a zone without information. -/
def isMilitaryZone (name : List Char) : Bool :=
  match name with
  | [c] => decide (c ≠ 'j')
  | _ => false

/-- A named zone, or hours and minutes without anything between. -/
def scanMailZone (cs : List Char) : Except DateFault (Int × List Char) :=
  let name := (cs.takeWhile Char.isAlpha).map Char.toLower
  let rest := cs.dropWhile Char.isAlpha
  if name = [] then scanOffset ⟨false, false, Except.ok⟩ cs
  else
    match zoneNames.find? fun (n, _) => decide (n.toList = name) with
    | some (_, hours) => .ok (hours * 3600, rest)
    | none => if isMilitaryZone name then .ok (0, rest) else .error .invalid

/-! ## §2. Comments -/

/-- The rest after a comment that is `depth` parentheses deep; a backslash takes
the next character literally. -/
def closeComment (depth : Nat) : List Char → Option (List Char)
  | [] => none
  | '\\' :: _ :: cs => closeComment depth cs
  | '(' :: cs => closeComment (depth + 1) cs
  | ')' :: cs => if depth ≤ 1 then some cs else closeComment (depth - 1) cs
  | _ :: cs => closeComment depth cs

/-- The rest after a comment in front, if there is one. -/
def passComment (cs : List Char) : Option (List Char) :=
  match trimStart cs with
  | '(' :: cs => closeComment 1 cs
  | _ => none

/-- The rest after all comments in front; there are at most `count`. -/
def passComments : Nat → List Char → List Char
  | 0, cs => cs
  | count + 1, cs =>
    match passComment cs with
    | some rest => passComments count rest
    | none => cs

/-! ## §3. The date -/

/-- Two digits count from 1950 to 2049, three from 1900. -/
def fullYear (digitCount year : Nat) : Nat :=
  if digitCount = 2 then (if year < 50 then year + 2000 else year + 1900)
  else if digitCount = 3 then year + 1900
  else year

/-- The day of the week in front with its comma, if there is one. -/
def scanWeekday (cs : List Char) : Except DateFault (Option Nat × List Char) :=
  match scanName weekdayNames cs with
  | none => .ok (none, cs)
  | some (w, ',' :: rest) => .ok (some w, rest)
  | some _ => .error .invalid

/-- The seconds, if a colon follows. -/
def scanSeconds (cs : List Char) : Except DateFault (Nat × List Char) :=
  match trimStart cs with
  | ':' :: rest => scanBounded 2 (some 2) 0 60 rest
  | _ => .ok (0, cs)

/-- The instant of a mail date. -/
def readMail (text : String) : Except DateFault Instant := do
  let (named, cs) ← scanWeekday (trimStart text.toList)
  let (day, cs) ← scanBounded 1 (some 2) 1 31 (trimStart cs)
  let cs ← scanBlanks cs
  let (month, cs) ← match scanName monthNames cs with
    | some found => Except.ok found
    | none => Except.error .invalid
  let cs ← scanBlanks cs
  let (written, rest) ← scanNumber 2 none cs
  let year := fullYear (cs.length - rest.length) written
  let cs ← scanBlanks rest
  let (hour, cs) ← scanBounded 2 (some 2) 0 23 cs
  let cs ← scanMark ':' (trimStart cs)
  let (minute, cs) ← scanBounded 2 (some 2) 0 59 (trimStart cs)
  let (second, cs) ← scanSeconds cs
  let cs ← scanBlanks cs
  let (offset, cs) ← scanMailZone cs
  if passComments cs.length cs ≠ [] then .error .tooLong
  else
    let r : Reading := ⟨year, month + 1, day, hour, minute, second, 0, offset⟩
    let date : Date := ⟨year, month + 1, day⟩
    if named.all fun w => decide (w = weekday date.number) then r.resolve
    else .error .impossible

end ListingMetadata.Calendar
