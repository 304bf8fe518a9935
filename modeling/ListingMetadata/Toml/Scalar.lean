/-
  ListingMetadata.Toml.Scalar
  ───────────────────────────
  **NUMBERS, WORDS AND DATES OF A TOML FILE.**

  A value without quotes is told by its characters alone: truth values, whole
  numbers in four bases, fractions, and dates and times that exist.
-/
import ListingMetadata.Calendar.Day
import ListingMetadata.Number.Binary
import ListingMetadata.Toml.Table

namespace ListingMetadata.Toml

open Number Calendar

/-! ## §1. Numbers -/

/-- Groups of digits with an underscore between neighbours. -/
def groups? (isDigit : Char → Bool) (cs : List Char) : Option (List Char) :=
  let parts := cs.splitOn '_'
  if parts.all fun g => !g.isEmpty && g.all isDigit then some parts.flatten else none

/-- The value of digits in a base. -/
def digitsIn (base : Nat) (ds : List Char) : Nat :=
  ds.foldl (fun n c => n * base + (hexValue? c).getD 0) 0

/-- The digit belongs to a base. -/
def isDigitOf (base : Nat) (c : Char) : Bool :=
  (hexValue? c).any fun d => decide (d < base)

/-- The digits of a decimal number without leading zeros. -/
def decimal? (cs : List Char) : Option (List Char) := do
  let ds ← groups? Char.isDigit cs
  if ds.length > 1 ∧ ds.head? = some '0' then none else some ds

/-- A sign taken off, and whether it was a minus. -/
def unsigned : List Char → Bool × List Char
  | '-' :: cs => (true, cs)
  | '+' :: cs => (false, cs)
  | cs => (false, cs)

/-- The numbers that have a place in 128 bits, with or without a sign. -/
def inRange (v : Int) : Bool :=
  decide (-170141183460469231731687303715884105728 ≤ v)
    && decide (v ≤ 340282366920938463463374607431768211455)

/-- A number of at most 128 bits. -/
def bounded (v : Int) : Option Int :=
  if inRange v then some v else none

/-- A whole number: decimal with an optional sign, or in base 16, 8 or 2. -/
def whole? (cs : List Char) : Option Int :=
  match cs with
  | '0' :: 'x' :: ds => (groups? (isDigitOf 16) ds).bind fun ds => bounded (digitsIn 16 ds)
  | '0' :: 'o' :: ds => (groups? (isDigitOf 8) ds).bind fun ds => bounded (digitsIn 8 ds)
  | '0' :: 'b' :: ds => (groups? (isDigitOf 2) ds).bind fun ds => bounded (digitsIn 2 ds)
  | cs =>
    let (negative, body) := unsigned cs
    (decimal? body).bind fun ds =>
      bounded (if negative then -(digitsIn 10 ds : Int) else digitsIn 10 ds)

/-- The exponent of a fraction, with the letter in front gone. -/
def exponent? (cs : List Char) : Option Int :=
  let (negative, body) := unsigned cs
  (groups? Char.isDigit body).map fun ds =>
    if negative then -(digitsIn 10 ds : Int) else digitsIn 10 ds

/-- The letter of an exponent. -/
def isExponentMark (c : Char) : Bool :=
  c == 'e' || c == 'E'

/-- A decimal number with a point, an exponent or both: all its digits as one
number and the power of ten that the last of them stands for. -/
def fraction? (cs : List Char) : Option (Nat × Int) := do
  let mantissa := cs.takeWhile fun c => !isExponentMark c
  let tail := cs.dropWhile fun c => !isExponentMark c
  let whole ← decimal? (mantissa.takeWhile (· ≠ '.'))
  let part ← match mantissa.dropWhile (· ≠ '.') with
    | [] => if tail.isEmpty then none else some []
    | _ :: ds => groups? Char.isDigit ds
  let power ← match tail with
    | [] => some 0
    | _ :: e => exponent? e
  some (digitsIn 10 (whole ++ part), power - part.length)

/-- A fraction that is not beyond the greatest number, or a word for what is no
number or beyond all of them. -/
def isFraction (cs : List Char) : Bool :=
  let body := (unsigned cs).2
  decide (body = ['i', 'n', 'f']) || decide (body = ['n', 'a', 'n'])
    || (fraction? body).any fun (n, power) => (Binary.ofDecimal? n power).isSome

/-! ## §2. Dates and times -/

/-- The number of so many digits and what follows it. -/
def fixed? (width : Nat) (cs : List Char) : Option (Nat × List Char) :=
  let ds := cs.take width
  if ds.length = width ∧ ds.all Char.isDigit then some (digitsValue ds, cs.drop width) else none

/-- What follows a character. -/
def after? (c : Char) : List Char → Option (List Char)
  | d :: cs => if d = c then some cs else none
  | [] => none

/-- What follows a date that exists. -/
def date? (cs : List Char) : Option (List Char) := do
  let (year, cs) ← fixed? 4 cs
  let cs ← after? '-' cs
  let (month, cs) ← fixed? 2 cs
  let cs ← after? '-' cs
  let (day, cs) ← fixed? 2 cs
  if (Date.mk year month day).isValid then some cs else none

/-- What follows the seconds of a time of day, which may be left out together
with their fraction; a minute may have 61 of them. -/
def seconds? : List Char → Option (List Char)
  | ':' :: cs => do
    let (second, cs) ← fixed? 2 cs
    if second > 60 then none
    else
      match cs with
      | '.' :: ds =>
        if (ds.takeWhile Char.isDigit).isEmpty then none else some (ds.dropWhile Char.isDigit)
      | cs => some cs
  | cs => some cs

/-- What follows a time of day. -/
def time? (cs : List Char) : Option (List Char) := do
  let (hour, cs) ← fixed? 2 cs
  let cs ← after? ':' cs
  let (minute, cs) ← fixed? 2 cs
  if hour > 23 ∨ minute > 59 then none else seconds? cs

/-- Nothing, or an offset from universal time. -/
def isOffset (cs : List Char) : Bool :=
  match cs with
  | [] => true
  | ['z'] => true
  | ['Z'] => true
  | sign :: cs =>
    (sign == '+' || sign == '-') &&
      ((do
        let (hour, cs) ← fixed? 2 cs
        let cs ← after? ':' cs
        let (minute, cs) ← fixed? 2 cs
        if hour ≤ 23 ∧ minute ≤ 59 ∧ cs = [] then some () else none).isSome)

/-- The character between a date and a time. -/
def isDateMark (c : Char) : Bool :=
  c == 'T' || c == 't' || c == ' '

/-- A date, a time or both; only both may have an offset. -/
def isMoment (cs : List Char) : Bool :=
  match date? cs with
  | some [] => true
  | some (mark :: rest) => isDateMark mark && (time? rest).any isOffset
  | none => time? cs == some []

/-! ## §3. Scalars -/

/-- The value of a text without quotes. -/
def scalar? (cs : List Char) : Option Scalar :=
  if cs = ['t', 'r', 'u', 'e'] then some (.bool true)
  else if cs = ['f', 'a', 'l', 's', 'e'] then some (.bool false)
  else
    match whole? cs with
    | some v => some (.whole v)
    | none => if isFraction cs || isMoment cs then some .other else none

example : scalar? "1_000".toList = some (.whole 1000) := by decide
example : scalar? "0x1F".toList = some (.whole 31) := by decide
example : scalar? "007".toList = none := by decide
example : scalar? "1979-05-27 07:32Z".toList = some .other := by decide
example : scalar? "1e400".toList = none := by decide

end ListingMetadata.Toml
