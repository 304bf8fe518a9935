/-
  ListingMetadata.Number.Integer
  ──────────────────────────────
  **WHOLE NUMBERS AS DECIMAL TEXT.**

  Numbers in attribute values are signed 64-bit integers.  A text is read from
  left to right and the first obstacle decides the fault: a character that is
  no digit, or the digit with which the number leaves its range.
-/

namespace ListingMetadata.Number

/-! ## §1. Reading -/

/-- Why a text is no number. -/
inductive IntegerFault where
  | empty
  | invalidDigit
  | tooLarge
  | tooSmall
deriving DecidableEq, Repr

/-- The wording of a fault. -/
def IntegerFault.message : IntegerFault → String
  | .empty => "cannot parse integer from empty string"
  | .invalidDigit => "invalid digit found in string"
  | .tooLarge => "number too large to fit in target type"
  | .tooSmall => "number too small to fit in target type"

/-- The greatest 64-bit signed integer. -/
def maxInt : Nat := 9223372036854775807

/-- The greatest 64-bit natural number. -/
def maxNat : Nat := 18446744073709551615

/-- The greatest 32-bit natural number. -/
def maxNat32 : Nat := 4294967295

/-- The value of an ASCII digit. -/
def digitValue? (c : Char) : Option Nat :=
  if c.isDigit then some (c.toNat - 48) else none

/-- The value of a hexadecimal digit. -/
def hexValue? (c : Char) : Option Nat :=
  if c.isDigit then some (c.toNat - 48)
  else if 'a' ≤ c ∧ c ≤ 'f' then some (c.toNat - 87)
  else if 'A' ≤ c ∧ c ≤ 'F' then some (c.toNat - 55)
  else none

/-- The digits after `acc`, as long as the number does not exceed `limit`. -/
def readDigits (limit : Nat) (beyond : IntegerFault) (acc : Nat) :
    List Char → Except IntegerFault Nat
  | [] => .ok acc
  | c :: cs =>
    match digitValue? c with
    | none => .error .invalidDigit
    | some d =>
      if acc * 10 + d ≤ limit then readDigits limit beyond (acc * 10 + d) cs
      else .error beyond

/-- A signed 64-bit integer: an optional sign, then digits. -/
def readInt : List Char → Except IntegerFault Int
  | [] => .error .empty
  | ['+'] => .error .invalidDigit
  | ['-'] => .error .invalidDigit
  | '+' :: cs => (readDigits maxInt .tooLarge 0 cs).map Int.ofNat
  | '-' :: cs => (readDigits (maxInt + 1) .tooSmall 0 cs).map fun n => -Int.ofNat n
  | cs => (readDigits maxInt .tooLarge 0 cs).map Int.ofNat

/-- A natural number up to a limit: an optional plus, then digits. -/
def readUpTo (limit : Nat) : List Char → Except IntegerFault Nat
  | [] => .error .empty
  | ['+'] => .error .invalidDigit
  | '+' :: cs => readDigits limit .tooLarge 0 cs
  | cs => readDigits limit .tooLarge 0 cs

/-- A 64-bit natural number. -/
def readNat : List Char → Except IntegerFault Nat :=
  readUpTo maxNat

/-- The value of a run of digits; other characters count as nothing. -/
def digitsValue (cs : List Char) : Nat :=
  cs.foldl (fun n c => n * 10 + (c.toNat - 48)) 0

example : readInt "-9223372036854775808".toList = .ok (-9223372036854775808) := by rfl
example : readInt "9223372036854775808".toList = .error .tooLarge := by rfl
example : readInt "99999999999999999999x".toList = .error .tooLarge := by rfl

/-! ## §2. Writing -/

/-- The digits of a natural number, at least one. -/
def digits (n : Nat) : List Char :=
  Nat.toDigits 10 n

/-- An integer without leading zeros or plus sign. -/
def shown (v : Int) : List Char :=
  if v < 0 then '-' :: digits v.natAbs else digits v.natAbs

/-- Zeros in front up to a width. -/
def zeroFilled (width : Nat) (cs : List Char) : List Char :=
  List.replicate (width - cs.length) '0' ++ cs

/-- An integer with zeros after the sign up to a width that counts the sign. -/
def padded (width : Nat) (v : Int) : List Char :=
  if v < 0 then '-' :: zeroFilled (width - 1) (digits v.natAbs)
  else zeroFilled width (digits v.natAbs)

/-- An integer as text. -/
def showInt (v : Int) : String :=
  String.ofList (shown v)

/-- A natural number as text. -/
def showNat (n : Nat) : String :=
  String.ofList (digits n)

example : padded 5 (-1) = "-0001".toList := by decide
example : padded 2 7 = "07".toList := by decide

end ListingMetadata.Number
