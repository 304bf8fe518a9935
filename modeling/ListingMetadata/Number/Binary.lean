/-
  ListingMetadata.Number.Binary
  ─────────────────────────────
  **64-BIT BINARY FRACTIONS, EXACTLY.**

  Numbers with a point or an exponent are no attribute values, but a message
  about one shows it.  A finite number is `significand · 2 ^ exponent` with at
  most 53 bits; every operation is done exactly and rounded once, a tie to the
  even neighbour.
-/
import ListingMetadata.Number.Integer

namespace ListingMetadata.Number

/-! ## §1. Rounding a quotient -/

/-- A finite number that is not negative. -/
structure Binary where
  significand : Nat
  exponent : Int
deriving DecidableEq, Repr

/-- The smallest exponent. -/
def Binary.minExponent : Int := -1074

/-- The greatest exponent. -/
def Binary.maxExponent : Int := 971

/-- The smallest number of 53 bits, two to the 52nd power. -/
def Binary.leastFull : Nat := 4503599627370496

/-- Zero. -/
def Binary.zero : Binary := ⟨0, Binary.minExponent⟩

/-- `a / b` to the nearest whole number, a tie to the even one. -/
def roundedDiv (a b : Nat) : Nat :=
  let q := a / b
  let r := a % b
  if 2 * r < b then q
  else if 2 * r > b then q + 1
  else if q % 2 = 0 then q else q + 1

/-- `num / den / 2 ^ e` as a fraction of whole numbers. -/
def scaled (num den : Nat) (e : Int) : Nat × Nat :=
  match e with
  | .ofNat k => (num, den * Nat.pow 2 k)
  | .negSucc k => (num * Nat.pow 2 (k + 1), den)

/-- The nearest number to `num / den`, or none beyond the greatest. -/
def Binary.nearest? (num den : Nat) : Option Binary :=
  if num = 0 then some Binary.zero
  else
    let guess : Int := Int.ofNat num.log2 - Int.ofNat den.log2 - 52
    let (a, b) := scaled num den guess
    let e := max Binary.minExponent (if a / b < Binary.leastFull then guess - 1 else guess)
    let (a, b) := scaled num den e
    let m := roundedDiv a b
    let (m, e) := if m = 2 * Binary.leastFull then (Binary.leastFull, e + 1) else (m, e)
    if e > Binary.maxExponent then none else some ⟨m, e⟩

/-- The nearest number to `n · 10 ^ power`, or none beyond the greatest.  From 310
digits before the point on it is beyond all numbers, and with 330 zeros after it
below all but zero. -/
def Binary.ofDecimal? (n : Nat) (power : Int) : Option Binary :=
  let point : Int := Int.ofNat (digits n).length + power
  if n = 0 ∨ point < -330 then some Binary.zero
  else if point > 309 then none
  else
    match power with
    | .ofNat k => Binary.nearest? (n * Nat.pow 10 k) 1
    | .negSucc k => Binary.nearest? n (Nat.pow 10 (k + 1))

/-- The number as a fraction of whole numbers. -/
def Binary.fraction (x : Binary) : Nat × Nat :=
  match x.exponent with
  | .ofNat k => (x.significand * Nat.pow 2 k, 1)
  | .negSucc k => (x.significand, Nat.pow 2 (k + 1))

/-- The rounded product. -/
def Binary.mul? (x y : Binary) : Option Binary :=
  let (a, b) := x.fraction
  let (c, d) := y.fraction
  Binary.nearest? (a * c) (b * d)

/-- The rounded quotient; the divisor is not zero. -/
def Binary.div? (x y : Binary) : Option Binary :=
  let (a, b) := x.fraction
  let (c, d) := y.fraction
  Binary.nearest? (a * d) (b * c)

/-! ## §2. From decimal parts

The whole number and the power of ten are rounded on their own and then once
more together, so the result may differ from the nearest number by a unit. -/

/-- The number nearest to a power of ten, for exponents up to 308. -/
def Binary.powerOfTen (k : Nat) : Binary :=
  (Binary.nearest? (Nat.pow 10 k) 1).getD Binary.zero

/-- Divides by `10 ^ k`, at most `10 ^ 308` at a time. -/
def Binary.shrink (x : Binary) (k steps : Nat) : Binary :=
  match steps with
  | 0 => Binary.zero
  | steps + 1 =>
    if x.significand = 0 then x
    else if k ≤ 308 then (x.div? (Binary.powerOfTen k)).getD Binary.zero
    else Binary.shrink ((x.div? (Binary.powerOfTen 308)).getD Binary.zero) (k - 308) steps

/-- `whole · 10 ^ power`, or none beyond the greatest number. -/
def Binary.ofParts? (whole : Nat) (power : Int) : Option Binary :=
  match Binary.nearest? whole 1 with
  | none => none
  | some x =>
    match power with
    | .ofNat k =>
      if k ≤ 308 then x.mul? (Binary.powerOfTen k)
      else if x.significand = 0 then some x
      else none
    | .negSucc k => some (x.shrink (k + 1) 8)

/-! ## §3. Shortest digits

The text of a number has the fewest digits that still read back as the number,
and of those the nearest. -/

/-- The decimal `d · 10 ^ k` reads back as `x`. -/
def Binary.readsBack (x : Binary) (d : Nat) (k : Int) : Bool :=
  match k with
  | .ofNat k => decide (Binary.nearest? (d * Nat.pow 10 k) 1 = some x)
  | .negSucc k => decide (Binary.nearest? d (Nat.pow 10 (k + 1)) = some x)

/-- The two decimals around `x` with last place `10 ^ k`, and whether the lower
one is the nearer; a tie goes to the even one. -/
def Binary.around (x : Binary) (k : Int) : Nat × Bool :=
  let (a, b) := x.fraction
  let (a, b) := match k with
    | .ofNat k => (a, b * Nat.pow 10 k)
    | .negSucc k => (a * Nat.pow 10 (k + 1), b)
  let q := a / b
  let r := a % b
  (q, decide (2 * r < b) || (decide (2 * r = b) && decide (q % 2 = 0)))

/-- The first place, from the coarsest on, at which a decimal reads back. -/
def Binary.shortestFrom (x : Binary) (k : Int) : Nat → Nat × Int
  | 0 => (x.around k |>.1, k)
  | places + 1 =>
    let (q, lower) := x.around k
    let near := if lower then q else q + 1
    let far := if lower then q + 1 else q
    if x.readsBack near k then (near, k)
    else if x.readsBack far k then (far, k)
    else x.shortestFrom (k - 1) places

/-- The power of ten of the leading digit of a number that is not zero. -/
def Binary.leadingPlace (x : Binary) : Int :=
  let (a, b) := x.fraction
  if b ≤ a then Int.ofNat (digits (a / b)).length - 1
  else
    -- the first power of ten that lifts the number to one or more
    let guess := (digits (b / a)).length - 1
    if Nat.pow 10 guess * a ≥ b then -Int.ofNat guess else -Int.ofNat (guess + 1)

/-- Digits and the power of ten of the last one. -/
def Binary.shortest (x : Binary) : Nat × Int :=
  x.shortestFrom (x.leadingPlace + 1) 19

/-- Trailing zeros moved into the power. -/
def trimZeros (d : Nat) (k : Int) : Nat → Nat × Int
  | 0 => (d, k)
  | steps + 1 => if d ≠ 0 ∧ d % 10 = 0 then trimZeros (d / 10) (k + 1) steps else (d, k)

/-- An exponent, never without a sign. -/
def exponentText (e : Int) : List Char :=
  if 0 ≤ e then 'e' :: '+' :: shown e else 'e' :: shown e

/-- The text of a number: positional from a hundred-thousandth up to sixteen
digits before the point, always with a digit after the point, otherwise with an
exponent. -/
def Binary.text (negative : Bool) (x : Binary) : String :=
  let sign := if negative then ['-'] else []
  if x.significand = 0 then String.ofList (sign ++ ['0', '.', '0'])
  else
    let (d, k) := x.shortest
    let (d, k) := trimZeros d k 20
    let ds := digits d
    let length : Int := Int.ofNat ds.length
    let point := length + k
    let body :=
      if 0 ≤ k ∧ point ≤ 16 then ds ++ List.replicate k.toNat '0' ++ ['.', '0']
      else if 0 < point ∧ point ≤ 16 then ds.take point.toNat ++ ['.'] ++ ds.drop point.toNat
      else if -5 < point ∧ point ≤ 0 then
        ['0', '.'] ++ List.replicate (-point).toNat '0' ++ ds
      else if ds.length = 1 then ds ++ exponentText (point - 1)
      else ds.take 1 ++ ['.'] ++ ds.drop 1 ++ exponentText (point - 1)
    String.ofList (sign ++ body)

end ListingMetadata.Number
