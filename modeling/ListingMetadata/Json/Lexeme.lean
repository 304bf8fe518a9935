/-
  ListingMetadata.Json.Lexeme
  ───────────────────────────
  **TEXTS AND NUMBERS WITHIN A JSON TEXT.**

  A quoted text or a number can be read for its value or merely passed over.
  Passing over is more tolerant: it does not look at surrogates or sizes.  A
  lexeme records both outcomes, and each reader asks for the one it needs.
-/
import ListingMetadata.Json.Fault
import ListingMetadata.Text.Bytes

namespace ListingMetadata.Json

open ListingMetadata.Number

/-! ## §1. Lexemes -/

/-- A quoted text or a number: its value, and the fault of passing over it. -/
structure Lexeme (α : Type) where
  value : Except Fault α
  skipped : Option Fault

/-- A number: whole if it has neither point nor exponent and fits 64 bits. -/
inductive Amount where
  | whole (v : Int)
  | fraction (negative : Bool) (size : Binary)
deriving DecidableEq, Repr

/-! ## §2. Quoted texts -/

/-- The value of four hexadecimal digits. -/
def hexQuad? (a b c d : Char) : Option Nat := do
  let w ← hexValue? a
  let x ← hexValue? b
  let y ← hexValue? c
  let z ← hexValue? d
  some (((w * 16 + x) * 16 + y) * 16 + z)

/-- The fault of an escape whose four digits are not there: the text ends if
fewer than four bytes are left. -/
def quadFault (rest : List Char) : Fault :=
  if Text.byteLength (rest.take 4) < 4 then .ended .text else .malformed .badEscape

/-- The character of a one-letter escape. -/
def plainEscape? (c : Char) : Option Char :=
  if c = '"' ∨ c = '\\' ∨ c = '/' then some c
  else if c = 'b' then some (Char.ofNat 8)
  else if c = 'f' then some (Char.ofNat 12)
  else if c = 'n' then some '\n'
  else if c = 'r' then some '\r'
  else if c = 't' then some '\t'
  else none

/-- The code point of a pair of surrogates. -/
def joinSurrogates (hi lo : Nat) : Nat :=
  (hi - 0xD800) * 0x400 + (lo - 0xDC00) + 0x10000

/-- A leading surrogate. -/
def isLeading (n : Nat) : Bool := decide (0xD800 ≤ n) && decide (n ≤ 0xDBFF)

/-- A trailing surrogate. -/
def isTrailing (n : Nat) : Bool := decide (0xDC00 ≤ n) && decide (n ≤ 0xDFFF)

/-- The fault after a leading surrogate that is not followed by an escape. -/
def halfFault : List Char → Fault
  | [] => .ended .text
  | ['\\'] => .ended .text
  | _ => .malformed .halfEscape

/-- A character in front of the text read so far. -/
def withChar (c : Char) (r : Except Fault (List Char × List Char)) :
    Except Fault (List Char × List Char) :=
  r.map fun (cs, rest) => (c :: cs, rest)

/-- The text up to the closing quote, and what follows it. -/
def readText : List Char → Except Fault (List Char × List Char)
  | [] => .error (.ended .text)
  | '"' :: rest => .ok ([], rest)
  | ['\\'] => .error (.ended .text)
  | '\\' :: 'u' :: a :: b :: c :: d :: rest =>
    match hexQuad? a b c d with
    | none => .error (quadFault (a :: b :: c :: d :: rest))
    | some n =>
      if isTrailing n then .error (.malformed .loneSurrogate)
      else if isLeading n then
        match rest with
        | '\\' :: 'u' :: e :: f :: g :: h :: rest' =>
          match hexQuad? e f g h with
          | none => .error (quadFault (e :: f :: g :: h :: rest'))
          | some m =>
            if isTrailing m then withChar (Char.ofNat (joinSurrogates n m)) (readText rest')
            else .error (.malformed .loneSurrogate)
        | '\\' :: 'u' :: rest' => .error (quadFault rest')
        | rest' => .error (halfFault rest')
      else withChar (Char.ofNat n) (readText rest)
  | '\\' :: 'u' :: rest => .error (quadFault rest)
  | '\\' :: e :: rest =>
    match plainEscape? e with
    | some c => withChar c (readText rest)
    | none => .error (.malformed .badEscape)
  | c :: rest =>
    if c.toNat < 32 then .error (.malformed .rawControl)
    else withChar c (readText rest)

/-- What follows the closing quote, without a look at surrogates. -/
def skipText : List Char → Except Fault (List Char)
  | [] => .error (.ended .text)
  | '"' :: rest => .ok rest
  | ['\\'] => .error (.ended .text)
  | '\\' :: 'u' :: a :: b :: c :: d :: rest =>
    match hexQuad? a b c d with
    | none => .error (quadFault (a :: b :: c :: d :: rest))
    | some _ => skipText rest
  | '\\' :: 'u' :: rest => .error (quadFault rest)
  | '\\' :: e :: rest =>
    match plainEscape? e with
    | some _ => skipText rest
    | none => .error (.malformed .badEscape)
  | c :: rest =>
    if c.toNat < 32 then .error (.malformed .rawControl)
    else skipText rest

/-- The lexeme after an opening quote, and what follows it if it can be passed. -/
def textLexeme (cs : List Char) : Lexeme String × Option (List Char) :=
  let value := (readText cs).map fun (s, _) => String.ofList s
  match skipText cs with
  | .ok rest => (⟨value, none⟩, some rest)
  | .error f => (⟨value, some f⟩, none)

/-! ## §3. Numbers -/

/-- The parts of a number as written, as far as it goes. -/
structure NumberText where
  whole : List Char
  places : List Char
  exponentNegative : Bool
  exponent : List Char
  hasPoint : Bool
  hasExponent : Bool

/-- Where the text of a number breaks off. -/
inductive NumberBreak where
  /-- The text ends. -/
  | ended
  /-- A character that cannot go on. -/
  | wrong
deriving DecidableEq, Repr

/-- What stops a number that lacks a digit before `rest`. -/
def breakAt : List Char → NumberBreak
  | [] => .ended
  | _ => .wrong

/-- The exponent after its letter. -/
def scanExponent (whole places : List Char) (hasPoint : Bool) (cs : List Char) :
    Except NumberBreak (NumberText × List Char) :=
  let (negative, cs) := match cs with
    | '+' :: cs => (false, cs)
    | '-' :: cs => (true, cs)
    | cs => (false, cs)
  let ds := cs.takeWhile Char.isDigit
  if ds = [] then .error (breakAt cs)
  else .ok (⟨whole, places, negative, ds, hasPoint, true⟩, cs.dropWhile Char.isDigit)

/-- The exponent, if its letter follows. -/
def scanTail (whole places : List Char) (hasPoint : Bool) :
    List Char → Except NumberBreak (NumberText × List Char)
  | 'e' :: cs => scanExponent whole places hasPoint cs
  | 'E' :: cs => scanExponent whole places hasPoint cs
  | cs => .ok (⟨whole, places, false, [], hasPoint, false⟩, cs)

/-- A number after its sign: no leading zeros, a digit on both sides of the
point, a digit in the exponent. -/
def scanNumberText (cs : List Char) : Except NumberBreak (NumberText × List Char) :=
  let ds := cs.takeWhile Char.isDigit
  let rest := cs.dropWhile Char.isDigit
  match ds with
  | [] => .error (breakAt cs)
  | '0' :: _ :: _ => .error .wrong
  | ds =>
    match rest with
    | '.' :: rest =>
      let places := rest.takeWhile Char.isDigit
      if places = [] then .error (breakAt rest)
      else scanTail ds places true (rest.dropWhile Char.isDigit)
    | rest => scanTail ds [] false rest

/-- The number of leading digits that fit 64 bits, and their value. -/
def fittingDigits (acc count : Nat) : List Char → Nat × Nat
  | [] => (acc, count)
  | c :: cs =>
    let next := acc * 10 + (c.toNat - 48)
    if next ≤ maxNat then fittingDigits next (count + 1) cs else (acc, count)

/-- The greatest exponent that is counted. -/
def maxPower : Nat := 2147483647

/-- The value of a number with a point, an exponent or too many digits.  Digits
that do not fit 64 bits are dropped. -/
def NumberText.binary? (t : NumberText) : Option Binary :=
  let (leading, used) := fittingDigits 0 0 t.whole
  let lost := t.whole.length - used
  let (size, usedPlaces) := fittingDigits leading 0 t.places
  let power : Int := Int.ofNat lost - Int.ofNat usedPlaces
  let e := digitsValue t.exponent
  if e > maxPower then
    if size = 0 ∨ t.exponentNegative then some Binary.zero else none
  else Binary.ofParts? size (if t.exponentNegative then power - Int.ofNat e else power + Int.ofNat e)

/-- The value of a number as written after its sign. -/
def NumberText.amount (negative : Bool) (t : NumberText) : Except Fault Amount :=
  let fraction : Except Fault Amount :=
    match t.binary? with
    | some size => .ok (.fraction negative size)
    | none => .error (.malformed .numberOutOfRange)
  if t.hasPoint ∨ t.hasExponent then fraction
  else
    let n := digitsValue t.whole
    if n > maxNat then fraction
    else if negative = false then .ok (.whole n)
    else if n = 0 ∨ n > maxInt + 1 then fraction
    else .ok (.whole (-(n : Int)))

/-- The lexeme of a number after its sign, and what follows it. -/
def numberLexeme (negative : Bool) (cs : List Char) : Lexeme Amount × Option (List Char) :=
  match scanNumberText cs with
  | .ok (t, rest) => (⟨t.amount negative, none⟩, some rest)
  | .error .ended => (⟨.error (.ended .value), some (.malformed .badNumber)⟩, none)
  | .error .wrong => (⟨.error (.malformed .badNumber), some (.malformed .badNumber)⟩, none)

end ListingMetadata.Json
