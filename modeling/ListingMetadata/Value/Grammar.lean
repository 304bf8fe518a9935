/-
  ListingMetadata.Value.Grammar
  ─────────────────────────────
  **GRAMMARS AND VALUE TYPES.**

  A value type is a grammar with bounds on the number of characters and a
  description.  The bounds concern texts only, and an upper bound of 0 lifts
  both.  A reading that fails names its reason.
-/
import ListingMetadata.Calendar.Scan
import ListingMetadata.Text.Fold
import ListingMetadata.Text.Quoted
import ListingMetadata.Value.Basic

namespace ListingMetadata

open Calendar Number Text

/-! ## §1. Grammars -/

/-- What a value may look like. -/
inductive Grammar where
  /-- ASCII letters and digits. -/
  | alphanum
  /-- ASCII letters, digits and the underscore. -/
  | identifier
  /-- Printable ASCII. -/
  | plaintext
  /-- Printable ASCII, line breaks and tabs. -/
  | text
  /-- Characters out of a given set. -/
  | characters (allowed : String)
  /-- `0` or `1`. -/
  | boolean
  /-- An internet date. -/
  | date
  /-- A whole number. -/
  | numeric
  /-- A whole number of digits only. -/
  | positive
  /-- One of some texts. -/
  | choice (values : List String)
  /-- A version, `MM.mm.rrrrr`. -/
  | version
  /-- `Z`, or a sign, hours and minutes. -/
  | timeZone
deriving DecidableEq, Repr

/-- The name of a grammar. -/
def Grammar.name : Grammar → String
  | .alphanum => "ALPHANUM"
  | .identifier => "RETSNAME"
  | .plaintext => "PLAINTEXT"
  | .text => "TEXT"
  | .characters _ => "GENERICTEXT"
  | .boolean => "BOOLEAN"
  | .date => "DATE"
  | .numeric => "NUMERIC"
  | .positive => "POSITIVENUM"
  | .choice _ => "ENUM"
  | .version => "VERSION"
  | .timeZone => "TIMEZONEOFFSET"

/-- A character from the blank to the tilde. -/
def isPrintable (c : Char) : Bool :=
  decide (' ' ≤ c) && decide (c ≤ '~')

/-- The characters of the grammars that are defined by their characters. -/
def Grammar.allowed? : Grammar → Option (Char → Bool)
  | .alphanum => some Char.isAlphanum
  | .identifier => some fun c => c.isAlphanum || c == '_'
  | .plaintext => some isPrintable
  | .text => some fun c => isPrintable c || c == '\r' || c == '\n' || c == '\t'
  | .characters allowed => some fun c => allowed.toList.contains c
  | _ => none

/-! ## §2. Value types -/

/-- A grammar with bounds and a description. -/
structure ValueType where
  grammar : Grammar
  min : Nat
  max : Nat
  description : String
deriving DecidableEq, Repr

/-- The name of the grammar. -/
def ValueType.name (t : ValueType) : String :=
  t.grammar.name

/-- The family of the values that follow the grammar. -/
def ValueType.family (t : ValueType) : Family :=
  match t.grammar with
  | .boolean => .boolean
  | .date => .date
  | .numeric | .positive | .version => .integer
  | _ => .text

/-! ## §3. Reasons -/

/-- Why a text does not follow a grammar. -/
inductive Reason where
  | length (count min max : Nat)
  | character (c : Char)
  | notBit
  | date (fault : DateFault)
  | integer (fault : IntegerFault)
  | notDigits
  | notOneOf (values : List String)
  | versionForm
  | versionRange
  | zoneForm
deriving DecidableEq, Repr

/-- The wording of a reason. -/
def Reason.message : Reason → String
  | .length count min max =>
    "length " ++ showNat count ++ " outside " ++ showNat min ++ "..=" ++ showNat max
  | .character c => "invalid character " ++ quotedSingle c
  | .notBit => "expected 0 or 1"
  | .date fault => fault.message
  | .integer fault => fault.message
  | .notDigits => "expected digits only"
  | .notOneOf values => "expected one of " ++ joined ", " values
  | .versionForm => "expected MM.mm.rrrrr"
  | .versionRange => "version component out of range"
  | .zoneForm => "expected Z or [+-]HH:MM"

/-- A text that does not follow its grammar; the attribute is empty outside of
an entity. -/
structure ParseFault where
  attributeName : String
  grammar : String
  text : String
  reason : Reason
deriving DecidableEq, Repr

/-- The wording of a parse fault. -/
def ParseFault.message (f : ParseFault) : String :=
  "could not parse attribute '" ++ f.attributeName ++ "' value " ++ quoted f.text ++ " as "
    ++ f.grammar ++ ": " ++ f.reason.message

end ListingMetadata
