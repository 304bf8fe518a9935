/-
  ListingMetadata.Json.Fault
  ──────────────────────────
  **WHY A JSON TEXT IS REFUSED.**

  A text can end too early, break the rules of JSON, or be well formed and not
  hold what is asked for.  Faults of the last kind have a wording of their own
  for each cause.
-/
import ListingMetadata.Calendar.Scan
import ListingMetadata.Json.Tree
import ListingMetadata.Text.Fold
import ListingMetadata.Text.Quoted

namespace ListingMetadata.Json

open ListingMetadata.Number ListingMetadata.Text ListingMetadata.Calendar

/-! ## §1. Causes -/

/-- Inside what the text ends. -/
inductive Open where
  | list
  | object
  | text
  | value
deriving DecidableEq, Repr

/-- What breaks the rules of JSON. -/
inductive Malformation where
  | noColon
  | noListSeparator
  | noObjectSeparator
  | noWord
  | noValue
  | badEscape
  | badNumber
  | numberOutOfRange
  | rawControl
  | keyNotText
  | loneSurrogate
  | trailingComma
  | trailingText
  | halfEscape
  | tooDeep
deriving DecidableEq, Repr

/-- What was found where something else is expected. -/
inductive Found where
  | null
  | bool (b : Bool)
  | whole (v : Int)
  | fraction (negative : Bool) (size : Binary)
  | text (s : String)
  | list
  | object
  | bareVariant
deriving DecidableEq, Repr

/-- A well-formed text that does not hold what is asked for. -/
inductive Mismatch where
  | missingField (name : String)
  | duplicateField (name : String)
  | unknownVariant (given : String) (expected : List String)
  | wrongType (found : Found) (expected : String)
  | wrongValue (found : Found) (expected : String)
  | wrongLength (length : Nat) (expected : String)
  | noAlternative (of : String)
  | badDate (fault : DateFault)
deriving DecidableEq, Repr

/-- Why a text is refused. -/
inductive Fault where
  | ended (inside : Open)
  | malformed (cause : Malformation)
  | mismatched (cause : Mismatch)
deriving DecidableEq, Repr

/-- The three ways to be refused. -/
inductive Category where
  | eof
  | syntactic
  | data
deriving DecidableEq, Repr

/-- The way in which a fault refuses a text. -/
def Fault.category : Fault → Category
  | .ended _ => .eof
  | .malformed _ => .syntactic
  | .mismatched _ => .data

/-! ## §2. Wording -/

/-- A name between grave accents. -/
def ticked (s : String) : String :=
  "`" ++ s ++ "`"

/-- How an unexpected value is shown. -/
def Found.shown : Found → String
  | .null => "null"
  | .bool b => "boolean " ++ ticked (if b then "true" else "false")
  | .whole v => "integer " ++ ticked (showInt v)
  | .fraction negative size => "floating point " ++ ticked (size.text negative)
  | .text s => "string " ++ quoted s
  | .list => "sequence"
  | .object => "map"
  | .bareVariant => "unit variant"

/-- The names that would have been right. -/
def oneOf : List String → String
  | [] => "there are no variants"
  | [a] => "expected " ++ ticked a
  | [a, b] => "expected " ++ ticked a ++ " or " ++ ticked b
  | names => "expected one of " ++ joined ", " (names.map ticked)

/-- The wording of a mismatch. -/
def Mismatch.message : Mismatch → String
  | .missingField name => "missing field " ++ ticked name
  | .duplicateField name => "duplicate field " ++ ticked name
  | .unknownVariant given expected => "unknown variant " ++ ticked given ++ ", " ++ oneOf expected
  | .wrongType found expected => "invalid type: " ++ found.shown ++ ", expected " ++ expected
  | .wrongValue found expected => "invalid value: " ++ found.shown ++ ", expected " ++ expected
  | .wrongLength length expected => "invalid length " ++ showNat length ++ ", expected " ++ expected
  | .noAlternative of => "data did not match any variant of untagged enum " ++ of
  | .badDate fault => fault.message

/-- The wording of an early end. -/
def Open.message : Open → String
  | .list => "EOF while parsing a list"
  | .object => "EOF while parsing an object"
  | .text => "EOF while parsing a string"
  | .value => "EOF while parsing a value"

/-- The wording of a broken rule. -/
def Malformation.message : Malformation → String
  | .noColon => "expected `:`"
  | .noListSeparator => "expected `,` or `]`"
  | .noObjectSeparator => "expected `,` or `\x7d`"
  | .noWord => "expected ident"
  | .noValue => "expected value"
  | .badEscape => "invalid escape"
  | .badNumber => "invalid number"
  | .numberOutOfRange => "number out of range"
  | .rawControl => "control character (\\u0000-\\u001F) found while parsing a string"
  | .keyNotText => "key must be a string"
  | .loneSurrogate => "lone leading surrogate in hex escape"
  | .trailingComma => "trailing comma"
  | .trailingText => "trailing characters"
  | .halfEscape => "unexpected end of hex escape"
  | .tooDeep => "recursion limit exceeded"

/-- The wording of a fault. -/
def Fault.message : Fault → String
  | .ended inside => inside.message
  | .malformed cause => cause.message
  | .mismatched cause => cause.message

end ListingMetadata.Json
