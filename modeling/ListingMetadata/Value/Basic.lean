/-
  ListingMetadata.Value.Basic
  ───────────────────────────
  **ATTRIBUTE VALUES.**

  A value belongs to one of four families.  Lenient reading may keep a text
  that does not follow its grammar, so an attribute declared as a number can
  still hold a text.
-/
import ListingMetadata.Calendar.Instant

namespace ListingMetadata

open Calendar Number

/-! ## §1. Families -/

/-- The families of values. -/
inductive Family where
  | text
  | integer
  | boolean
  | date
deriving DecidableEq, Repr

/-- The name of a family in messages. -/
def Family.name : Family → String
  | .text => "text"
  | .integer => "integer"
  | .boolean => "boolean"
  | .date => "date"

/-- The name of a family in documents. -/
def Family.tag : Family → String
  | .text => "Text"
  | .integer => "Int"
  | .boolean => "Bool"
  | .date => "Date"

/-! ## §2. Values -/

/-- A value of an attribute. -/
inductive Value where
  | text (s : String)
  | int (v : Int)
  | bool (b : Bool)
  | date (t : Instant)
deriving DecidableEq, Repr

/-- The family of a value. -/
def Value.family : Value → Family
  | .text _ => .text
  | .int _ => .integer
  | .bool _ => .boolean
  | .date _ => .date

/-- The text of a text value. -/
def Value.text? : Value → Option String
  | .text s => some s
  | _ => none

/-- The number of a number value. -/
def Value.int? : Value → Option Int
  | .int v => some v
  | _ => none

/-- The truth value of a truth value. -/
def Value.bool? : Value → Option Bool
  | .bool b => some b
  | _ => none

/-- The instant of a date value. -/
def Value.date? : Value → Option Instant
  | .date t => some t
  | _ => none

/-- A value with its family, for values that no grammar is declared for; texts
stand as they are. -/
def Value.labelled : Value → String
  | .text s => s
  | .int v => "Int(" ++ showInt v ++ ")"
  | .bool b => "Bool(" ++ (if b then "true" else "false") ++ ")"
  | .date t => "Date(" ++ t.fullText ++ ")"

end ListingMetadata
