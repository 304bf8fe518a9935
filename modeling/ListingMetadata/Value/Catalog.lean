/-
  ListingMetadata.Value.Catalog
  ─────────────────────────────
  **THE WELL-KNOWN VALUE TYPES.**

  The built-in columns take their types from this catalog.  No two entries
  are the same type, so a type has at most one catalog name.
-/
import ListingMetadata.Value.Grammar

namespace ListingMetadata.Catalog

/-! ## §1. Entries -/

/-- A type without bounds. -/
def unbounded (grammar : Grammar) (description : String) : ValueType :=
  ⟨grammar, 0, 0, description⟩

def alphanum : ValueType := unbounded .alphanum "Alpha Numeric."
def alphanum64 : ValueType := ⟨.alphanum, 1, 64, "Alpha Numeric, 1 to 64 characters."⟩
def alphanum32 : ValueType := ⟨.alphanum, 1, 32, "Alpha Numeric, 1 to 32 characters."⟩
def alphanum24 : ValueType := ⟨.alphanum, 1, 24, "Alpha Numeric, 1 to 24 characters."⟩
def alphanum10 : ValueType := ⟨.alphanum, 1, 10, "Alpha Numeric, 1 to 10 characters."⟩
def plaintext : ValueType := unbounded .plaintext "Any printable ASCII character."
def plaintext1024 : ValueType :=
  ⟨.plaintext, 1, 1024, "Any printable ASCII character, 1 to 1024 characters."⟩
def plaintext512 : ValueType :=
  ⟨.plaintext, 1, 512, "Any printable ASCII character, 1 to 512 characters."⟩
def plaintext128 : ValueType :=
  ⟨.plaintext, 1, 128, "Any printable ASCII character, 1 to 128 characters."⟩
def plaintext64 : ValueType :=
  ⟨.plaintext, 1, 64, "Any printable ASCII character, 1 to 64 characters."⟩
def plaintext32 : ValueType :=
  ⟨.plaintext, 1, 32, "Any printable ASCII character, 1 to 32 characters."⟩
def text : ValueType := unbounded .text "Any printable ASCII including CRLF, SP and HT."
def text1024 : ValueType := ⟨.text, 1, 1024, "Text, 1 to 1024 characters."⟩
def text512 : ValueType := ⟨.text, 1, 512, "Text, 1 to 512 characters."⟩
def text256 : ValueType := ⟨.text, 1, 256, "Text, 1 to 256 characters."⟩
def text128 : ValueType := ⟨.text, 1, 128, "Text, 1 to 128 characters."⟩
def text64 : ValueType := ⟨.text, 1, 64, "Text, 1 to 64 characters."⟩
def text32 : ValueType := ⟨.text, 1, 32, "Text, 1 to 32 characters."⟩
def boolean : ValueType := unbounded .boolean "0 for FALSE, 1 for TRUE."
def date : ValueType := unbounded .date "A Date/Timestamp in yyyy-mm-ddThh:mm:ssZ format."
def numeric : ValueType := unbounded .numeric "A positive or negative whole number."
def positive : ValueType := unbounded .positive "A positive whole number."
def version : ValueType := unbounded .version "A RETS version in MM.mm.rrrrr format."
def identifier64 : ValueType := ⟨.identifier, 1, 64, "Alpha Numeric including an underscore."⟩
def shortId : ValueType :=
  ⟨.alphanum, 1, 32, "A RETS identifier, alpha numeric, 1 to 32 characters."⟩
def timeZone : ValueType := unbounded .timeZone "Z for UTC, [+-]00:00 for offset to UTC."
def oneToFive : ValueType := ⟨.characters "12345,", 0, 10, "1,2,3,4,5 singly, or in combination."⟩
def expressionType : ValueType :=
  unbounded (.choice ["ACCEPT", "REJECT", "SET"]) "'ACCEPT' or 'REJECT' or 'SET'."

/-! ## §2. Names -/

/-- The entries by name. -/
def entries : List (String × ValueType) :=
  [("Alphanum", alphanum), ("Alphanum64", alphanum64), ("Alphanum32", alphanum32),
   ("Alphanum24", alphanum24), ("Alphanum10", alphanum10), ("Plaintext", plaintext),
   ("Plaintext1024", plaintext1024), ("Plaintext512", plaintext512),
   ("Plaintext128", plaintext128), ("Plaintext64", plaintext64), ("Plaintext32", plaintext32),
   ("Text", text), ("Text1024", text1024), ("Text512", text512), ("Text256", text256),
   ("Text128", text128), ("Text64", text64), ("Text32", text32), ("Boolean", boolean),
   ("Date", date), ("Numeric", numeric), ("PositiveNumeric", positive), ("Version", version),
   ("RetsName", identifier64), ("RetsId", shortId), ("TimeZoneOffset", timeZone),
   ("Attributes1to5", oneToFive), ("ExpressionType", expressionType)]

/-- The type of a catalog name. -/
def find? (name : String) : Option ValueType :=
  (entries.find? fun (n, _) => decide (n = name)).map Prod.snd

/-- The catalog name of a type. -/
def nameOf? (t : ValueType) : Option String :=
  (entries.find? fun (_, u) => decide (u = t)).map Prod.fst

/-- The catalog name of a type, or else the name of its grammar. -/
def label (t : ValueType) : String :=
  (nameOf? t).getD t.name

/-- Names and types are paired one to one. -/
theorem nameOf_find : ∀ e ∈ entries, nameOf? e.2 = some e.1 ∧ find? e.1 = some e.2 := by
  decide

end ListingMetadata.Catalog
