/-
  ListingMetadata.Layout.Column
  ─────────────────────────────
  **DECLARED COLUMNS.**

  Every kind declares its attributes as a list of columns.  Its order is the
  order on the wire.
-/
import ListingMetadata.Value.Catalog

namespace ListingMetadata

/-- What stands in a column when the entity has no value for it. -/
inductive Stamp where
  | version
  | date
deriving DecidableEq, Repr

/-- A declared attribute. -/
structure Column where
  name : String
  type : ValueType
  required : Bool
  stamp : Option Stamp
deriving DecidableEq, Repr

namespace Column

/-- A column that may stay empty. -/
def optional (name : String) (type : ValueType) : Column :=
  ⟨name, type, false, none⟩

/-- A column that a complete entity fills. -/
def mandatory (name : String) (type : ValueType) : Column :=
  ⟨name, type, true, none⟩

/-- A column that falls back to the version of the output. -/
def versionStamp (name : String) : Column :=
  ⟨name, Catalog.version, false, some .version⟩

/-- A column that falls back to the date of the output. -/
def dateStamp (name : String) : Column :=
  ⟨name, Catalog.date, false, some .date⟩

end Column

end ListingMetadata
