/-
  ListingMetadata.Layout.Basic
  ────────────────────────────
  **LAYOUTS: COLUMNS BY NAME.**

  A layout holds the columns of a kind, no two of one name.  Strict layouts
  tell names apart exactly, lenient ones without regard to ASCII case.  A
  column declared again takes the place of the earlier one.
-/
import ListingMetadata.Kind.Columns

namespace ListingMetadata

open Text

/-! ## §1. The type -/

/-- The columns of a kind by name. -/
structure Layout where
  kind : Kind
  strict : Bool
  columns : List Column
deriving DecidableEq, Repr

/-- The form in which a layout compares names. -/
def nameKey (strict : Bool) (name : String) : String :=
  if strict then name else lowered name

/-- The first column of a name's key replaced, or else the column appended. -/
def placeColumn (strict : Bool) (column : Column) : List Column → List Column
  | [] => [column]
  | c :: cs =>
    if nameKey strict c.name = nameKey strict column.name then column :: cs
    else c :: placeColumn strict column cs

namespace Layout

/-- The layout of declarations, a later one in the place of an earlier one. -/
def build (kind : Kind) (strict : Bool) (declarations : List Column) : Layout :=
  ⟨kind, strict, declarations.foldl (fun cs c => placeColumn strict c cs) []⟩

/-- The layout of the columns that the kind declares on its own. -/
def builtin (kind : Kind) (strict : Bool) : Layout :=
  build kind strict kind.builtinColumns

/-! ## §2. Looking up -/

/-- The column of a name. -/
def find? (l : Layout) (name : String) : Option Column :=
  l.columns.find? fun c => decide (nameKey l.strict c.name = nameKey l.strict name)

/-- The name is declared. -/
def declares (l : Layout) (name : String) : Bool :=
  (l.find? name).isSome

/-- The declared names in wire order. -/
def names (l : Layout) : List String :=
  l.columns.map Column.name

/-! ## §3. Another type for a name -/

/-- The first column of a name's key with another type, or else a new column
that may stay empty. -/
def retype (strict : Bool) (name : String) (type : ValueType) : List Column → List Column
  | [] => [Column.optional name type]
  | c :: cs =>
    if nameKey strict c.name = nameKey strict name then { c with type := type } :: cs
    else c :: retype strict name type cs

/-- The layout with another type for a name. -/
def replaceType (l : Layout) (name : String) (type : ValueType) : Layout :=
  { l with columns := retype l.strict name type l.columns }

/-- The type of a name. -/
def typeOf? (l : Layout) (name : String) : Option ValueType :=
  (l.find? name).map Column.type

end Layout

end ListingMetadata
