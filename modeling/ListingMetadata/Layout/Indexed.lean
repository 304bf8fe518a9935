/-
  ListingMetadata.Layout.Indexed
  ──────────────────────────────
  **LAYOUTS WITH AN INDEX.**

  Looking a name up need not go through the columns: an index holds the place of each
  key.  A declaration that takes the place of an earlier one may spell the name in another
  way, but it has the same key, so the index stays as it is; a column is added along with
  its place:

      columns   ClassName  Title         index   classname ↦ 0,  title ↦ 1
                CLASSNAME  Title                 classname ↦ 0,  title ↦ 1
                CLASSNAME  Title  Note           classname ↦ 0,  title ↦ 1,  note ↦ 2
-/
import ListingMetadata.Layout.Basic
import ListingMetadata.Text.Named

namespace ListingMetadata.Layout

open Text

/-! ## §1. The type -/

/-- Columns with the places of their keys. -/
structure Indexed where
  kind : Kind
  strict : Bool
  columns : List Column
  places : Named Nat
deriving DecidableEq, Repr

namespace Indexed

/-- The layout without the index. -/
def forget (m : Indexed) : Layout :=
  ⟨m.kind, m.strict, m.columns⟩

/-! ## §2. Looking up -/

/-- The place of a name's key. -/
def place? (m : Indexed) (name : String) : Option Nat :=
  m.places.get? (nameKey m.strict name)

/-- The column at the place of a name's key. -/
def find? (m : Indexed) (name : String) : Option Column :=
  (m.place? name).bind fun i => m.columns[i]?

/-! ## §3. Declarations and other types -/

/-- No columns. -/
def empty (kind : Kind) (strict : Bool) : Indexed :=
  ⟨kind, strict, [], []⟩

/-- A column put at the place of its key, or at the end. -/
def insert (m : Indexed) (column : Column) : Indexed :=
  match m.place? column.name with
  | some i => { m with columns := m.columns.set i column }
  | none =>
    { m with
      columns := m.columns ++ [column]
      places := m.places.put (nameKey m.strict column.name) m.columns.length }

/-- Declarations put in turn. -/
def build (kind : Kind) (strict : Bool) (declarations : List Column) : Indexed :=
  declarations.foldl insert (empty kind strict)

/-- Another type for the column of a name, or a new column that may stay empty. -/
def replaceType (m : Indexed) (name : String) (type : ValueType) : Indexed :=
  match m.place? name with
  | some i => { m with columns := m.columns.modify i fun c => { c with type := type } }
  | none => m.insert (Column.optional name type)

end Indexed

end ListingMetadata.Layout
