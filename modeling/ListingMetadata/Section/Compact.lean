/-
  ListingMetadata.Section.Compact
  ───────────────────────────────
  **SECTIONS IN COMPACT FORM.**

  A line of column names and a line for each record, the cells being ended by
  tabs; then the embedded sections of all records.  The columns are those of
  the first record.  Systems have a tag of their own in place of a line.
  Nothing is escaped.

      <METADATA-CLASS Resource="Property" Version="1.00.001" Date="...">
      <COLUMNS>	ClassName	StandardName	...	</COLUMNS>
      <DATA>	RES	ResidentialProperty	...	</DATA>
      ... embedded sections ...
      </METADATA-CLASS>
-/
import ListingMetadata.Section.Basic

namespace ListingMetadata

namespace Compact

/-! ## §1. Tags -/

/-- A blank, a name and a value between quotes. -/
def pair (name value : String) : List Char :=
  ' ' :: (name.toList ++ ['=', '"'] ++ value.toList ++ ['"'])

/-- The opening tag of a section. -/
def opening (kind : Kind) (c : Context) : List Char :=
  "<METADATA-".toList ++ kind.wireName.toList
    ++ (c.header kind).flatMap (fun (key, value) => pair key value)
    ++ pair "Version" c.version ++ pair "Date" c.dateText ++ ['>', '\n']

/-- The closing tag of a section. -/
def closing (kind : Kind) : List Char :=
  "</METADATA-".toList ++ kind.wireName.toList ++ ['>', '\n']

/-! ## §2. Lines -/

/-- A line of cells between tags, a tab before the first and after each. -/
def line (name : String) (cells : List String) : List Char :=
  ['<'] ++ name.toList ++ ['>', '\t'] ++ cells.flatMap (fun cell => cell.toList ++ ['\t'])
    ++ ['<', '/'] ++ name.toList ++ ['>', '\n']

/-- The columns of the first entity. -/
def columnsOf : List Head → List Column
  | [] => []
  | h :: _ => h.layout.layout.columns

/-- The line of column names and a line for each entity. -/
def table (c : Context) (heads : List Head) : List Char :=
  let columns := columnsOf heads
  line "COLUMNS" (columns.map Column.name)
    ++ heads.flatMap fun h => line "DATA" (columns.map (c.cell h))

/-! ## §3. Systems -/

/-- The tag of a system and its comments. -/
def systemTag (h : Head) : List Char :=
  "<SYSTEM".toList ++ pair "SystemID" ((h.text? "SystemID").getD "")
    ++ pair "SystemDescription" ((h.text? "SystemDescription").getD "")
    ++ (match h.text? "TimeZoneOffset" with
      | some zone => pair "TimeZoneOffset" zone
      | none => [])
    ++ ['/', '>', '\n']
    ++ (match h.text? "Comments" with
      | some comments => "<COMMENTS>".toList ++ comments.toList ++ "</COMMENTS>\n".toList
      | none => [])

/-- What stands in a section for its entities, embedded sections aside. -/
def rows (kind : Kind) (c : Context) (heads : List Head) : List Char :=
  if kind = .system then heads.flatMap systemTag else table c heads

end Compact

/-! ## §4. Sections -/

mutual

/-- A section in compact form. -/
def Section.compact : Section → List Char
  | .mk kind c records =>
    Compact.opening kind c ++ Compact.rows kind c (records.map Record.head)
      ++ compactEmbedded records ++ Compact.closing kind

/-- The sections embedded in a record. -/
def Record.compact : Record → List Char
  | .mk _ sections => compactSections sections

/-- The sections embedded in records. -/
def compactEmbedded : List Record → List Char
  | [] => []
  | r :: rs => r.compact ++ compactEmbedded rs

/-- Sections one after the other. -/
def compactSections : List Section → List Char
  | [] => []
  | s :: ss => s.compact ++ compactSections ss

end

end ListingMetadata
