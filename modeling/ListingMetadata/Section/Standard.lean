/-
  ListingMetadata.Section.Standard
  ────────────────────────────────
  **SECTIONS AS XML.**

  An element for each record, holding an element for each of its columns and
  then the sections embedded in it.  Values are escaped, so none of them can
  open or close a tag.
-/
import ListingMetadata.Section.Compact

namespace ListingMetadata

namespace Standard

/-! ## §1. Escapes -/

/-- What stands for a character. -/
def escapedChar (c : Char) : List Char :=
  if c = '&' then ['&', 'a', 'm', 'p', ';']
  else if c = '<' then ['&', 'l', 't', ';']
  else if c = '>' then ['&', 'g', 't', ';']
  else if c = '"' then ['&', 'q', 'u', 'o', 't', ';']
  else if c = '\'' then ['&', 'a', 'p', 'o', 's', ';']
  else [c]

/-- A text without characters that have a meaning in XML. -/
def escaped (s : String) : List Char :=
  s.toList.flatMap escapedChar

/-! ## §2. Tags -/

/-- A blank, a name and an escaped value between quotes. -/
def pair (name value : String) : List Char :=
  ' ' :: (name.toList ++ ['=', '"'] ++ escaped value ++ ['"'])

/-- The opening tag of a section. -/
def opening (kind : Kind) (c : Context) : List Char :=
  "<METADATA-".toList ++ kind.wireName.toList
    ++ (c.header kind).flatMap (fun (key, value) => pair key value)
    ++ pair "Version" c.version ++ Compact.pair "Date" c.dateText ++ ['>', '\n']

/-- An opening tag on a line. -/
def openTag (name : String) : List Char :=
  '<' :: (name.toList ++ ['>'])

/-- A closing tag. -/
def closeTag (name : String) : List Char :=
  ['<', '/'] ++ name.toList ++ ['>']

/-- The element of a column. -/
def cellElement (c : Context) (h : Head) (column : Column) : List Char :=
  openTag column.name ++ escaped (c.cell h column) ++ closeTag column.name ++ ['\n']

/-- The elements of an entity's columns. -/
def cells (c : Context) (h : Head) : List Char :=
  h.layout.layout.columns.flatMap (cellElement c h)

end Standard

/-! ## §3. Sections -/

mutual

/-- A section as XML. -/
def Section.standard : Section → List Char
  | .mk kind c records =>
    Standard.opening kind c ++ standardRecords kind c records ++ Compact.closing kind

/-- The element of a record. -/
def Record.standard (kind : Kind) (c : Context) : Record → List Char
  | .mk h sections =>
    Standard.openTag kind.elementName ++ ['\n'] ++ Standard.cells c h
      ++ standardSections sections ++ Standard.closeTag kind.elementName ++ ['\n']

/-- The elements of records. -/
def standardRecords (kind : Kind) (c : Context) : List Record → List Char
  | [] => []
  | r :: rs => r.standard kind c ++ standardRecords kind c rs

/-- Sections one after the other. -/
def standardSections : List Section → List Char
  | [] => []
  | s :: ss => s.standard ++ standardSections ss

end

/-! ## §4. Either form -/

/-- A section in a mode. -/
def Section.text (mode : Mode) (s : Section) : List Char :=
  match mode with
  | .compact => s.compact
  | .standard => s.standard

/-- The entities of a kind as a section; nothing if there are none. -/
def format (kind : Kind) (mode : Mode) (context : Context) (entities : List Entity) : String :=
  match Section.of? kind context entities with
  | some s => String.ofList (s.text mode)
  | none => ""

end ListingMetadata
