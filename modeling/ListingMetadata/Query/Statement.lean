/-
  ListingMetadata.Query.Statement
  ───────────────────────────────
  **CLAUSES AS SQL.**

  A clause writes a sequence of pieces: text of its own and literals.  A writer
  that binds puts a question mark in the text for a literal and keeps it as a
  parameter; one that inlines puts the literal in the text.  Every element of a
  composite stands in parentheses.
-/
import ListingMetadata.Query.Basic
import ListingMetadata.Text.Fold

namespace ListingMetadata.Query

open Number Text

/-! ## §1. Pieces -/

/-- A piece of a statement. -/
inductive Piece where
  | sql (s : String)
  | bound (v : Literal)
deriving DecidableEq, Repr

/-- A quote inside quotes is doubled. -/
def doubledQuote (c : Char) : List Char :=
  if c = '\'' then ['\'', '\''] else [c]

/-- A literal as it is inlined. -/
def Literal.shown : Literal → String
  | .bool b => if b then "true" else "false"
  | .int v => showInt v
  | .text s => String.ofList ('\'' :: (s.toList.flatMap doubledQuote ++ ['\'']))

/-! ## §2. Patterns -/

/-- A character that stands for itself in a pattern. -/
def escapedInPattern (c : Char) : List Char :=
  if c = '\\' ∨ c = '%' ∨ c = '_' then ['\\', c] else [c]

/-- A text that stands for itself in a pattern. -/
def escapedPattern (s : String) : List Char :=
  s.toList.flatMap escapedInPattern

/-- The pattern of the texts that start with a text. -/
def startPattern (start : String) : String :=
  String.ofList (escapedPattern start ++ ['%'])

/-- The pattern of the texts that contain a text. -/
def partPattern (part : String) : String :=
  String.ofList ('%' :: (escapedPattern part ++ ['%']))

/-- The pieces of a match with a pattern. -/
def likePieces (column pattern : String) : List Piece :=
  [.sql column, .sql " LIKE ", .bound (.text pattern), .sql " ESCAPE '\\'"]

/-! ## §3. The pieces of a clause -/

/-- Literals with commas between them. -/
def listPieces : List Literal → List Piece
  | [] => []
  | [v] => [.bound v]
  | v :: w :: vs => .bound v :: .sql ", " :: listPieces (w :: vs)

mutual

/-- The pieces of a clause. -/
def Clause.pieces : Clause → List Piece
  | .raw sql => [.sql sql]
  | .compare column op value =>
    [.sql column, .sql " ", .sql op.sign, .sql " ", .bound value]
  | .between column low high =>
    [.sql column, .sql " BETWEEN ", .bound low, .sql " AND ", .bound high]
  | .oneOf _ [] => [.sql "1 = 0"]
  | .oneOf column (v :: vs) =>
    [.sql column, .sql " IN ("] ++ listPieces (v :: vs) ++ [.sql ")"]
  | .startsWith column start => likePieces column (startPattern start)
  | .contains column part => likePieces column (partPattern part)
  | .isNull column => [.sql column, .sql " IS NULL"]
  | .not clause => .sql "NOT (" :: (clause.pieces ++ [.sql ")"])
  | .composite op elements => elementPieces op true elements

/-- The pieces of elements, each in parentheses and the keyword between them. -/
def elementPieces (op : Junction) (first : Bool) : List Clause → List Piece
  | [] => []
  | c :: cs =>
    (if first then [] else [.sql " ", .sql op.keyword, .sql " "])
      ++ [.sql "("] ++ c.pieces ++ [.sql ")"] ++ elementPieces op false cs

end

/-! ## §4. Statements -/

/-- A text with question marks, and what they stand for. -/
structure Statement where
  text : String
  params : List Literal
deriving DecidableEq, Repr

/-- What is written so far, and whether literals go into the text. -/
structure Writer where
  text : String
  params : List Literal
  inline : Bool
deriving DecidableEq, Repr

namespace Writer

/-- Nothing written, literals bound. -/
def binding : Writer :=
  ⟨"", [], false⟩

/-- Nothing written, literals inlined; only for reading, never to be run. -/
def inlining : Writer :=
  ⟨"", [], true⟩

/-- With more text. -/
def push (w : Writer) (sql : String) : Writer :=
  { w with text := w.text ++ sql }

/-- With a mark for a literal, or with the literal itself. -/
def bind (w : Writer) (v : Literal) : Writer :=
  if w.inline then w.push v.shown
  else { w.push "?" with params := w.params ++ [v] }

/-- With one more piece. -/
def put (w : Writer) : Piece → Writer
  | .sql s => w.push s
  | .bound v => w.bind v

/-- What was written. -/
def finish (w : Writer) : Statement :=
  ⟨w.text, w.params⟩

end Writer

/-- Pieces with literals bound. -/
def boundStatement (pieces : List Piece) : Statement :=
  (pieces.foldl Writer.put Writer.binding).finish

/-- Pieces with literals inlined. -/
def inlinedStatement (pieces : List Piece) : Statement :=
  (pieces.foldl Writer.put Writer.inlining).finish

/-- A clause with literals bound. -/
def Clause.statement (c : Clause) : Statement :=
  boundStatement c.pieces

/-- A clause with literals inlined; only for reading, never to be run. -/
def Clause.inlined (c : Clause) : String :=
  (inlinedStatement c.pieces).text

/-! ## §5. Clauses for the reader -/

mutual

/-- A composite by keyword and elements, any other clause inlined. -/
def Clause.shown : Clause → String
  | .composite op elements => op.keyword ++ "[" ++ joined ", " (shownAll elements) ++ "]"
  | c => c.inlined

/-- Clauses for the reader, one by one. -/
def shownAll : List Clause → List String
  | [] => []
  | c :: cs => c.shown :: shownAll cs

end

example : (Clause.bothOf (.raw "A") (.oneOf "c" [])).statement = ⟨"(A) AND (1 = 0)", []⟩ := by
  decide

end ListingMetadata.Query
