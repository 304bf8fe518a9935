/-
  ListingMetadata.Proofs.Query.Parts
  ──────────────────────────────────
  **WHAT A CLAUSE IS MADE OF.**

  A clause has operands, those of its operands among them, and texts of its
  own, which are raw clauses and columns.  All else in its SQL is fixed by its
  shape:

    • `Clause.induct`              — induction over a clause,
    • `sql_not`, `sql_composite` … — the SQL of a clause from that of its parts,
    • `Clause.inductSql`           — induction over a clause by its SQL: most
      clauses are one of their texts with a text behind it that is fixed.
-/
import ListingMetadata.Proofs.Query.Writing
import ListingMetadata.Proofs.Text.Parentheses

namespace ListingMetadata.Query

open Text

/-- What holds of the pieces and of what stands between them holds of all together,
if it can be put together. -/
theorem intercalate_induct {P : List Char → Prop} (nil : P [])
    (append : ∀ {s t}, P s → P t → P (s ++ t)) {separator : List Char} (hs : P separator)
    {ts : List (List Char)} (h : ∀ t ∈ ts, P t) : P (separator.intercalate ts) := by
  induction ts with
  | nil => exact nil
  | cons t ts ih =>
    have ht := h t List.mem_cons_self
    cases ts with
    | nil =>
      rw [List.intercalate_singleton]
      exact ht
    | cons u us =>
      rw [List.intercalate_cons_cons]
      exact append (append ht hs) (ih fun v hv => h v (List.mem_cons_of_mem _ hv))

namespace Clause

/-! ## §1. Parts -/

mutual

/-- The clauses that a clause combines, and in turn those that they combine. -/
def operands : Clause → List Clause
  | not c => c :: c.operands
  | composite _ cs => operandsAll cs
  | _ => []

/-- Clauses and all their operands. -/
def operandsAll : List Clause → List Clause
  | [] => []
  | c :: cs => c :: (c.operands ++ operandsAll cs)

end

mutual

/-- The raw clauses and columns of a clause. -/
def texts : Clause → List String
  | raw sql => [sql]
  | compare column _ _ => [column]
  | between column _ _ => [column]
  | oneOf column _ => [column]
  | startsWith column _ => [column]
  | contains column _ => [column]
  | isNull column => [column]
  | not c => c.texts
  | composite _ cs => textsAll cs

/-- The raw clauses and columns of clauses. -/
def textsAll : List Clause → List String
  | [] => []
  | c :: cs => c.texts ++ textsAll cs

end

theorem operandsAll_eq (cs : List Clause) : operandsAll cs = cs.flatMap fun c => c :: c.operands := by
  induction cs with
  | nil => rfl
  | cons c cs ih =>
    show c :: (c.operands ++ operandsAll cs) = _
    rw [ih]
    rfl

theorem textsAll_eq (cs : List Clause) : textsAll cs = cs.flatMap texts := by
  induction cs with
  | nil => rfl
  | cons c cs ih =>
    show c.texts ++ textsAll cs = _
    rw [ih]
    rfl

theorem mem_operands_composite {op : Junction} {cs : List Clause} {d : Clause} :
    d ∈ (composite op cs).operands ↔ ∃ c ∈ cs, d = c ∨ d ∈ c.operands := by
  show d ∈ operandsAll cs ↔ _
  rw [operandsAll_eq, List.mem_flatMap]
  simp only [List.mem_cons]

theorem mem_texts_composite {op : Junction} {cs : List Clause} {s : String} :
    s ∈ (composite op cs).texts ↔ ∃ c ∈ cs, s ∈ c.texts := by
  show s ∈ textsAll cs ↔ _
  rw [textsAll_eq, List.mem_flatMap]

/-! ## §2. Induction over a clause -/

/-- What holds of a clause when it holds of the clauses that it combines holds
of every clause. -/
theorem induct {P : Clause → Prop} (raw : ∀ sql, P (raw sql))
    (compare : ∀ column op value, P (compare column op value))
    (between : ∀ column low high, P (between column low high))
    (oneOf : ∀ column values, P (oneOf column values))
    (startsWith : ∀ column start, P (startsWith column start))
    (contains : ∀ column part, P (contains column part))
    (isNull : ∀ column, P (isNull column)) (not : ∀ c, P c → P (not c))
    (composite : ∀ op cs, (∀ c ∈ cs, P c) → P (composite op cs)) (c : Clause) : P c := by
  cases c with
  | raw sql => exact raw sql
  | compare column op value => exact compare column op value
  | between column low high => exact between column low high
  | oneOf column values => exact oneOf column values
  | startsWith column start => exact startsWith column start
  | contains column part => exact contains column part
  | isNull column => exact isNull column
  | not c =>
    exact not c (induct raw compare between oneOf startsWith contains isNull not composite c)
  | composite op cs =>
    exact composite op cs fun c _ =>
      induct raw compare between oneOf startsWith contains isNull not composite c

/-- The operands of a clause have no texts but those of the clause. -/
theorem texts_operands (c : Clause) : ∀ d ∈ c.operands, d.texts ⊆ c.texts := by
  induction c using induct with
  | not c ih =>
    intro d hd
    rcases List.mem_cons.mp hd with rfl | hd
    · exact List.Subset.refl _
    · exact ih d hd
  | composite op cs ih =>
    intro d hd s hs
    obtain ⟨c, hc, hd⟩ := mem_operands_composite.mp hd
    rw [mem_texts_composite]
    rcases hd with rfl | hd
    · exact ⟨d, hc, hs⟩
    · exact ⟨c, hc, ih c hc d hd hs⟩
  | _ =>
    intro d hd
    cases hd

/-! ## §3. SQL by parts -/

/-- The SQL of a clause, its literals bound. -/
def sql (c : Clause) : List Char :=
  c.pieces.flatMap Piece.marked

theorem toList_statement (c : Clause) : c.statement.text.toList = c.sql :=
  toList_boundStatement c.pieces

theorem sql_compare (column : String) (op : Comparison) (value : Literal) :
    (compare column op value).sql = column.toList ++ ' ' :: (op.sign.toList ++ [' ', '?']) :=
  rfl

theorem sql_between (column : String) (low high : Literal) :
    (between column low high).sql = column.toList ++ " BETWEEN ? AND ?".toList :=
  rfl

theorem sql_startsWith (column start : String) :
    (startsWith column start).sql = column.toList ++ " LIKE ? ESCAPE '\\'".toList :=
  rfl

theorem sql_contains (column part : String) :
    (contains column part).sql = column.toList ++ " LIKE ? ESCAPE '\\'".toList :=
  rfl

theorem sql_isNull (column : String) : (isNull column).sql = column.toList ++ " IS NULL".toList :=
  rfl

theorem sql_oneOf_nil (column : String) : (oneOf column []).sql = "1 = 0".toList :=
  rfl

/-- Question marks for literals, with commas between them. -/
def markList : List Literal → List Char
  | [] => []
  | [_] => ['?']
  | _ :: w :: vs => ['?', ',', ' '] ++ markList (w :: vs)

theorem marked_listPieces (vs : List Literal) :
    (listPieces vs).flatMap Piece.marked = markList vs := by
  induction vs with
  | nil => rfl
  | cons v vs ih =>
    cases vs with
    | nil => rfl
    | cons w vs =>
      show ['?'] ++ (", ".toList ++ (listPieces (w :: vs)).flatMap Piece.marked) = _
      rw [ih]
      rfl

theorem sql_oneOf (column : String) (v : Literal) (vs : List Literal) :
    (oneOf column (v :: vs)).sql
      = column.toList ++ (" IN ".toList ++ '(' :: (markList (v :: vs) ++ [')'])) := by
  show ([Piece.sql column, Piece.sql " IN ("] ++ listPieces (v :: vs)
    ++ [Piece.sql ")"]).flatMap Piece.marked = _
  rw [List.flatMap_append, List.flatMap_append, marked_listPieces]
  simp [Piece.marked]

theorem sql_not (c : Clause) : (not c).sql = "NOT ".toList ++ '(' :: (c.sql ++ [')']) := by
  show (Piece.sql "NOT (" :: (c.pieces ++ [Piece.sql ")"])).flatMap Piece.marked = _
  rw [List.flatMap_cons, List.flatMap_append]
  rfl

/-- A clause in parentheses. -/
def grouped (c : Clause) : List Char :=
  '(' :: (c.sql ++ [')'])

end Clause

/-- What stands between two elements of a composite. -/
def Junction.separator (op : Junction) : List Char :=
  ' ' :: (op.keyword.toList ++ [' '])

example : Junction.and.separator = " AND ".toList ∧ Junction.or.separator = " OR ".toList := by
  decide

namespace Clause

theorem marked_elementPieces (op : Junction) (c : Clause) (cs : List Clause) :
    (elementPieces op true (c :: cs)).flatMap Piece.marked
      = c.grouped ++ (elementPieces op false cs).flatMap Piece.marked := by
  show ([] ++ [Piece.sql "("] ++ c.pieces ++ [Piece.sql ")"]
    ++ elementPieces op false cs).flatMap Piece.marked = _
  rw [List.flatMap_append, List.flatMap_append]
  rfl

/-- **Elements stand in parentheses each, the keyword between them.** -/
theorem sql_composite (op : Junction) (cs : List Clause) :
    (composite op cs).sql = op.separator.intercalate (cs.map grouped) := by
  show (elementPieces op true cs).flatMap Piece.marked = _
  cases cs with
  | nil => rfl
  | cons c cs =>
    induction cs generalizing c with
    | nil =>
      rw [marked_elementPieces, List.map_singleton, List.intercalate_singleton]
      exact List.append_nil c.grouped
    | cons d ds ih =>
      -- all elements but the first have the separator before them
      have hfirst : (elementPieces op false (d :: ds)).flatMap Piece.marked
          = op.separator ++ (elementPieces op true (d :: ds)).flatMap Piece.marked := by
        show ([Piece.sql " ", Piece.sql op.keyword, Piece.sql " "] ++ [Piece.sql "("] ++ d.pieces
          ++ [Piece.sql ")"] ++ elementPieces op false ds).flatMap Piece.marked = _
        rw [marked_elementPieces, List.flatMap_append, List.flatMap_append]
        simp [Piece.marked, grouped, sql, Junction.separator]
      rw [marked_elementPieces, hfirst, ih d, List.map_cons, List.map_cons, List.map_cons,
        List.intercalate_cons_cons, List.append_assoc]

end Clause

/-! ## §4. Induction by SQL -/

theorem Junction.unbracketed_separator (op : Junction) : Unbracketed op.separator := by
  cases op <;> decide

namespace Clause

theorem unbracketed_markList (vs : List Literal) : Unbracketed (markList vs) := by
  induction vs with
  | nil => decide
  | cons v vs ih =>
    cases vs with
    | nil => exact (by decide : Unbracketed ['?'])
    | cons w vs =>
      have hmark : Unbracketed ['?', ',', ' '] := by decide
      exact ⟨List.not_mem_append hmark.1 ih.1, List.not_mem_append hmark.2 ih.2⟩

/-- A clause that is written as its only text with a text behind it that has no
parentheses. -/
structure Suffixed (c : Clause) (text : String) (rest : List Char) : Prop where
  texts : c.texts = [text]
  operands : c.operands = []
  sql : c.sql = text.toList ++ rest
  unbracketed : Unbracketed rest

/-- **What holds of suffixed texts and memberships, and of a clause when it holds
of the clauses that it combines, holds of every clause.** -/
theorem inductSql {P : Clause → Prop} (suffixed : ∀ c text rest, c.Suffixed text rest → P c)
    (never : ∀ column, P (oneOf column [])) (member : ∀ column v vs, P (oneOf column (v :: vs)))
    (not : ∀ c, P c → P (not c))
    (composite : ∀ op cs, (∀ c ∈ cs, P c) → P (composite op cs)) (c : Clause) : P c := by
  induction c using induct with
  | raw sql => exact suffixed _ sql [] ⟨rfl, rfl, rfl, by decide⟩
  | compare column op value =>
    exact suffixed _ column _ ⟨rfl, rfl, sql_compare column op value, by cases op <;> decide⟩
  | between column low high =>
    exact suffixed _ column _ ⟨rfl, rfl, sql_between column low high, by decide⟩
  | oneOf column values =>
    cases values with
    | nil => exact never column
    | cons v vs => exact member column v vs
  | startsWith column start =>
    exact suffixed _ column _ ⟨rfl, rfl, sql_startsWith column start, by decide⟩
  | contains column part =>
    exact suffixed _ column _ ⟨rfl, rfl, sql_contains column part, by decide⟩
  | isNull column => exact suffixed _ column _ ⟨rfl, rfl, sql_isNull column, by decide⟩
  | not c ih => exact not c ih
  | composite op cs ih => exact composite op cs ih

end Clause

end ListingMetadata.Query
