/-
  ListingMetadata.Proofs.Query.Literals
  ─────────────────────────────────────
  **LITERALS AND THE TEXT AROUND THEM.**

  A clause gives its literals one by one and the text around them, and the two
  are told apart to the end.  Where no column or raw clause holds a question
  mark, the marks of a statement are its parameters, in their order:

      (r_city = ?) AND (r_area IN (?, ?))         with   'Reno', 1, 2
      (r_city = 'Reno') AND (r_area IN (1, 2))

  And no part of a literal gets into the text, whatever the columns and raw
  clauses hold: the text is fixed by the shape of the clause.

    • `filled_marked`, `count_marked` — marks filled in turn, piece by piece,
    • `unmarked_pieces`               — no other marks, by induction on the clause,
    • `inlined_of_statement`          — a statement filled with its parameters,
    • `map_blanked_erased`            — the pieces of an erased clause,
    • `text_of_shape`                 — the statements of clauses of one shape.
-/
import ListingMetadata.Proofs.Query.Parts

namespace ListingMetadata.Query

/-! ## §1. Marks -/

/-- A text with its question marks replaced in turn, all at once: what comes in the
place of a mark is not looked through for marks.  A mark for which no text is
left stays. -/
def filled : List (List Char) → List Char → List Char
  | _, [] => []
  | [], cs => cs
  | t :: ts, c :: cs => if c = '?' then t ++ filled ts cs else c :: filled (t :: ts) cs

theorem filled_nil (cs : List Char) : filled [] cs = cs := by
  cases cs <;> rfl

/-- Text without marks stays in front. -/
theorem filled_append {s : List Char} (hs : '?' ∉ s) (ts : List (List Char)) (rest : List Char) :
    filled ts (s ++ rest) = s ++ filled ts rest := by
  cases ts with
  | nil => rw [filled_nil, filled_nil]
  | cons t ts =>
    induction s with
    | nil => rfl
    | cons c cs ih =>
      have hc : c ≠ '?' := fun h => hs (h ▸ List.mem_cons_self)
      have hcs : '?' ∉ cs := fun h => hs (List.mem_cons_of_mem _ h)
      show (if c = '?' then _ else c :: filled (t :: ts) (cs ++ rest)) = _
      rw [if_neg hc, ih hcs]
      rfl

/-- The text of a piece, unless it is a literal, holds no question mark. -/
def Piece.Unmarked : Piece → Prop
  | .sql s => '?' ∉ s.toList
  | .bound _ => True

instance (p : Piece) : Decidable p.Unmarked :=
  match p with
  | .sql s => inferInstanceAs (Decidable ('?' ∉ s.toList))
  | .bound _ => inferInstanceAs (Decidable True)

/-- No text of pieces holds a question mark. -/
def Unmarked (ps : List Piece) : Prop :=
  ∀ p ∈ ps, p.Unmarked

instance (ps : List Piece) : Decidable (Unmarked ps) :=
  inferInstanceAs (Decidable (∀ p ∈ ps, p.Unmarked))

theorem unmarked_nil : Unmarked [] := by
  intro p hp
  cases hp

theorem unmarked_cons_iff {p : Piece} {ps : List Piece} :
    Unmarked (p :: ps) ↔ p.Unmarked ∧ Unmarked ps :=
  List.forall_mem_cons

theorem Unmarked.append {ps qs : List Piece} (hp : Unmarked ps) (hq : Unmarked qs) :
    Unmarked (ps ++ qs) :=
  List.forall_mem_append.mpr ⟨hp, hq⟩

theorem Unmarked.sql {s : String} (hs : '?' ∉ s.toList) {ps : List Piece} (h : Unmarked ps) :
    Unmarked (.sql s :: ps) :=
  unmarked_cons_iff.mpr ⟨hs, h⟩

theorem Unmarked.bound (v : Literal) {ps : List Piece} (h : Unmarked ps) :
    Unmarked (.bound v :: ps) :=
  unmarked_cons_iff.mpr ⟨trivial, h⟩

/-- **Filled with their literals, bound pieces are inlined ones.** -/
theorem filled_marked {ps : List Piece} (h : Unmarked ps) :
    filled ((ps.filterMap Piece.literal?).map fun v => v.shown.toList) (ps.flatMap Piece.marked)
      = ps.flatMap Piece.inlined := by
  induction ps with
  | nil => rfl
  | cons p ps ih =>
    obtain ⟨hp, hps⟩ := unmarked_cons_iff.mp h
    rw [List.flatMap_cons, List.flatMap_cons, ← ih hps]
    cases p with
    | sql s => exact filled_append hp _ _
    | bound v => rfl

/-- **There are as many marks as literals.** -/
theorem count_marked {ps : List Piece} (h : Unmarked ps) :
    (ps.flatMap Piece.marked).count '?' = (ps.filterMap Piece.literal?).length := by
  induction ps with
  | nil => rfl
  | cons p ps ih =>
    obtain ⟨hp, hps⟩ := unmarked_cons_iff.mp h
    rw [List.flatMap_cons, List.count_append, ih hps]
    cases p with
    | sql s =>
      have hnone : s.toList.count '?' = 0 := List.count_eq_zero_of_not_mem hp
      show s.toList.count '?' + _ = (ps.filterMap Piece.literal?).length
      omega
    | bound v =>
      show 1 + (ps.filterMap Piece.literal?).length = (ps.filterMap Piece.literal?).length + 1
      omega

/-! ## §2. Marks in a statement -/

theorem unmarked_listPieces (vs : List Literal) : Unmarked (listPieces vs) := by
  induction vs with
  | nil => exact unmarked_nil
  | cons v vs ih =>
    cases vs with
    | nil => exact unmarked_nil.bound v
    | cons w vs => exact (ih.sql (by decide)).bound v

theorem unmarked_likePieces {column : String} (h : '?' ∉ column.toList) (pattern : String) :
    Unmarked (likePieces column pattern) :=
  (((unmarked_nil.sql (by decide)).bound _).sql (by decide)).sql h

theorem unmarked_elementPieces (op : Junction) {cs : List Clause}
    (h : ∀ c ∈ cs, Unmarked c.pieces) (first : Bool) : Unmarked (elementPieces op first cs) := by
  have hkeyword : '?' ∉ op.keyword.toList := by cases op <;> decide
  have hbefore : ∀ first : Bool, Unmarked
      (if first then [] else [.sql " ", .sql op.keyword, .sql " "])
    | true => unmarked_nil
    | false => ((unmarked_nil.sql (by decide)).sql hkeyword).sql (by decide)
  have hopening : Unmarked [.sql "("] := by decide
  have hclosing : Unmarked [.sql ")"] := by decide
  induction cs generalizing first with
  | nil => exact unmarked_nil
  | cons c cs ih =>
    have hc := h c List.mem_cons_self
    have hcs := ih (fun d hd => h d (List.mem_cons_of_mem _ hd)) false
    exact ((((hbefore first).append hopening).append hc).append hclosing).append hcs

namespace Clause

/-- No column or raw clause holds a question mark. -/
def UnmarkedTexts (c : Clause) : Prop :=
  ∀ s ∈ c.texts, '?' ∉ s.toList

instance (c : Clause) : Decidable c.UnmarkedTexts :=
  inferInstanceAs (Decidable (∀ s ∈ c.texts, '?' ∉ s.toList))

/-- **Only columns and raw clauses can bring a question mark into the text of a
clause.** -/
theorem unmarked_pieces (c : Clause) : c.UnmarkedTexts → Unmarked c.pieces := by
  induction c using induct with
  | raw sql =>
    intro h
    exact unmarked_nil.sql (h sql List.mem_cons_self)
  | compare column op value =>
    intro h
    have hsign : '?' ∉ op.sign.toList := by cases op <;> decide
    exact ((((unmarked_nil.bound value).sql (by decide)).sql hsign).sql (by decide)).sql
      (h column List.mem_cons_self)
  | between column low high =>
    intro h
    exact ((((unmarked_nil.bound high).sql (by decide)).bound low).sql (by decide)).sql
      (h column List.mem_cons_self)
  | oneOf column values =>
    intro h
    cases values with
    | nil => exact unmarked_nil.sql (by decide)
    | cons v vs =>
      have hopening : Unmarked [.sql column, .sql " IN ("] :=
        (unmarked_nil.sql (by decide)).sql (h column List.mem_cons_self)
      exact (hopening.append (unmarked_listPieces (v :: vs))).append (by decide)
  | startsWith column start =>
    intro h
    exact unmarked_likePieces (h column List.mem_cons_self) (startPattern start)
  | contains column part =>
    intro h
    exact unmarked_likePieces (h column List.mem_cons_self) (partPattern part)
  | isNull column =>
    intro h
    exact (unmarked_nil.sql (by decide)).sql (h column List.mem_cons_self)
  | not c ih =>
    intro h
    have hclosing : Unmarked [.sql ")"] := by decide
    exact ((ih h).append hclosing).sql (by decide)
  | composite op cs ih =>
    intro h
    apply unmarked_elementPieces op
    intro c hc
    exact ih c hc fun s hs => h s (mem_texts_composite.mpr ⟨c, hc, hs⟩)

/-- **A statement filled with its parameters is the inlined statement**, which has
no parameters itself: the statement has a mark for each parameter, and replacing
them in turn by the parameters as they are shown gives the inlined text. -/
theorem inlined_of_statement {c : Clause} (h : c.UnmarkedTexts) :
    c.statement.text.toList.count '?' = c.statement.params.length ∧
      inlinedStatement c.pieces
        = ⟨String.ofList (filled (c.statement.params.map fun v => v.shown.toList)
            c.statement.text.toList), []⟩ := by
  have hpieces := unmarked_pieces c h
  have hparams : c.statement.params = c.pieces.filterMap Piece.literal? := by
    rw [statement, boundStatement_eq]
  rw [toList_statement, hparams, sql, filled_marked hpieces, inlinedStatement_eq]
  exact ⟨count_marked hpieces, rfl⟩

/-- A clause with literals that hold marks and quotes of their own. -/
def questioned : Clause :=
  bothOf (contains "r_remarks" "Who's there?") (oneOf "r_area" [.text "?", .int (-2), .bool true])

/-- The marks in the literals are no marks of the statement. -/
theorem questioned_inlined :
    questioned.UnmarkedTexts ∧
      questioned.statement.text = "(r_remarks LIKE ? ESCAPE '\\') AND (r_area IN (?, ?, ?))" ∧
      questioned.statement.text.toList.count '?' = questioned.statement.params.length ∧
      (inlinedStatement questioned.pieces).text
        = "(r_remarks LIKE '%Who''s there?%' ESCAPE '\\') AND (r_area IN ('?', -2, true))" ∧
      inlinedStatement questioned.pieces
        = ⟨String.ofList (filled (questioned.statement.params.map fun v => v.shown.toList)
            questioned.statement.text.toList), []⟩ := by
  have htexts : questioned.UnmarkedTexts := by decide +kernel
  have hfilled := inlined_of_statement htexts
  exact ⟨htexts, by decide +kernel, hfilled.1, by decide +kernel, hfilled.2⟩

end Clause

/-! ## §3. The shape of a clause -/

/-- The literal that stands in the place of any. -/
def Literal.blank : Literal :=
  .text ""

namespace Clause

mutual

/-- A clause with blanks for all its literals and no text to look for: what is left
is its shape. -/
def erased : Clause → Clause
  | raw sql => raw sql
  | compare column op _ => compare column op .blank
  | between column _ _ => between column .blank .blank
  | oneOf column values => oneOf column (values.map fun _ => .blank)
  | startsWith column _ => startsWith column ""
  | contains column _ => contains column ""
  | isNull column => isNull column
  | not c => not c.erased
  | composite op cs => composite op (erasedAll cs)

/-- Clauses erased one by one. -/
def erasedAll : List Clause → List Clause
  | [] => []
  | c :: cs => c.erased :: erasedAll cs

end

end Clause

/-- A piece with any literal made blank. -/
def Piece.blanked : Piece → Piece
  | .sql s => .sql s
  | .bound _ => .bound .blank

theorem map_blanked_listPieces (vs : List Literal) :
    (listPieces (vs.map fun _ => Literal.blank)).map Piece.blanked
      = (listPieces vs).map Piece.blanked := by
  induction vs with
  | nil => rfl
  | cons v vs ih =>
    cases vs with
    | nil => rfl
    | cons w vs =>
      show _ :: _ :: (listPieces ((w :: vs).map fun _ => Literal.blank)).map Piece.blanked = _
      rw [ih]
      rfl

namespace Clause

theorem map_blanked_elementPieces (op : Junction) {cs : List Clause}
    (h : ∀ c ∈ cs, c.erased.pieces.map Piece.blanked = c.pieces.map Piece.blanked) (first : Bool) :
    (elementPieces op first (erasedAll cs)).map Piece.blanked
      = (elementPieces op first cs).map Piece.blanked := by
  induction cs generalizing first with
  | nil => rfl
  | cons c cs ih =>
    have hc := h c List.mem_cons_self
    have hcs := ih (fun d hd => h d (List.mem_cons_of_mem _ hd)) false
    simp only [erasedAll, elementPieces, List.map_append, hc, hcs]

/-- **Erasing changes no piece of a clause but its literals.** -/
theorem map_blanked_erased (c : Clause) :
    c.erased.pieces.map Piece.blanked = c.pieces.map Piece.blanked := by
  induction c using induct with
  | oneOf column values =>
    cases values with
    | nil => rfl
    | cons v vs =>
      show ([Piece.sql column, .sql " IN ("] ++ listPieces ((v :: vs).map fun _ => Literal.blank)
        ++ [Piece.sql ")"]).map Piece.blanked = _
      rw [List.map_append, List.map_append, map_blanked_listPieces, ← List.map_append,
        ← List.map_append]
      rfl
  | not c ih =>
    show Piece.sql "NOT (" :: (c.erased.pieces ++ [Piece.sql ")"]).map Piece.blanked = _
    rw [List.map_append, ih, ← List.map_append]
    rfl
  | composite op cs ih => exact map_blanked_elementPieces op ih true
  | _ => rfl

end Clause

theorem marked_map_blanked (ps : List Piece) :
    (ps.map Piece.blanked).flatMap Piece.marked = ps.flatMap Piece.marked := by
  rw [List.flatMap_map]
  apply List.flatMap_congr
  intro p _
  cases p <;> rfl

theorem length_literals_map_blanked (ps : List Piece) :
    ((ps.map Piece.blanked).filterMap Piece.literal?).length
      = (ps.filterMap Piece.literal?).length := by
  induction ps with
  | nil => rfl
  | cons p ps ih =>
    cases p with
    | sql s => exact ih
    | bound v => exact congrArg (· + 1) ih

namespace Clause

/-- **Clauses of one shape have statements of the same text and of as many
parameters**, whatever their literals and the texts that they look for. -/
theorem text_of_shape {c d : Clause} (h : c.erased = d.erased) :
    c.statement.text = d.statement.text ∧
      c.statement.params.length = d.statement.params.length := by
  have hpieces : c.pieces.map Piece.blanked = d.pieces.map Piece.blanked := by
    rw [← map_blanked_erased c, h, map_blanked_erased d]
  rw [statement, statement, boundStatement_eq, boundStatement_eq]
  constructor
  · show String.ofList (c.pieces.flatMap Piece.marked)
      = String.ofList (d.pieces.flatMap Piece.marked)
    rw [← marked_map_blanked c.pieces, hpieces, marked_map_blanked]
  · show (c.pieces.filterMap Piece.literal?).length = (d.pieces.filterMap Piece.literal?).length
    rw [← length_literals_map_blanked c.pieces, hpieces, length_literals_map_blanked]

/-- The same search with literals that look like SQL. -/
def hostile : Clause :=
  bothOf (contains "r_remarks" "' OR 1 = 1 --") (oneOf "r_area" [.int 7, .text ") OR (?", .text ""])

/-- Literals that look like SQL stay literals. -/
theorem hostile_text_of_shape :
    hostile.erased = questioned.erased ∧
      hostile.statement.text = questioned.statement.text ∧
      hostile.statement.params.length = questioned.statement.params.length ∧
      hostile.statement.params ≠ questioned.statement.params := by
  have hshape : hostile.erased = questioned.erased := by decide +kernel
  have hsame := text_of_shape hshape
  exact ⟨hshape, hsame.1, hsame.2, by decide +kernel⟩

end Clause

end ListingMetadata.Query
