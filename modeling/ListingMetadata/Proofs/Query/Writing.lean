/-
  ListingMetadata.Proofs.Query.Writing
  ────────────────────────────────────
  **WHAT A WRITER HOLDS.**

  A writer takes pieces one by one, the text in one place and the parameters in
  another.  What it holds in the end can be told piece by piece:

    • `boundStatement_eq`   — a mark in the text and a parameter for each literal,
    • `inlinedStatement_eq` — all literals in the text, and no parameters.
-/
import ListingMetadata.Query.Statement

namespace ListingMetadata.Query

/-! ## §1. Pieces -/

/-- The text of a piece, a mark for a literal. -/
def Piece.marked : Piece → List Char
  | .sql s => s.toList
  | .bound _ => ['?']

/-- The text of a piece, a literal as it is shown. -/
def Piece.inlined : Piece → List Char
  | .sql s => s.toList
  | .bound v => v.shown.toList

/-- The literal of a piece. -/
def Piece.literal? : Piece → Option Literal
  | .sql _ => none
  | .bound v => some v

/-! ## §2. Writers -/

namespace Writer

theorem foldl_put_binding (pieces : List Piece) (text : String) (params : List Literal) :
    pieces.foldl put ⟨text, params, false⟩
      = ⟨text ++ String.ofList (pieces.flatMap Piece.marked),
          params ++ pieces.filterMap Piece.literal?, false⟩ := by
  induction pieces generalizing text params with
  | nil => simp
  | cons p pieces ih =>
    have hput : put ⟨text, params, false⟩ p
        = ⟨text ++ String.ofList p.marked, params ++ p.literal?.toList, false⟩ := by
      cases p <;> simp [put, push, bind, Piece.marked, Piece.literal?]
    have hparams : (p :: pieces).filterMap Piece.literal?
        = p.literal?.toList ++ pieces.filterMap Piece.literal? := by
      cases p <;> rfl
    rw [List.foldl_cons, hput, ih, List.flatMap_cons, String.ofList_append, String.append_assoc,
      hparams, List.append_assoc]

theorem foldl_put_inlining (pieces : List Piece) (text : String) (params : List Literal) :
    pieces.foldl put ⟨text, params, true⟩
      = ⟨text ++ String.ofList (pieces.flatMap Piece.inlined), params, true⟩ := by
  induction pieces generalizing text with
  | nil => simp
  | cons p pieces ih =>
    have hput : put ⟨text, params, true⟩ p
        = ⟨text ++ String.ofList p.inlined, params, true⟩ := by
      cases p <;> simp [put, push, bind, Piece.inlined]
    rw [List.foldl_cons, hput, ih, List.flatMap_cons, String.ofList_append, String.append_assoc]

end Writer

/-! ## §3. Statements -/

/-- **A bound statement has a mark in its text and a parameter for each literal.** -/
theorem boundStatement_eq (pieces : List Piece) :
    boundStatement pieces
      = ⟨String.ofList (pieces.flatMap Piece.marked), pieces.filterMap Piece.literal?⟩ := by
  unfold boundStatement Writer.binding
  rw [Writer.foldl_put_binding]
  simp [Writer.finish]

/-- **An inlined statement has all literals in its text, and no parameters.** -/
theorem inlinedStatement_eq (pieces : List Piece) :
    inlinedStatement pieces = ⟨String.ofList (pieces.flatMap Piece.inlined), []⟩ := by
  unfold inlinedStatement Writer.inlining
  rw [Writer.foldl_put_inlining]
  simp [Writer.finish]

theorem toList_boundStatement (pieces : List Piece) :
    (boundStatement pieces).text.toList = pieces.flatMap Piece.marked := by
  rw [boundStatement_eq, String.toList_ofList]

end ListingMetadata.Query
