/-
  ListingMetadata.Proofs.Query.Quotes
  ───────────────────────────────────
  **NO TEXT BREAKS OUT OF ITS QUOTES.**

  Where literals are inlined, a reader finds the end of a text by its quotes alone: two
  of them stand for one, and the first that is not doubled ends the text.  So a text is
  read as it was as long as no further quote stands right behind it:

      'O''Hare' AND …    is   O'Hare,  then  ` AND …`
      'O''Hare''…        goes on

  In an inlined statement none ever does, whatever the columns and raw clauses hold:
  behind a literal comes text of the statement itself, or the end.

    • `readLiteral_eq_some_iff` — which texts are read as what,
    • `fenced_pieces`           — what comes behind literals, by induction on the clause,
    • `literals_closed`         — both.
-/
import ListingMetadata.Proofs.Query.Parts

namespace ListingMetadata.Query

/-! ## §1. Reading a quoted text -/

/-- What a quoted text holds, from behind its first quote on, and what follows it. -/
def readInside : List Char → Option (List Char × List Char)
  | [] => none
  | '\'' :: '\'' :: cs => (readInside cs).map fun (s, rest) => ('\'' :: s, rest)
  | '\'' :: cs => some ([], cs)
  | c :: cs => (readInside cs).map fun (s, rest) => (c :: s, rest)

/-- What a quoted text holds, and what follows it. -/
def readLiteral : List Char → Option (List Char × List Char)
  | '\'' :: cs => readInside cs
  | _ => none

/-- A quote that is not doubled ends the text. -/
theorem readInside_quote {rest : List Char} (h : rest.head? ≠ some '\'') :
    readInside ('\'' :: rest) = some ([], rest) := by
  rw [readInside]
  rintro cs rfl
  exact h rfl

/-- A character is read back from how it is written, whatever comes behind it. -/
theorem readInside_doubledQuote (c : Char) (cs : List Char) :
    readInside (doubledQuote c ++ cs) = (readInside cs).map fun (s, rest) => (c :: s, rest) := by
  by_cases hc : c = '\''
  · subst hc
    rfl
  · unfold doubledQuote
    rw [if_neg hc, List.singleton_append, readInside]
    · intro _ h
      exact absurd h hc
    · exact hc

/-- A text that ends where no quote follows is read. -/
theorem readInside_written (s : List Char) {rest : List Char} (h : rest.head? ≠ some '\'') :
    readInside (s.flatMap doubledQuote ++ '\'' :: rest) = some (s, rest) := by
  induction s with
  | nil => exact readInside_quote h
  | cons c s ih =>
    rw [List.flatMap_cons, List.append_assoc, readInside_doubledQuote, ih]
    rfl

/-- And nothing else is. -/
theorem written_of_readInside {cs : List Char} :
    ∀ {s rest : List Char}, readInside cs = some (s, rest) →
      cs = s.flatMap doubledQuote ++ '\'' :: rest ∧ rest.head? ≠ some '\'' := by
  induction cs using readInside.induct with
  | case1 =>
    intro s rest h
    cases h
  | case2 cs ih =>
    intro s rest h
    rw [readInside] at h
    obtain ⟨⟨s', rest'⟩, hread, heq⟩ := Option.map_eq_some_iff.mp h
    cases heq
    obtain ⟨rfl, hrest⟩ := ih hread
    exact ⟨rfl, hrest⟩
  | case3 cs hlast =>
    intro s rest h
    have hhead : cs.head? ≠ some '\'' := by
      intro hhead
      obtain ⟨tail, rfl⟩ := List.head?_eq_some_iff.mp hhead
      exact hlast tail rfl
    rw [readInside_quote hhead] at h
    cases h
    exact ⟨rfl, hhead⟩
  | case4 c cs _ hquote ih =>
    intro s rest h
    have hplain : doubledQuote c = [c] := if_neg hquote
    have hstep := readInside_doubledQuote c cs
    rw [hplain, List.singleton_append] at hstep
    rw [hstep] at h
    obtain ⟨⟨s', rest'⟩, hread, heq⟩ := Option.map_eq_some_iff.mp h
    cases heq
    obtain ⟨rfl, hrest⟩ := ih hread
    refine ⟨?_, hrest⟩
    rw [List.flatMap_cons, hplain]
    rfl

theorem toList_shown_text (s : String) :
    (Literal.text s).shown.toList = '\'' :: (s.toList.flatMap doubledQuote ++ ['\'']) :=
  String.toList_ofList

/-- **A text is read back from its quotes, and what follows is left, exactly where no
further quote follows.** -/
theorem readLiteral_eq_some_iff {cs : List Char} {s : String} {rest : List Char} :
    readLiteral cs = some (s.toList, rest) ↔
      cs = (Literal.text s).shown.toList ++ rest ∧ rest.head? ≠ some '\'' := by
  rw [toList_shown_text, List.cons_append, List.append_assoc, List.singleton_append]
  constructor
  · intro h
    unfold readLiteral at h
    split at h
    · obtain ⟨hcs, hrest⟩ := written_of_readInside h
      exact ⟨congrArg _ hcs, hrest⟩
    · cases h
  · rintro ⟨rfl, hrest⟩
    exact readInside_written s.toList hrest

/-! ## §2. What comes behind literals -/

/-- Behind each literal of pieces, a further text standing behind all, comes no quote. -/
def Fenced : List Piece → List Char → Prop
  | [], _ => True
  | .sql _ :: ps, rest => Fenced ps rest
  | .bound _ :: ps, rest => (ps.flatMap Piece.inlined ++ rest).head? ≠ some '\'' ∧ Fenced ps rest

/-- Of pieces in a row, the first ones have the others behind them. -/
theorem fenced_append_iff {ps qs : List Piece} {rest : List Char} :
    Fenced (ps ++ qs) rest ↔ Fenced ps (qs.flatMap Piece.inlined ++ rest) ∧ Fenced qs rest := by
  induction ps with
  | nil => exact (true_and (Fenced qs rest)).symm.to_iff
  | cons p ps ih =>
    cases p with
    | sql s => exact ih
    | bound v =>
      rw [List.cons_append, Fenced, Fenced, ih, List.flatMap_append, List.append_assoc, and_assoc]

/-- Within parentheses it does not matter what comes behind. -/
theorem Fenced.closed {ps : List Piece}
    (h : ∀ rest : List Char, rest.head? ≠ some '\'' → Fenced ps rest) (rest : List Char) :
    Fenced (ps ++ [.sql ")"]) rest := by
  rw [fenced_append_iff]
  refine ⟨h _ ?_, trivial⟩
  show some ')' ≠ some '\''
  decide

theorem fenced_listPieces (vs : List Literal) {rest : List Char} (h : rest.head? ≠ some '\'') :
    Fenced (listPieces vs) rest := by
  induction vs with
  | nil => trivial
  | cons v vs ih =>
    cases vs with
    | nil => exact ⟨h, trivial⟩
    | cons w vs =>
      refine ⟨?_, ih⟩
      show some ',' ≠ some '\''
      decide

theorem fenced_likePieces (column pattern : String) (rest : List Char) :
    Fenced (likePieces column pattern) rest := by
  refine ⟨?_, trivial⟩
  show some ' ' ≠ some '\''
  decide

theorem fenced_elementPieces (op : Junction) {cs : List Clause}
    (h : ∀ c ∈ cs, ∀ rest : List Char, rest.head? ≠ some '\'' → Fenced c.pieces rest)
    (first : Bool) (rest : List Char) : Fenced (elementPieces op first cs) rest := by
  induction cs generalizing first with
  | nil => trivial
  | cons c cs ih =>
    have hcs := ih (fun d hd => h d (List.mem_cons_of_mem _ hd)) false
    have hbefore : ∀ rest, Fenced
        ((if first then [] else [.sql " ", .sql op.keyword, .sql " "]) ++ [.sql "("]) rest := by
      intro rest
      cases first <;> trivial
    rw [elementPieces, fenced_append_iff, List.append_assoc, fenced_append_iff]
    exact ⟨⟨hbefore _, Fenced.closed (h c List.mem_cons_self) _⟩, hcs⟩

/-- **Behind each literal of a clause comes no quote**, if none comes behind the
clause. -/
theorem Clause.fenced_pieces (c : Clause) :
    ∀ rest : List Char, rest.head? ≠ some '\'' → Fenced c.pieces rest := by
  induction c using induct with
  | raw sql =>
    intro rest _
    trivial
  | compare column op value =>
    intro rest h
    exact ⟨h, trivial⟩
  | between column low high =>
    intro rest h
    refine ⟨?_, h, trivial⟩
    show some ' ' ≠ some '\''
    decide
  | oneOf column values =>
    intro rest _
    cases values with
    | nil => trivial
    | cons v vs => exact Fenced.closed (fun _ => fenced_listPieces (v :: vs)) rest
  | startsWith column start =>
    intro rest _
    exact fenced_likePieces column (startPattern start) rest
  | contains column part =>
    intro rest _
    exact fenced_likePieces column (partPattern part) rest
  | isNull column =>
    intro rest _
    trivial
  | not c ih =>
    intro rest _
    exact Fenced.closed ih rest
  | composite op cs ih =>
    intro rest _
    exact fenced_elementPieces op ih true rest

/-! ## §3. Inlined statements -/

namespace Clause

/-- **Texts in an inlined statement are closed.**  A quoted text is read back, and what
follows is left, exactly where no quote follows it; and where a literal stands in an
inlined statement, between what is written before and after it, none does. -/
theorem literals_closed (c : Clause) :
    (∀ cs (s : String) rest, readLiteral cs = some (s.toList, rest) ↔
        cs = (Literal.text s).shown.toList ++ rest ∧ rest.head? ≠ some '\'') ∧
      ∀ before v after, c.pieces = before ++ .bound v :: after →
        c.inlined = (inlinedStatement before).text ++ v.shown ++ (inlinedStatement after).text ∧
          (inlinedStatement after).text.toList.head? ≠ some '\'' := by
  refine ⟨fun cs s rest => readLiteral_eq_some_iff, ?_⟩
  intro before v after hsplit
  have hfenced : Fenced c.pieces [] := fenced_pieces c [] (by decide)
  rw [hsplit, fenced_append_iff] at hfenced
  obtain ⟨-, hafter, -⟩ := hfenced
  rw [inlined, hsplit, inlinedStatement_eq, inlinedStatement_eq, inlinedStatement_eq]
  constructor
  · show String.ofList ((before ++ .bound v :: after).flatMap Piece.inlined)
      = String.ofList (before.flatMap Piece.inlined) ++ v.shown
        ++ String.ofList (after.flatMap Piece.inlined)
    rw [List.flatMap_append, List.flatMap_cons, String.ofList_append, String.ofList_append,
      String.append_assoc]
    exact congrArg _ (congrArg (· ++ _) String.ofList_toList)
  · rwa [String.toList_ofList, ← List.append_nil (after.flatMap Piece.inlined)]

/-- A clause whose texts end in quotes, with raw text that begins with one. -/
def quotedNames : Clause :=
  bothOf (equals "r_agent" (.text "O'")) (eitherOf (raw "'x' = 'x'") (startsWith "'r_city" "'"))

/-- The text of the first comparison is read back, and a parenthesis is left behind it. -/
theorem quotedNames_closed :
    quotedNames.pieces
        = [.sql "(", .sql "r_agent", .sql " ", .sql "=", .sql " "] ++ .bound (.text "O'")
          :: quotedNames.pieces.drop 6 ∧
      (inlinedStatement (quotedNames.pieces.drop 6)).text
        = ") AND (('x' = 'x') OR ('r_city LIKE '''%' ESCAPE '\\'))" ∧
      readLiteral ((Literal.text "O'").shown.toList
          ++ (inlinedStatement (quotedNames.pieces.drop 6)).text.toList)
        = some ("O'".toList, (inlinedStatement (quotedNames.pieces.drop 6)).text.toList) := by
  have hsplit : quotedNames.pieces
      = [.sql "(", .sql "r_agent", .sql " ", .sql "=", .sql " "] ++ .bound (.text "O'")
        :: quotedNames.pieces.drop 6 := by rfl
  have hclosed := literals_closed quotedNames
  exact ⟨hsplit, by decide +kernel, (hclosed.1 _ _ _).mpr ⟨rfl, (hclosed.2 _ _ _ hsplit).2⟩⟩

end Clause

end ListingMetadata.Query
