/-
  ListingMetadata.Proofs.Query.Grouping
  ─────────────────────────────────────
  **PARENTHESES GROUP A STATEMENT AS THE CLAUSE IS COMBINED.**

  Columns and raw clauses are the only texts of a statement that its clause does
  not fix.  While these are balanced the statement is, and what its outermost
  parentheses hold are the statements of the elements of a composite, with the
  keyword between them, or that of a clause that is negated:

      (r_class = ?) AND (NOT (r_status IS NULL))

  No precedence is left for a database to decide, at any depth.

    • `balanced_sql`          — statements are balanced, by induction on the clause,
    • `spans_composite`       — the groups of a composite,
    • `spans_not`             — and of a negation,
    • `grouped_as_combined`   — all that a clause is combined of.
-/
import ListingMetadata.Proofs.Query.Parts

namespace ListingMetadata.Query

open Text

/-! ## §1. Balanced statements -/

namespace Clause

/-- The columns and raw clauses of a clause are balanced. -/
def BalancedTexts (c : Clause) : Prop :=
  ∀ s ∈ c.texts, Balanced s.toList

instance (c : Clause) : Decidable c.BalancedTexts :=
  inferInstanceAs (Decidable (∀ s ∈ c.texts, Balanced s.toList))

/-- **The statement of a clause is balanced if its texts are.** -/
theorem balanced_sql (c : Clause) : c.BalancedTexts → Balanced c.sql := by
  induction c using inductSql with
  | suffixed c text rest hc =>
    intro h
    have htext : Balanced text.toList := h text (by rw [hc.texts]; exact List.mem_cons_self)
    rw [hc.sql]
    exact htext.append (balanced_of_unbracketed hc.unbracketed)
  | never column =>
    intro _
    rw [sql_oneOf_nil]
    exact balanced_of_unbracketed (by decide)
  | member column v vs =>
    intro h
    have hin : Balanced " IN ".toList := balanced_of_unbracketed (by decide)
    have hmarks := balanced_of_unbracketed (unbracketed_markList (v :: vs))
    rw [sql_oneOf]
    exact (h column List.mem_cons_self).append (hin.append hmarks.group)
  | not c ih =>
    intro h
    rw [sql_not]
    exact (balanced_of_unbracketed (by decide)).append (ih h).group
  | composite op cs ih =>
    intro h
    rw [sql_composite]
    apply intercalate_induct balanced_nil Balanced.append
      (balanced_of_unbracketed op.unbracketed_separator)
    intro t ht
    obtain ⟨c, hc, rfl⟩ := List.mem_map.mp ht
    exact (ih c hc fun s hs => h s (mem_texts_composite.mpr ⟨c, hc, hs⟩)).group

/-! ## §2. Groups -/

/-- **The groups of a composite are its elements, the keyword between them.** -/
theorem spans_composite (op : Junction) {cs : List Clause} (h : ∀ c ∈ cs, Balanced c.sql) :
    spans (composite op cs).sql
      = some ((cs.map fun c => Span.group c.sql).intersperse (Span.outside op.separator)) := by
  rw [sql_composite]
  induction cs with
  | nil => rfl
  | cons c cs ih =>
    have hc := h c List.mem_cons_self
    cases cs with
    | nil =>
      rw [List.map_singleton, List.intercalate_singleton]
      show spans ('(' :: (c.sql ++ ')' :: [])) = _
      rw [spans_group hc]
      rfl
    | cons d ds =>
      have hrest := ih fun e he => h e (List.mem_cons_of_mem _ he)
      have hseparated : ∃ rest, op.separator.intercalate ((d :: ds).map grouped) = '(' :: rest := by
        cases ds with
        | nil => exact ⟨_, List.intercalate_singleton⟩
        | cons e es =>
          rw [List.map_cons, List.map_cons, List.intercalate_cons_cons]
          exact ⟨_, rfl⟩
      obtain ⟨rest, hopening⟩ := hseparated
      have hsplit : op.separator.intercalate ((c :: d :: ds).map grouped)
          = '(' :: (c.sql ++ ')' :: (op.separator ++ '(' :: rest)) := by
        rw [List.map_cons, List.map_cons, List.intercalate_cons_cons, ← List.map_cons, hopening]
        simp [grouped]
      rw [hsplit, spans_group hc, spans_outside op.unbracketed_separator (List.cons_ne_nil _ _),
        ← hopening, hrest]
      rfl

/-- **A negation is its keyword and one group.** -/
theorem spans_not {c : Clause} (h : Balanced c.sql) :
    spans (not c).sql = some [Span.outside "NOT ".toList, Span.group c.sql] := by
  rw [sql_not, spans_outside (by decide) (by decide), spans_group h]
  rfl

/-! ## §3. Statements -/

/-- **The statement of a clause with balanced texts is balanced, and it is
grouped as the clause is combined**: in the clause and in all of its operands a
composite has one group for each element, which holds the element's statement,
and nothing but the keyword between blanks stands between two of them; a
negation has one group behind its keyword. -/
theorem grouped_as_combined {c : Clause} (h : c.BalancedTexts) :
    Balanced c.statement.text.toList ∧
      ∀ d ∈ c :: c.operands,
        (∀ op es, d = composite op es →
          spans d.statement.text.toList
            = some ((es.map fun e => Span.group e.statement.text.toList).intersperse
                (Span.outside op.separator))) ∧
        ∀ e, d = not e →
          spans d.statement.text.toList
            = some [Span.outside "NOT ".toList, Span.group e.statement.text.toList] := by
  simp only [toList_statement]
  refine ⟨balanced_sql c h, fun d hd => ?_⟩
  have hd : d.BalancedTexts := by
    rcases List.mem_cons.mp hd with rfl | hd
    · exact h
    · exact fun s hs => h s (texts_operands c d hd hs)
  constructor
  · rintro op es rfl
    exact spans_composite op fun e he =>
      balanced_sql e fun s hs => hd s (mem_texts_composite.mpr ⟨e, he, hs⟩)
  · rintro e rfl
    exact spans_not (balanced_sql e hd)

/-- A composite of a raw clause with parentheses and a negated composite. -/
def pricedOutside : Clause :=
  composite .and
    [raw "LEN(r_city) > 2",
      not (composite .or
        [oneOf "r_area" [.text "1", .text "2"], between "r_price" (.int 100) (.int 250)])]

/-- Commas, keywords and parentheses inside the elements leave the groups as they
are. -/
theorem pricedOutside_grouped :
    pricedOutside.BalancedTexts ∧
      pricedOutside.statement.text
        = "(LEN(r_city) > 2) AND (NOT ((r_area IN (?, ?)) OR (r_price BETWEEN ? AND ?)))" ∧
      spans pricedOutside.statement.text.toList
        = some [.group "LEN(r_city) > 2".toList, .outside " AND ".toList,
          .group "NOT ((r_area IN (?, ?)) OR (r_price BETWEEN ? AND ?))".toList] := by
  have htexts : pricedOutside.BalancedTexts := by decide +kernel
  have hgroups := ((grouped_as_combined htexts).2 _ List.mem_cons_self).1 _ _ rfl
  exact ⟨htexts, by decide +kernel, hgroups⟩

end Clause

end ListingMetadata.Query
