/-
  ListingMetadata.Proofs.Query.Operands
  ─────────────────────────────────────
  **WHEN NO OPERAND OF A STATEMENT IS EMPTY.**

  A composite of no elements is an empty statement.  That is harmless when it is
  the whole clause, but as an operand it stands in parentheses all the same, and
  an empty pair of parentheses is no predicate:

      AND of OR of nothing   is   ()

  While columns and raw clauses are plain texts, this is the only way in which a
  statement comes to hold an empty pair.

    • `Sealed`               — statements neither begin with a closing parenthesis
                               nor end with an opening one,
    • `pair_grouped`         — so a pair in parentheses was there before, or is new,
    • `pair_sql_iff`         — pairs in a statement, by induction on the clause,
    • `free_of_pairs_iff`    — clauses whose statements have none.
-/
import ListingMetadata.Proofs.Query.Parts

namespace ListingMetadata.Query

open Text

/-! ## §1. Empty pairs of parentheses -/

/-- A text holds an empty pair of parentheses. -/
def HoldsPair (cs : List Char) : Prop :=
  ['(', ')'] <:+: cs

instance (cs : List Char) : Decidable (HoldsPair cs) :=
  inferInstanceAs (Decidable (_ <:+: _))

/-- A text that makes no pair with what stands around it. -/
structure Sealed (cs : List Char) : Prop where
  head : cs.head? ≠ some ')'
  last : cs.getLast? ≠ some '('

theorem sealed_nil : Sealed [] :=
  ⟨by simp, by simp⟩

theorem sealed_of_unbracketed {cs : List Char} (h : Unbracketed cs) : Sealed cs where
  head hhead := h.2 (List.mem_of_mem_head? hhead)
  last hlast := h.1 (List.mem_of_getLast? hlast)

theorem Sealed.append {s t : List Char} (hs : Sealed s) (ht : Sealed t) : Sealed (s ++ t) where
  head := by
    rw [List.head?_append]
    cases h : s.head? with
    | none => exact ht.head
    | some c => exact fun he => hs.head (h.trans he)
  last := by
    rw [List.getLast?_append]
    cases h : t.getLast? with
    | none => exact hs.last
    | some c => exact fun he => ht.last (h.trans he)

theorem not_holdsPair_of_unbracketed {cs : List Char} (h : Unbracketed cs) : ¬ HoldsPair cs :=
  fun hp => h.1 (hp.subset List.mem_cons_self)

/-- **Two texts hold a pair when one of them does, unless one ends and the other
begins with half of it.** -/
theorem holdsPair_append {s t : List Char} (h : ¬ (s.getLast? = some '(' ∧ t.head? = some ')')) :
    HoldsPair (s ++ t) ↔ HoldsPair s ∨ HoldsPair t := by
  unfold HoldsPair
  rw [List.infix_append_iff]
  constructor
  · rintro (hp | hp | ⟨l, r, hsplit, hl, hr⟩)
    · exact Or.inl hp
    · exact Or.inr hp
    · -- the pair is all in one text, or cut in the middle
      match l, r, hsplit with
      | [], _, rfl => exact Or.inr hr.isInfix
      | [_], _, rfl =>
        obtain ⟨u, rfl⟩ := hl
        obtain ⟨v, rfl⟩ := hr
        exact absurd ⟨List.getLast?_concat, rfl⟩ h
      | [_, _], _, rfl => exact Or.inl hl.isInfix
  · rintro (hp | hp)
    · exact Or.inl hp
    · exact Or.inr (Or.inl hp)

theorem holdsPair_behind {s : List Char} (hs : Unbracketed s) (t : List Char) :
    HoldsPair (s ++ t) ↔ HoldsPair t := by
  rw [holdsPair_append fun h => (sealed_of_unbracketed hs).last h.1,
    or_iff_right (not_holdsPair_of_unbracketed hs)]

/-- **In parentheses a text holds a pair if it held one or is empty.** -/
theorem holdsPair_group {t : List Char} (ht : Sealed t) :
    HoldsPair ('(' :: (t ++ [')'])) ↔ t = [] ∨ HoldsPair t := by
  by_cases hne : t = []
  · subst hne
    exact ⟨fun _ => Or.inl rfl, fun _ => List.infix_refl _⟩
  · have hhead : (t ++ [')']).head? = t.head? := List.head?_append_of_ne_nil t hne
    have hopening : ¬ HoldsPair ['('] := by decide
    have hclosing : ¬ HoldsPair [')'] := by decide
    rw [← List.singleton_append, holdsPair_append (by rw [hhead]; exact fun h => ht.head h.2),
      holdsPair_append fun h => ht.last h.1]
    simp only [hopening, hclosing, hne, false_or, or_false]

theorem sealed_group (t : List Char) : Sealed ('(' :: (t ++ [')'])) where
  head := by simp
  last := by
    rw [← List.cons_append, List.getLast?_concat]
    decide

/-- Sealed texts with plain ones between them hold the pairs that they held. -/
theorem holdsPair_intercalate {separator : List Char} (hs : Unbracketed separator)
    {ts : List (List Char)} (h : ∀ t ∈ ts, Sealed t) :
    HoldsPair (separator.intercalate ts) ↔ ∃ t ∈ ts, HoldsPair t := by
  induction ts with
  | nil =>
    have hnone : ¬ HoldsPair [] := by decide
    simp only [List.not_mem_nil, false_and, exists_false, iff_false]
    exact hnone
  | cons t ts ih =>
    have ht := h t List.mem_cons_self
    cases ts with
    | nil =>
      rw [List.intercalate_singleton]
      simp only [List.mem_singleton, exists_eq_left]
    | cons u us =>
      rw [List.intercalate_cons_cons, List.append_assoc, holdsPair_append fun hc => ht.last hc.1,
        holdsPair_behind hs, ih fun v hv => h v (List.mem_cons_of_mem _ hv)]
      simp only [List.mem_cons, exists_eq_or_imp]

/-! ## §2. Statements of plain texts -/

namespace Clause

/-- No column or raw clause is empty or holds a parenthesis. -/
def PlainTexts (c : Clause) : Prop :=
  ∀ s ∈ c.texts, s ≠ "" ∧ Unbracketed s.toList

instance (c : Clause) : Decidable c.PlainTexts :=
  inferInstanceAs (Decidable (∀ s ∈ c.texts, s ≠ "" ∧ Unbracketed s.toList))

theorem PlainTexts.element {op : Junction} {cs : List Clause} (h : (composite op cs).PlainTexts)
    {c : Clause} (hc : c ∈ cs) : c.PlainTexts :=
  fun s hs => h s (mem_texts_composite.mpr ⟨c, hc, hs⟩)

/-- **A clause has an empty statement exactly when it combines nothing.** -/
theorem sql_eq_nil_iff {c : Clause} (h : c.PlainTexts) :
    c.sql = [] ↔ ∃ op, c = composite op [] := by
  constructor
  · intro hempty
    cases c using inductSql with
    | suffixed c text rest hc =>
      have htext := (h text (by rw [hc.texts]; exact List.mem_cons_self)).1
      rw [hc.sql, List.append_eq_nil_iff, String.toList_eq_nil_iff] at hempty
      exact absurd hempty.1 htext
    | never column => cases hempty
    | member column v vs =>
      rw [sql_oneOf] at hempty
      simp at hempty
    | not c _ =>
      rw [sql_not] at hempty
      simp at hempty
    | composite op cs _ =>
      cases cs with
      | nil => exact ⟨op, rfl⟩
      | cons c cs =>
        rw [sql_composite, List.map_cons] at hempty
        cases cs with
        | nil => simp [grouped] at hempty
        | cons d ds => simp [grouped, List.intercalate_cons_cons] at hempty
  · rintro ⟨op, rfl⟩
    rw [sql_composite]
    rfl

theorem sealed_sql (c : Clause) : c.PlainTexts → Sealed c.sql := by
  induction c using inductSql with
  | suffixed c text rest hc =>
    intro h
    have htext := (h text (by rw [hc.texts]; exact List.mem_cons_self)).2
    rw [hc.sql]
    exact (sealed_of_unbracketed htext).append (sealed_of_unbracketed hc.unbracketed)
  | never column =>
    intro _
    rw [sql_oneOf_nil]
    exact sealed_of_unbracketed (by decide)
  | member column v vs =>
    intro h
    have hcolumn := sealed_of_unbracketed (h column List.mem_cons_self).2
    have hin : Sealed " IN ".toList := sealed_of_unbracketed (by decide)
    rw [sql_oneOf]
    exact hcolumn.append (hin.append (sealed_group _))
  | not c _ =>
    intro _
    rw [sql_not]
    exact (sealed_of_unbracketed (by decide)).append (sealed_group _)
  | composite op cs _ =>
    intro _
    rw [sql_composite]
    apply intercalate_induct sealed_nil Sealed.append
      (sealed_of_unbracketed op.unbracketed_separator)
    intro t ht
    obtain ⟨c, -, rfl⟩ := List.mem_map.mp ht
    exact sealed_group c.sql

/-- **A statement holds an empty pair exactly when an operand is empty.** -/
theorem holdsPair_sql_iff (c : Clause) :
    c.PlainTexts → (HoldsPair c.sql ↔ ∃ d ∈ c.operands, d.sql = []) := by
  induction c using inductSql with
  | suffixed c text rest hc =>
    intro h
    have htext := (h text (by rw [hc.texts]; exact List.mem_cons_self)).2
    have hnone : ¬ HoldsPair c.sql := by
      rw [hc.sql, holdsPair_behind htext]
      exact not_holdsPair_of_unbracketed hc.unbracketed
    exact iff_of_false hnone (by simp [hc.operands])
  | never column =>
    intro _
    have hnone : ¬ HoldsPair "1 = 0".toList := by decide
    rw [sql_oneOf_nil]
    exact iff_of_false hnone (by simp [operands])
  | member column v vs =>
    intro h
    have hcolumn := (h column List.mem_cons_self).2
    have hmarks := unbracketed_markList (v :: vs)
    have hnone : markList (v :: vs) ≠ [] := by cases vs <;> exact List.cons_ne_nil _ _
    rw [sql_oneOf, holdsPair_behind hcolumn, holdsPair_behind (by decide),
      holdsPair_group (sealed_of_unbracketed hmarks)]
    simp [hnone, not_holdsPair_of_unbracketed hmarks, operands]
  | not c ih =>
    intro h
    rw [sql_not, holdsPair_behind (by decide), holdsPair_group (sealed_sql c h), ih h]
    simp [operands]
  | composite op cs ih =>
    intro h
    have hgrouped : ∀ t ∈ cs.map grouped, Sealed t := by
      intro t ht
      obtain ⟨c, -, rfl⟩ := List.mem_map.mp ht
      exact sealed_group c.sql
    rw [sql_composite, holdsPair_intercalate op.unbracketed_separator hgrouped]
    constructor
    · rintro ⟨t, ht, hp⟩
      obtain ⟨c, hc, rfl⟩ := List.mem_map.mp ht
      have hplain := h.element hc
      rcases (holdsPair_group (sealed_sql c hplain)).mp hp with hempty | hp
      · exact ⟨c, mem_operands_composite.mpr ⟨c, hc, Or.inl rfl⟩, hempty⟩
      · obtain ⟨d, hd, hempty⟩ := (ih c hc hplain).mp hp
        exact ⟨d, mem_operands_composite.mpr ⟨c, hc, Or.inr hd⟩, hempty⟩
    · rintro ⟨d, hd, hempty⟩
      obtain ⟨c, hc, hd⟩ := mem_operands_composite.mp hd
      have hplain := h.element hc
      refine ⟨c.grouped, List.mem_map_of_mem hc, (holdsPair_group (sealed_sql c hplain)).mpr ?_⟩
      rcases hd with rfl | hd
      · exact Or.inl hempty
      · exact Or.inr ((ih c hc hplain).mpr ⟨d, hd, hempty⟩)

/-! ## §3. Clauses without empty operands -/

/-- **A statement of plain texts is empty or free of empty pairs exactly when no
operand of its clause is a composite of nothing**, and these are just the
operands with an empty statement. -/
theorem free_of_pairs_iff {c : Clause} (h : c.PlainTexts) :
    ((c.statement.text = "" ∨ ¬ HoldsPair c.statement.text.toList) ↔
        ∀ op, composite op [] ∉ c.operands) ∧
      ((∀ d ∈ c.operands, d.statement.text ≠ "") ↔ ∀ op, composite op [] ∉ c.operands) := by
  have hempty : ∀ d : Clause, d.statement.text = "" ↔ d.sql = [] := by
    intro d
    rw [← toList_statement, String.toList_eq_nil_iff]
  have hoperands : (∀ d ∈ c.operands, d.sql ≠ []) ↔ ∀ op, composite op [] ∉ c.operands := by
    constructor
    · intro hne op hmem
      exact hne _ hmem (by rw [sql_composite]; rfl)
    · intro hnone d hd hnil
      obtain ⟨op, rfl⟩ := (sql_eq_nil_iff fun s hs => h s (texts_operands c d hd hs)).mp hnil
      exact hnone op hd
  have hpair : ¬ HoldsPair c.sql ↔ ∀ d ∈ c.operands, d.sql ≠ [] := by
    rw [holdsPair_sql_iff c h]
    push Not
    rfl
  simp only [hempty, ne_eq, toList_statement]
  refine ⟨?_, hoperands⟩
  rw [hpair, ← hoperands]
  refine ⟨?_, Or.inr⟩
  rintro (hnil | hne)
  · -- a clause with an empty statement has no operands
    obtain ⟨op, rfl⟩ := (sql_eq_nil_iff h).mp hnil
    intro d hd
    cases hd
  · exact hne

/-- Composites without elements are harmless where they are no operands. -/
theorem vacantSearch_free_of_pairs :
    (composite .and []).PlainTexts ∧
      (composite .or [raw "A", not (oneOf "r_area" [])]).PlainTexts ∧
      ((composite .and []).statement.text = "" ∨
        ¬ HoldsPair (composite .and []).statement.text.toList) ∧
      ((composite .or [raw "A", not (oneOf "r_area" [])]).statement.text = "" ∨
        ¬ HoldsPair (composite .or [raw "A", not (oneOf "r_area" [])]).statement.text.toList) := by
  have hempty : (composite .and []).PlainTexts := by decide
  have hfull : (composite .or [raw "A", not (oneOf "r_area" [])]).PlainTexts := by decide
  refine ⟨hempty, hfull, (free_of_pairs_iff hempty).1.mpr ?_, (free_of_pairs_iff hfull).1.mpr ?_⟩
  · intro op
    simp [operands, operandsAll]
  · intro op
    simp [operands, operandsAll]

/-- **A composite without elements is written as an empty pair where it is an
operand**, although no text of the clause is empty or holds a parenthesis. -/
theorem vacantOperand_holds_a_pair :
    (composite .and [composite .or []]).PlainTexts ∧
      ¬ ((composite .and [composite .or []]).statement.text = "" ∨
        ¬ HoldsPair (composite .and [composite .or []]).statement.text.toList) := by
  decide

end Clause

end ListingMetadata.Query
