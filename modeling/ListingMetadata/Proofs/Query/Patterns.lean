/-
  ListingMetadata.Proofs.Query.Patterns
  ─────────────────────────────────────
  **WHAT A PATTERN MATCHES.**

  In a pattern a percent sign stands for any run of characters, an underscore for
  any one, and a backslash makes the character behind it stand for itself.  The
  patterns of clauses escape the text that they look for, so they find that text
  and nothing like it:

      50%_off     is looked for as     50\%\_off%     or     %50\%\_off%

    • `tried_iff`             — a matcher that goes back, for what marks match,
    • `escapedPattern_eq`     — the marks escaped one after the other,
    • `marks?_escapedPattern` — an escaped text is read as its own characters,
    • `like_startPattern_iff`, `like_partPattern_iff` — the two patterns,
    • `parameters_like_iff`   — the parameters of the two clauses.
-/
import ListingMetadata.Proofs.Query.Writing

namespace ListingMetadata.Query

/-! ## §1. Marks and what they match -/

/-- What stands in a pattern. -/
inductive Mark where
  /-- Any run of characters. -/
  | run
  /-- Any one character. -/
  | one
  | itself (c : Char)
deriving DecidableEq, Repr

/-- The marks of a pattern with backslash as its escape character.  A pattern may
not end with an escape. -/
def marks? : List Char → Option (List Mark)
  | [] => some []
  | '%' :: p => (marks? p).map (.run :: ·)
  | '_' :: p => (marks? p).map (.one :: ·)
  | ['\\'] => none
  | '\\' :: c :: p => (marks? p).map (.itself c :: ·)
  | c :: p => (marks? p).map (.itself c :: ·)

/-- The characters are, one after the other, what the marks stand for. -/
def Match : List Mark → List Char → Prop
  | [], s => s = []
  | .run :: ms, s => ∃ skipped rest, s = skipped ++ rest ∧ Match ms rest
  | .one :: ms, s => ∃ c rest, s = c :: rest ∧ Match ms rest
  | .itself c :: ms, s => ∃ rest, s = c :: rest ∧ Match ms rest

/-- A text is like a pattern. -/
def Like (pattern text : String) : Prop :=
  ∃ ms, marks? pattern.toList = some ms ∧ Match ms text.toList

/-! ## §2. Matching by trying -/

/-- Some end of a text passes a test; the whole text is tried first. -/
def someEnd (test : List Char → Bool) : List Char → Bool
  | [] => test []
  | c :: cs => test (c :: cs) || someEnd test cs

theorem someEnd_iff {test : List Char → Bool} {cs : List Char} :
    someEnd test cs = true ↔ ∃ skipped rest, cs = skipped ++ rest ∧ test rest = true := by
  induction cs with
  | nil => simp [someEnd, and_assoc]
  | cons c cs ih =>
    rw [someEnd, Bool.or_eq_true, ih]
    constructor
    · rintro (h | ⟨skipped, rest, rfl, h⟩)
      · exact ⟨[], c :: cs, rfl, h⟩
      · exact ⟨c :: skipped, rest, rfl, h⟩
    · rintro ⟨skipped, rest, hsplit, h⟩
      cases skipped with
      | nil =>
        rw [List.nil_append] at hsplit
        exact .inl (hsplit ▸ h)
      | cons d skipped =>
        obtain ⟨rfl, rfl⟩ := List.cons.inj hsplit
        exact .inr ⟨skipped, rest, rfl, h⟩

/-- The marks tried one by one: a run skips nothing at first, and one character more
whenever the marks behind it fail. -/
def tried : List Mark → List Char → Bool
  | [], s => s.isEmpty
  | .run :: ms, s => someEnd (tried ms) s
  | .one :: _, [] => false
  | .one :: ms, _ :: s => tried ms s
  | .itself _ :: _, [] => false
  | .itself c :: ms, d :: s => d == c && tried ms s

/-- **Trying finds exactly what the marks match.** -/
theorem tried_iff {ms : List Mark} {s : List Char} : tried ms s = true ↔ Match ms s := by
  induction ms generalizing s with
  | nil => rw [tried, Match, List.isEmpty_iff]
  | cons m ms ih =>
    cases m with
    | run => simp only [tried, Match, someEnd_iff, ih]
    | one =>
      cases s with
      | nil => simp [tried, Match]
      | cons d s => simp [tried, Match, ih, and_assoc]
    | itself c =>
      cases s with
      | nil => simp [tried, Match]
      | cons d s => simp [tried, Match, ih, and_assoc]

instance (ms : List Mark) (s : List Char) : Decidable (Match ms s) :=
  decidable_of_iff _ tried_iff

instance (pattern text : String) : Decidable (Like pattern text) :=
  match h : marks? pattern.toList with
  | none => isFalse fun ⟨_, hms, _⟩ => by simp [h] at hms
  | some ms => decidable_of_iff (Match ms text.toList) (by simp [Like, h])

/-! ## §3. Escaped texts -/

/-- One of the marks escaped wherever it stands. -/
def markEscaped (mark : Char) (cs : List Char) : List Char :=
  cs.flatMap fun c => if c = mark then ['\\', c] else [c]

/-- **The marks can be escaped one after the other**, if the backslash comes first: the
backslashes in front of the other marks are not escaped again. -/
theorem escapedPattern_eq (s : String) :
    escapedPattern s = markEscaped '_' (markEscaped '%' (markEscaped '\\' s.toList)) := by
  unfold escapedPattern markEscaped
  rw [List.flatMap_assoc, List.flatMap_assoc]
  congr 1
  funext c
  unfold escapedInPattern
  by_cases hslash : c = '\\'
  · subst hslash
    rfl
  by_cases hpercent : c = '%'
  · subst hpercent
    rfl
  by_cases hline : c = '_'
  · subst hline
    rfl
  · simp [hslash, hpercent, hline]

-- with the backslash last its own escapes would be escaped
example : markEscaped '\\' (markEscaped '%' ['%']) ≠ escapedPattern "%" := by
  decide

/-- **An escaped text is read as its own characters**, before any pattern. -/
theorem marks?_escapedPattern (cs p : List Char) :
    marks? (cs.flatMap escapedInPattern ++ p) = (marks? p).map (cs.map .itself ++ ·) := by
  induction cs with
  | nil => simp
  | cons c cs ih =>
    have hfirst : ∀ q, marks? (escapedInPattern c ++ q) = (marks? q).map (.itself c :: ·) := by
      intro q
      unfold escapedInPattern
      split
      · rfl
      · rename_i hc
        rw [not_or, not_or] at hc
        rw [List.singleton_append, marks?]
        · exact fun h => hc.2.1 h
        · exact fun h => hc.2.2 h
        · exact fun h _ => hc.1 h
        · exact fun _ _ h _ => hc.1 h
    rw [List.flatMap_cons, List.append_assoc, hfirst, ih, Option.map_map]
    rfl

/-- Characters that stand for themselves match a text that begins with them. -/
theorem match_itself_append (cs : List Char) (ms : List Mark) (s : List Char) :
    Match (cs.map .itself ++ ms) s ↔ ∃ rest, s = cs ++ rest ∧ Match ms rest := by
  induction cs generalizing s with
  | nil => simp
  | cons c cs ih =>
    rw [List.map_cons, List.cons_append, Match]
    constructor
    · rintro ⟨r, rfl, hr⟩
      obtain ⟨rest, rfl, h⟩ := (ih r).mp hr
      exact ⟨rest, rfl, h⟩
    · rintro ⟨rest, hsplit, h⟩
      exact ⟨cs ++ rest, hsplit, (ih _).mpr ⟨rest, rfl, h⟩⟩

/-- A run at the end matches whatever is left. -/
theorem match_run (s : List Char) : Match [.run] s :=
  ⟨s, [], (List.append_nil s).symm, rfl⟩

theorem marks?_startPattern (start : String) :
    marks? (startPattern start).toList = some (start.toList.map .itself ++ [.run]) := by
  rw [startPattern, String.toList_ofList]
  exact marks?_escapedPattern start.toList ['%']

theorem marks?_partPattern (part : String) :
    marks? (partPattern part).toList = some (.run :: (part.toList.map .itself ++ [.run])) := by
  rw [partPattern, String.toList_ofList, marks?]
  exact congrArg (Option.map (.run :: ·)) (marks?_escapedPattern part.toList ['%'])

/-! ## §4. The patterns of clauses -/

/-- **The pattern for a start is that of the texts that start with it.** -/
theorem like_startPattern_iff (start s : String) :
    Like (startPattern start) s ↔ start.toList <+: s.toList := by
  simp only [Like, marks?_startPattern, Option.some.injEq, exists_eq_left', match_itself_append]
  constructor
  · rintro ⟨rest, hsplit, -⟩
    exact ⟨rest, hsplit.symm⟩
  · rintro ⟨rest, hsplit⟩
    exact ⟨rest, hsplit.symm, match_run rest⟩

/-- **The pattern for a part is that of the texts that it stands in.** -/
theorem like_partPattern_iff (part s : String) :
    Like (partPattern part) s ↔ part.toList <:+: s.toList := by
  simp only [Like, marks?_partPattern, Option.some.injEq, exists_eq_left', Match,
    match_itself_append]
  constructor
  · rintro ⟨skipped, _, hsplit, rest, rfl, -⟩
    exact ⟨skipped, rest, by rw [hsplit, List.append_assoc]⟩
  · rintro ⟨skipped, rest, hsplit⟩
    exact ⟨skipped, part.toList ++ rest, by rw [← hsplit, List.append_assoc], rest, rfl,
      match_run rest⟩

example : Like "%50_%" "up to 500 of them" ∧ ¬ Like (partPattern "50_") "up to 500 of them" := by
  decide

theorem boundStatement_likePieces (column pattern : String) :
    boundStatement (likePieces column pattern)
      = ⟨column ++ " LIKE ? ESCAPE '\\'", [.text pattern]⟩ := by
  rw [boundStatement_eq]
  congr 1
  apply String.toList_inj.mp
  simp [likePieces, Piece.marked]

namespace Clause

/-- **The parameter of a match is a pattern of exactly the texts that the clause
looks for.**  Whatever percent signs, underscores and backslashes the text holds,
with backslash as the escape character that the statement names the parameter of
`startsWith` is a pattern of the texts that start with the given one, and that of
`contains` a pattern of those in which it stands. -/
theorem parameters_like_iff (column text : String) :
    (∃ pattern, (startsWith column text).statement
        = ⟨column ++ " LIKE ? ESCAPE '\\'", [.text pattern]⟩ ∧
      ∀ s, Like pattern s ↔ text.toList <+: s.toList) ∧
    ∃ pattern, (contains column text).statement
        = ⟨column ++ " LIKE ? ESCAPE '\\'", [.text pattern]⟩ ∧
      ∀ s, Like pattern s ↔ text.toList <:+: s.toList :=
  ⟨⟨startPattern text, boundStatement_likePieces _ _, like_startPattern_iff text⟩,
    ⟨partPattern text, boundStatement_likePieces _ _, like_partPattern_iff text⟩⟩

end Clause

end ListingMetadata.Query
