/-
  ListingMetadata.Proofs.Value.RoundTrip
  ──────────────────────────────────────
  **RENDERED VALUES ARE READ BACK.**

  Whatever a text of a type other than a date is read as, its rendering is read
  as the same value in the same mode.  What follows the grammar, or was coerced
  into it, renders to a text that follows the grammar; a text that was kept
  renders to itself:

    • `strict_render_of_strict`  — what follows the grammar,
    • `strict_render_of_coerce?` — what was coerced,
    • `parse_render`             — both modes.
-/
import ListingMetadata.Proofs.Value.Versions

namespace ListingMetadata

open Number Text

/-! ## §1. What follows the grammar -/

namespace ValueType

variable {t : ValueType}

theorem strict_version_of_readVersion (hg : t.grammar = .version) {text : String} {v : Value}
    (h : readVersion text = .ok v) : t.strict (t.render v) = .ok v := by
  obtain ⟨major, minor, release, -, hv, rfl⟩ := readVersion_ok_iff.mp h
  have hread := readVersion_versionText hv
  unfold strict render
  simp only [hg]
  exact hread

theorem strict_bit (hg : t.grammar = .boolean) (b : Bool) :
    t.strict (t.render (.bool b)) = .ok (.bool b) := by
  unfold strict render
  simp only [hg]
  cases b <;> rfl

theorem strict_numeric (hg : t.grammar = .numeric) {v : Int} (hv : IsInt v) :
    t.strict (t.render (.int v)) = .ok (.int v) := by
  unfold strict render showInt
  simp only [hg, String.toList_ofList, readInt_shown hv]

theorem strict_positive (hg : t.grammar = .positive) {v : Int} (hv : IsInt v) (hpos : 0 ≤ v) :
    t.strict (t.render (.int v)) = .ok (.int v) := by
  obtain ⟨n, rfl⟩ := Int.eq_ofNat_of_zero_le hpos
  have hgroup : isDigitGroup (shown n) = true := by
    rw [shown_natCast]
    exact isDigitGroup_iff.mpr ⟨digits_ne_nil n, allDigits_digits n⟩
  unfold strict render showInt
  simp only [hg, String.toList_ofList, hgroup, readInt_shown hv, if_true]

/-- A grammar of characters, of words or of zones takes a text as it stands. -/
theorem eq_text_of_strict (hf : t.family = .text) {text : String} {v : Value}
    (h : t.strict text = .ok v) : v = .text text := by
  have hplain : ∀ allowed : Char → Bool,
      (do t.checkLength text.toList; checkCharacters allowed text.toList; .ok (.text text) :
        Except Reason Value) = .ok v → v = .text text := by
    intro allowed h
    cases hlength : t.checkLength text.toList with
    | error r =>
      rw [hlength] at h
      cases h
    | ok _ =>
      cases hcharacters : checkCharacters allowed text.toList with
      | error r =>
        rw [hlength, hcharacters] at h
        cases h
      | ok _ =>
        rw [hlength, hcharacters] at h
        cases h
        rfl
  unfold family at hf
  unfold strict at h
  cases hg : t.grammar with
  | alphanum => simp only [hg] at h; exact hplain _ h
  | identifier => simp only [hg] at h; exact hplain _ h
  | plaintext => simp only [hg] at h; exact hplain _ h
  | text => simp only [hg] at h; exact hplain _ h
  | characters allowed => simp only [hg] at h; exact hplain _ h
  | choice values =>
    simp only [hg] at h
    split at h
    · cases h
      rfl
    · cases h
  | timeZone =>
    simp only [hg] at h
    split at h
    · cases h
      rfl
    · cases h
  | _ => simp [hg] at hf

/-- **What follows the grammar renders to a text that does.** -/
theorem strict_render_of_strict (hd : t.grammar ≠ .date) {text : String} {v : Value}
    (h : t.strict text = .ok v) : t.strict (t.render v) = .ok v := by
  have htext : t.family = .text → t.strict (t.render v) = .ok v := by
    intro hf
    cases eq_text_of_strict hf h
    exact h
  cases hg : t.grammar with
  | boolean =>
    unfold strict at h
    simp only [hg] at h
    split at h
    · cases h
      exact strict_bit hg true
    · split at h
      · cases h
        exact strict_bit hg false
      · cases h
  | date => exact absurd hg hd
  | numeric =>
    unfold strict at h
    simp only [hg] at h
    split at h
    · rename_i n hread
      cases h
      exact strict_numeric hg (isInt_of_readInt hread)
    · cases h
  | positive =>
    unfold strict at h
    simp only [hg] at h
    split at h
    · rename_i hgroup
      split at h
      · rename_i n hread
        cases h
        exact strict_positive hg (isInt_of_readInt hread) (nonneg_of_readInt hgroup hread)
      · cases h
    · cases h
  | version =>
    unfold strict at h
    simp only [hg] at h
    exact strict_version_of_readVersion hg h
  | _ => exact htext (by unfold family; rw [hg])

/-! ## §2. What is coerced -/

/-- **What is coerced renders to a text that follows the grammar.** -/
theorem strict_render_of_coerce? (hd : t.grammar ≠ .date) {text : String} {v : Value}
    (h : t.coerce? text = some v) : t.strict (t.render v) = .ok v := by
  unfold coerce? at h
  cases hg : t.grammar with
  | boolean =>
    simp only [hg] at h
    split at h
    · cases h
      exact strict_bit hg true
    · split at h
      · cases h
        exact strict_bit hg false
      · cases h
  | date => exact absurd hg hd
  | numeric =>
    simp only [hg] at h
    cases hread : readInt text.toList with
    | error f =>
      rw [hread] at h
      cases h
    | ok n =>
      rw [hread] at h
      cases h
      exact strict_numeric hg (isInt_of_readInt hread)
  | positive =>
    simp only [hg] at h
    split at h
    · rename_i n hread
      split at h
      · rename_i hpos
        cases h
        exact strict_positive hg (isInt_of_readInt hread) hpos
      · cases h
    · cases h
  | version =>
    simp only [hg] at h
    cases hread : readVersion text with
    | error r =>
      rw [hread] at h
      cases h
    | ok n =>
      rw [hread] at h
      cases h
      exact strict_version_of_readVersion hg hread
  | choice values =>
    simp only [hg] at h
    obtain ⟨value, hfind, rfl⟩ := Option.map_eq_some_iff.mp h
    -- one of the values themselves was taken
    have hmem : value ∈ values := List.mem_of_find?_eq_some hfind
    show t.strict value = .ok (.text value)
    unfold strict
    simp only [hg, if_pos hmem]
  | _ => simp [hg] at h

/-! ## §3. Both modes -/

theorem parse_of_strict {text : String} {v : Value} (h : t.strict text = .ok v) (mode : Bool) :
    t.parse text mode = .ok v := by
  unfold parse
  rw [h]

/-- Lenient reading never fails. -/
theorem exists_parse_lenient (t : ValueType) (text : String) :
    ∃ v, t.parse text false = .ok v := by
  unfold parse
  cases t.strict text with
  | ok v => exact ⟨v, rfl⟩
  | error r => exact ⟨t.lenient text, rfl⟩

/-- What either mode reads follows the grammar when rendered, or is the text as it
stands. -/
theorem strict_render_or_kept (hd : t.grammar ≠ .date) {text : String} {mode : Bool} {v : Value}
    (h : t.parse text mode = .ok v) : t.strict (t.render v) = .ok v ∨ v = .text text := by
  obtain hs | ⟨-, -, hc | ⟨-, hkept⟩⟩ := parse_cases h
  · exact Or.inl (strict_render_of_strict hd hs)
  · exact Or.inl (strict_render_of_coerce? hd hc)
  · exact Or.inr hkept

/-- **A rendered value is read back**, in the mode that read it; lenient reading
always reads one, and the rendering is a form that renders to itself. -/
theorem parse_render (t : ValueType) (hd : t.grammar ≠ .date) (text : String) (mode : Bool) :
    (mode = false → ∃ v, t.parse text mode = .ok v) ∧
      ∀ v, t.parse text mode = .ok v →
        t.parse (t.render v) mode = .ok v ∧
          (t.parse (t.render v) mode).map t.render = .ok (t.render v) := by
  have hback : ∀ v, t.parse text mode = .ok v → t.parse (t.render v) mode = .ok v := by
    intro v hv
    rcases strict_render_or_kept hd hv with hs | rfl
    · exact parse_of_strict hs mode
    · exact hv
  constructor
  · intro hm
    subst hm
    exact exists_parse_lenient t text
  · intro v hv
    refine ⟨hback v hv, ?_⟩
    rw [hback v hv]
    rfl

/-- A version with short numbers, and a blank in front, is read leniently and
rendered with its numbers filled. -/
theorem shortVersion_read_back :
    Catalog.version.grammar ≠ .date ∧
      Catalog.version.parse " 1.0.12" false = .ok (.int 10000012) ∧
      Catalog.version.render (.int 10000012) = "1.00.00012" ∧
      Catalog.version.parse (Catalog.version.render (.int 10000012)) false = .ok (.int 10000012) := by
  have hgrammar : Catalog.version.grammar ≠ .date := by decide
  have hread : Catalog.version.parse " 1.0.12" false = .ok (.int 10000012) := by rfl
  have hback := (parse_render Catalog.version hgrammar " 1.0.12" false).2 _ hread
  exact ⟨hgrammar, hread, by decide, hback.1⟩

end ValueType

end ListingMetadata
