/-
  ListingMetadata.Proofs.Value.Families
  ─────────────────────────────────────
  **WHAT IS READ IS OF THE FAMILY OF ITS TYPE.**

  Strict reading and coercion each have a branch for every grammar, and each branch
  makes values of one family, that of the type.  A number, a truth value or a date is
  coerced out of all texts that strict reading takes, so a text that is kept in the place
  of one is no such text, trimmed or not:

    • `family_of_strict`, `family_of_coerce?` — the branches,
    • `exists_coerce?_of_strict`              — coercion takes what strict reading takes,
    • `readsFamily`                           — both modes.
-/
import ListingMetadata.Proofs.Value.DateRoundTrip
import ListingMetadata.Proofs.Value.RoundTrip

namespace ListingMetadata

open Calendar Number Text

namespace ValueType

variable {t : ValueType} {text : String} {v : Value}

/-! ## §1. The families of the branches -/

theorem family_of_readVersion (hg : t.grammar = .version) (h : readVersion text = .ok v) :
    v.family = t.family := by
  obtain ⟨major, minor, release, -, -, rfl⟩ := readVersion_ok_iff.mp h
  unfold family
  rw [hg]
  rfl

/-- **What strict reading takes is of the family of the type.** -/
theorem family_of_strict (h : t.strict text = .ok v) : v.family = t.family := by
  have htext : t.family = .text → v.family = t.family := by
    intro hf
    cases eq_text_of_strict hf h
    exact hf.symm
  cases hg : t.grammar with
  | boolean =>
    unfold strict at h
    unfold family
    simp only [hg] at h ⊢
    split at h
    · cases h
      rfl
    · split at h
      · cases h
        rfl
      · cases h
  | date =>
    obtain ⟨d, rfl, -⟩ := exists_of_strict_date hg h
    unfold family
    rw [hg]
    rfl
  | numeric =>
    unfold strict at h
    unfold family
    simp only [hg] at h ⊢
    split at h
    · cases h
      rfl
    · cases h
  | positive =>
    unfold strict at h
    unfold family
    simp only [hg] at h ⊢
    split at h
    · split at h
      · cases h
        rfl
      · cases h
    · cases h
  | version =>
    unfold strict at h
    simp only [hg] at h
    exact family_of_readVersion hg h
  | _ => exact htext (by unfold family; rw [hg])

/-- **What a text is coerced into is of the family of the type.** -/
theorem family_of_coerce? (h : t.coerce? text = some v) : v.family = t.family := by
  unfold coerce? at h
  cases hg : t.grammar with
  | boolean =>
    unfold family
    simp only [hg] at h ⊢
    split at h
    · cases h
      rfl
    · split at h
      · cases h
        rfl
      · cases h
  | date =>
    unfold family
    simp only [hg] at h ⊢
    obtain ⟨d, -, rfl⟩ := Option.map_eq_some_iff.mp h
    rfl
  | numeric =>
    unfold family
    simp only [hg] at h ⊢
    obtain ⟨n, -, rfl⟩ := Option.map_eq_some_iff.mp h
    rfl
  | positive =>
    unfold family
    simp only [hg] at h ⊢
    split at h
    · split at h
      · cases h
        rfl
      · cases h
    · cases h
  | version =>
    simp only [hg] at h
    cases hread : readVersion text with
    | error r =>
      rw [hread] at h
      cases h
    | ok w =>
      rw [hread] at h
      cases h
      exact family_of_readVersion hg hread
  | choice values =>
    unfold family
    simp only [hg] at h ⊢
    obtain ⟨value, -, rfl⟩ := Option.map_eq_some_iff.mp h
    rfl
  | _ => simp [hg] at h

/-! ## §2. Coercion takes what strict reading takes -/

/-- **A number, a truth value or a date that strict reading takes is coerced too.** -/
theorem exists_coerce?_of_strict (hf : t.family ≠ .text) (h : t.strict text = .ok v) :
    ∃ w, t.coerce? text = some w := by
  cases hg : t.grammar with
  | boolean =>
    unfold strict at h
    unfold coerce?
    simp only [hg] at h ⊢
    split at h
    · rename_i hone
      subst hone
      exact ⟨.bool true, by decide⟩
    · split at h
      · rename_i hzero
        subst hzero
        exact ⟨.bool false, by decide⟩
      · cases h
  | date =>
    rw [strict_date hg] at h
    cases hread : readInternet text with
    | error f =>
      rw [hread] at h
      cases h
    | ok d =>
      rw [coerce?_date hg]
      unfold readAnyDate?
      simp only [List.findSome?_cons, hread]
      exact ⟨_, rfl⟩
  | numeric =>
    unfold strict at h
    unfold coerce?
    simp only [hg] at h ⊢
    split at h
    · rename_i n hread
      rw [hread]
      exact ⟨.int n, rfl⟩
    · cases h
  | positive =>
    unfold strict at h
    unfold coerce?
    simp only [hg] at h ⊢
    split at h
    · rename_i hgroup
      split at h
      · rename_i n hread
        exact ⟨.int n, if_pos (nonneg_of_readInt hgroup hread)⟩
      · cases h
    · cases h
  | version =>
    unfold strict at h
    unfold coerce?
    simp only [hg] at h ⊢
    rw [h]
    exact ⟨v, rfl⟩
  | _ => exact absurd (by unfold family; rw [hg]) hf

/-! ## §3. Both modes -/

/-- A text is read as the family of a type says. -/
structure ReadsFamily (t : ValueType) (text : String) : Prop where
  /-- What strict reading takes is of the family. -/
  strict : ∀ v, t.parse text true = .ok v → v.family = t.family
  /-- Lenient reading gives what strict reading does, or a value of the family, or the
  text as it stands. -/
  lenient : ∃ v, t.parse text false = .ok v ∧
    (t.parse text true = .ok v ∨ v.family = t.family ∨ v = .text text)
  /-- Where it gives a text in the place of a number, a truth value or a date, strict
  reading takes it neither as it stands nor trimmed. -/
  kept : t.family ≠ .text → ∀ s, t.parse text false = .ok (.text s) → s = text ∧
    (∃ f, t.parse text true = .error f) ∧ ∃ f, t.parse (trimmed text) true = .error f

theorem exists_parse_error {reason : Reason} (h : t.strict text = .error reason) :
    ∃ f, t.parse text true = .error f := by
  unfold parse
  rw [h]
  exact ⟨_, rfl⟩

/-- **Each type reads each text as its family says.** -/
theorem readsFamily (t : ValueType) (text : String) : t.ReadsFamily text where
  strict v hv := by
    obtain hs | ⟨hmode, -⟩ := parse_cases hv
    · exact family_of_strict hs
    · cases hmode
  lenient := by
    obtain ⟨v, hv⟩ := exists_parse_lenient t text
    refine ⟨v, hv, ?_⟩
    obtain hs | ⟨-, -, hc | ⟨-, hkept⟩⟩ := parse_cases hv
    · exact Or.inl (parse_of_strict hs true)
    · exact Or.inr (Or.inl (family_of_coerce? hc))
    · exact Or.inr (Or.inr hkept)
  kept hf s hv := by
    obtain hs | ⟨-, ⟨reason, herror⟩, hc | ⟨hnone, hkept⟩⟩ := parse_cases hv
    · exact absurd (family_of_strict hs).symm hf
    · exact absurd (family_of_coerce? hc).symm hf
    · cases hkept
      refine ⟨rfl, exists_parse_error herror, ?_⟩
      -- strict reading of the trimmed text would have been a coercion
      cases htrimmed : t.strict (trimmed text) with
      | error reason => exact exists_parse_error htrimmed
      | ok w =>
        obtain ⟨u, hu⟩ := exists_coerce?_of_strict hf htrimmed
        rw [hnone] at hu
        cases hu

end ValueType

end ListingMetadata
