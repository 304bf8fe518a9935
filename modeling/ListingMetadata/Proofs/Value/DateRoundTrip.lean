/-
  ListingMetadata.Proofs.Value.DateRoundTrip
  ──────────────────────────────────────────
  **WHICH RENDERED DATES ARE READ BACK.**

  A date that was read is a whole second in universal time.  Its rendering is
  read as the same date if its year there has four digits, and otherwise in
  neither mode, as the zone of the text that was read can lead out of these
  years:

    • `parse_render_of_plainYear`  — years of four digits,
    • `not_parse_render_of_wide`   — all other years,
    • `date_read_back_iff`         — both.
-/
import ListingMetadata.Proofs.Calendar.Texts
import ListingMetadata.Value.Catalog
import ListingMetadata.Value.Reading

namespace ListingMetadata

open Calendar Text

namespace ValueType

variable {t : ValueType} {text : String} {d : Instant}

/-! ## §1. Dates that were read -/

theorem strict_date (hg : t.grammar = .date) (text : String) :
    t.strict text = match readInternet text with
      | .ok d => .ok (.date d.wholeSecond)
      | .error f => .error (.date f) := by
  obtain ⟨grammar, min, max, description⟩ := t
  cases hg
  rfl

theorem coerce?_date (hg : t.grammar = .date) (text : String) :
    t.coerce? text = (readAnyDate? text).map .date := by
  unfold coerce?
  simp only [hg]

/-- What strict reading takes is a date, and a whole second. -/
theorem exists_of_strict_date (hg : t.grammar = .date) {v : Value} (h : t.strict text = .ok v) :
    ∃ d : Instant, v = .date d ∧ d.nanos = 0 := by
  rw [strict_date hg] at h
  cases hread : readInternet text with
  | error f =>
    rw [hread] at h
    cases h
  | ok e =>
    rw [hread] at h
    cases h
    exact ⟨e.wholeSecond, rfl, rfl⟩

/-- A date that either mode reads is a whole second. -/
theorem nanos_of_parse (hg : t.grammar = .date) {mode : Bool}
    (h : t.parse text mode = .ok (.date d)) : d.nanos = 0 := by
  obtain hs | ⟨-, -, hc | ⟨-, hkept⟩⟩ := parse_cases h
  · obtain ⟨e, he, hnanos⟩ := exists_of_strict_date hg hs
    cases he
    exact hnanos
  · rw [coerce?_date hg] at hc
    obtain ⟨e, hread, he⟩ := Option.map_eq_some_iff.mp hc
    cases he
    exact nanos_of_readAnyDate? hread
  · cases hkept

/-! ## §2. Years of four digits -/

/-- **A whole second in a plain year is read back, in both modes.** -/
theorem parse_render_of_plainYear (hg : t.grammar = .date) (hn : d.nanos = 0)
    (hy : d.HasPlainYear) (mode : Bool) :
    t.parse (t.render (.date d)) mode = .ok (.date d) := by
  have hwhole : d.wholeSecond = d := by
    obtain ⟨seconds, nanos⟩ := d
    cases hn
    rfl
  have hstrict : t.strict (t.render (.date d)) = .ok (.date d) := by
    show t.strict d.text = _
    rw [strict_date hg, readInternet_text hn hy]
    show Except.ok (Value.date d.wholeSecond) = _
    rw [hwhole]
  unfold parse
  rw [hstrict]

/-! ## §3. All other years -/

/-- A text that begins with a sign and ends with a `Z` has no blanks to trim. -/
theorem trimmed_text_of_wide (hy : ¬ d.HasPlainYear) : trimmed d.text = d.text := by
  obtain ⟨c, cs, hc, htext⟩ := text_of_wide hy
  have hblank : isBlank c = false := by rcases hc with rfl | rfl <;> decide
  have htrim : trim d.text.toList = d.text.toList := by
    have hstart : trimStart (c :: (cs ++ ['Z'])) = c :: (cs ++ ['Z']) :=
      List.dropWhile_cons_of_neg (by simp [hblank])
    have hend : (c :: (cs ++ ['Z'])).reverse = 'Z' :: (c :: cs).reverse := by simp
    rw [htext]
    unfold trim trimEnd
    rw [hstart, hend, List.dropWhile_cons_of_neg (by decide), ← hend, List.reverse_reverse]
  unfold trimmed
  rw [htrim, String.ofList_toList]

/-- **Without a plain year the rendering is read as no date.** -/
theorem not_parse_render_of_wide (hg : t.grammar = .date) (hy : ¬ d.HasPlainYear) (mode : Bool)
    (e : Instant) : t.parse (t.render (.date d)) mode ≠ .ok (.date e) := by
  obtain ⟨c, cs, hc, htext⟩ := text_of_wide hy
  intro h
  have hread : t.parse d.text mode = .ok (.date e) := h
  unfold parse at hread
  rw [strict_date hg] at hread
  cases hi : readInternet d.text with
  | ok x => exact readInternet_of_sign hc htext x hi
  | error f =>
    rw [hi] at hread
    cases mode with
    | true => cases hread
    | false =>
      -- strict reading refuses it, and lenient reading keeps it as a text
      have hv : t.lenient d.text = .date e := Except.ok.inj hread
      unfold lenient at hv
      rw [coerce?_date hg, trimmed_text_of_wide hy, readAnyDate?_of_wide hy rfl] at hv
      cases hv

/-- **A date that was read is read back from its rendering exactly if its year in
universal time has four digits**; strict reading reads nothing but dates. -/
theorem date_read_back_iff (hg : t.grammar = .date) (text : String) :
    (∀ v, t.parse text true = .ok v → ∃ d, v = .date d) ∧
      ∀ mode d, t.parse text mode = .ok (.date d) →
        (t.parse (t.render (.date d)) mode = .ok (.date d) ↔
          0 ≤ d.date.year ∧ d.date.year ≤ 9999) := by
  constructor
  · intro v hv
    unfold parse at hv
    cases hs : t.strict text with
    | ok w =>
      rw [hs] at hv
      cases hv
      obtain ⟨d, hd, -⟩ := exists_of_strict_date hg hs
      exact ⟨d, hd⟩
    | error r =>
      rw [hs] at hv
      cases hv
  · intro mode d hd
    constructor
    · intro hback
      by_contra hy
      exact not_parse_render_of_wide hg hy mode d hback
    · intro hy
      exact parse_render_of_plainYear hg (nanos_of_parse hg hd) hy mode

/-- A summer noon in a zone behind universal time. -/
theorem summerNoon_read_back :
    Catalog.date.grammar = .date ∧
      Catalog.date.parse "2004-06-01T08:30:00-04:00" true = .ok (.date ⟨1086093000, 0⟩) ∧
      Catalog.date.parse (Catalog.date.render (.date ⟨1086093000, 0⟩)) true
        = .ok (.date ⟨1086093000, 0⟩) := by
  have hgrammar : Catalog.date.grammar = .date := by decide
  have hread : Catalog.date.parse "2004-06-01T08:30:00-04:00" true
      = .ok (.date ⟨1086093000, 0⟩) := by rfl
  have hyear : 0 ≤ (⟨1086093000, 0⟩ : Instant).date.year ∧
      (⟨1086093000, 0⟩ : Instant).date.year ≤ 9999 := by decide
  exact ⟨hgrammar, hread, ((date_read_back_iff hgrammar _).2 true _ hread).mpr hyear⟩

/-- The last second of the year 9999 in a zone behind universal time is in the
year 10000 there: it is read in both modes, and its rendering in neither. -/
theorem endOfCalendar_not_read_back :
    Catalog.date.parse "9999-12-31T23:59:59-01:00" true = .ok (.date ⟨253402304399, 0⟩) ∧
      Catalog.date.parse "9999-12-31T23:59:59-01:00" false = .ok (.date ⟨253402304399, 0⟩) ∧
      Catalog.date.render (.date ⟨253402304399, 0⟩) = "+10000-01-01T00:59:59Z" ∧
      Catalog.date.parse "+10000-01-01T00:59:59Z" true ≠ .ok (.date ⟨253402304399, 0⟩) ∧
      Catalog.date.parse "+10000-01-01T00:59:59Z" false ≠ .ok (.date ⟨253402304399, 0⟩) := by
  have hstrict : Catalog.date.parse "9999-12-31T23:59:59-01:00" true
      = .ok (.date ⟨253402304399, 0⟩) := by rfl
  have hlenient : Catalog.date.parse "9999-12-31T23:59:59-01:00" false
      = .ok (.date ⟨253402304399, 0⟩) := by rfl
  have hrender : Catalog.date.render (.date ⟨253402304399, 0⟩) = "+10000-01-01T00:59:59Z" := by
    decide
  exact ⟨hstrict, hlenient, hrender, by decide, by decide⟩

end ValueType

end ListingMetadata
