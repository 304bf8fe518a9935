/-
  ListingMetadata.Proofs.Value.Characters
  ───────────────────────────────────────
  **THE CHARACTERS OF RENDERED VALUES.**

  Numbers, versions, dates and zones are written in figures: digits, signs,
  points, colons and the two letters of a date.  What strict reading takes
  renders to printable characters, with one exception: free text may hold tabs
  and line breaks, and renders to what was read:

    • `ofFigures_text`                — the text of a date,
    • `ofFigures_versionText`         — the text of a version,
    • `allPrintable_render_of_strict` — every grammar but free text.
-/
import ListingMetadata.Proofs.Value.RoundTrip
import ListingMetadata.Proofs.Value.Zones

namespace ListingMetadata

open Calendar Number Text

/-! ## §1. Figures -/

/-- A character of numbers, versions, dates and zones. -/
def isFigure (c : Char) : Bool :=
  c.isDigit || ['-', '+', ':', '.', 'T', 'Z'].contains c

/-- Only figures. -/
def OfFigures (cs : List Char) : Prop :=
  ∀ c ∈ cs, isFigure c = true

theorem OfFigures.append {cs ds : List Char} (h : OfFigures cs) (h' : OfFigures ds) :
    OfFigures (cs ++ ds) := by
  intro c hc
  rcases List.mem_append.mp hc with hc | hc
  · exact h c hc
  · exact h' c hc

theorem OfFigures.cons {c : Char} {cs : List Char} (h : isFigure c = true) (h' : OfFigures cs) :
    OfFigures (c :: cs) := by
  intro d hd
  rcases List.mem_cons.mp hd with rfl | hd
  · exact h
  · exact h' d hd

theorem ofFigures_of_allDigits {cs : List Char} (h : AllDigits cs) : OfFigures cs := by
  intro c hc
  unfold isFigure
  rw [h c hc, Bool.true_or]

theorem ofFigures_nil : OfFigures [] := by
  intro c hc
  cases hc

theorem ofFigures_shown (v : Int) : OfFigures (shown v) := by
  unfold shown
  split
  · exact .cons (by decide) (ofFigures_of_allDigits (allDigits_digits _))
  · exact ofFigures_of_allDigits (allDigits_digits _)

theorem ofFigures_padded (width : Nat) (v : Int) : OfFigures (padded width v) := by
  unfold padded
  split
  · exact .cons (by decide) (ofFigures_of_allDigits (allDigits_zeroFilled _ _))
  · exact ofFigures_of_allDigits (allDigits_zeroFilled _ _)

/-- A single figure. -/
theorem ofFigures_mark {c : Char} (h : isFigure c = true) : OfFigures [c] :=
  .cons h ofFigures_nil

theorem ofFigures_yearText (year : Int) : OfFigures (yearText year) := by
  unfold yearText
  split
  · exact ofFigures_padded 4 year
  · split
    · exact ofFigures_padded 5 year
    · exact .cons (by decide) (ofFigures_padded 4 year)

/-- **The text of a date, whatever its year.** -/
theorem ofFigures_text (t : Instant) : OfFigures t.text.toList := by
  have hdate : OfFigures t.date.text := by
    unfold Date.text
    exact ((((ofFigures_yearText _).append (ofFigures_mark (by decide))).append
      (ofFigures_padded 2 _)).append (ofFigures_mark (by decide))).append (ofFigures_padded 2 _)
  have hclock : OfFigures t.clockText := by
    unfold Instant.clockText
    exact ((((ofFigures_padded 2 _).append (ofFigures_mark (by decide))).append
      (ofFigures_padded 2 _)).append (ofFigures_mark (by decide))).append (ofFigures_padded 2 _)
  unfold Instant.text
  rw [String.toList_ofList]
  exact ((hdate.append (ofFigures_mark (by decide))).append hclock).append
    (ofFigures_mark (by decide))

/-- **The text of a version, or of any other number taken for one.** -/
theorem ofFigures_versionText (v : Int) : OfFigures (versionText v).toList := by
  unfold versionText
  rw [String.toList_ofList]
  exact ((((ofFigures_shown _).append (ofFigures_mark (by decide))).append
    (ofFigures_padded 2 _)).append (ofFigures_mark (by decide))).append (ofFigures_padded 5 _)

/-- A time zone is written in figures. -/
theorem ofFigures_of_isZoneText {text : String} (h : isZoneText text = true) :
    OfFigures text.toList := by
  rcases isZoneText_iff.mp h with rfl | ⟨sign, hours, minutes, htext, hsign, hhours, hminutes⟩
  · exact ofFigures_mark (by decide)
  · have hfirst : isFigure sign = true := by rcases hsign with rfl | rfl <;> decide
    rw [htext]
    exact .cons hfirst ((ofFigures_of_allDigits hhours.digits).append
      (.cons (by decide) (ofFigures_of_allDigits hminutes.digits)))

/-! ## §2. Printable characters -/

/-- Only printable characters. -/
def AllPrintable (cs : List Char) : Prop :=
  ∀ c ∈ cs, isPrintable c = true

theorem isPrintable_iff {c : Char} : isPrintable c = true ↔ 32 ≤ c.toNat ∧ c.toNat ≤ 126 := by
  unfold isPrintable
  rw [Bool.and_eq_true, decide_eq_true_eq, decide_eq_true_eq]
  exact Iff.rfl

theorem isPrintable_of_isAlphanum {c : Char} (h : c.isAlphanum = true) : isPrintable c = true := by
  rw [isPrintable_iff]
  rcases Bool.or_eq_true_iff.mp h with h | h
  · rcases Bool.or_eq_true_iff.mp h with h | h
    · obtain ⟨hlow, hhigh⟩ : 65 ≤ c.toNat ∧ c.toNat ≤ 90 := of_decide_eq_true h
      omega
    · obtain ⟨hlow, hhigh⟩ := Bool.and_eq_true_iff.mp h
      have hlow : 97 ≤ c.toNat := of_decide_eq_true hlow
      have hhigh : c.toNat ≤ 122 := of_decide_eq_true hhigh
      omega
  · have hbounds := toNat_bounds_of_isDigit h
    omega

theorem isPrintable_of_isFigure {c : Char} (h : isFigure c = true) : isPrintable c = true := by
  unfold isFigure at h
  rcases Bool.or_eq_true_iff.mp h with h | h
  · have hbounds := toNat_bounds_of_isDigit h
    rw [isPrintable_iff]
    omega
  · have hmarks : ∀ d ∈ ['-', '+', ':', '.', 'T', 'Z'], isPrintable d = true :=
      List.all_eq_true.mp (by decide)
    exact hmarks c (by simpa using h)

theorem OfFigures.allPrintable {cs : List Char} (h : OfFigures cs) : AllPrintable cs :=
  fun c hc => isPrintable_of_isFigure (h c hc)

/-- A character that is not printable is not among printable ones. -/
theorem AllPrintable.notMem {cs : List Char} (h : AllPrintable cs) {c : Char}
    (hc : isPrintable c = false) : c ∉ cs := by
  intro hmem
  rw [h c hmem] at hc
  cases hc

/-- A grammar that takes printable characters only. -/
def Grammar.IsPrintable : Grammar → Prop
  | .text => False
  | .characters allowed => AllPrintable allowed.toList
  | .choice values => ∀ v ∈ values, AllPrintable v.toList
  | _ => True

instance (cs : List Char) : Decidable (AllPrintable cs) :=
  decidable_of_iff (cs.all isPrintable = true) List.all_eq_true

instance (g : Grammar) : Decidable g.IsPrintable :=
  match g with
  | .text => inferInstanceAs (Decidable False)
  | .characters allowed => inferInstanceAs (Decidable (AllPrintable allowed.toList))
  | .choice values => inferInstanceAs (Decidable (∀ v ∈ values, AllPrintable v.toList))
  | .alphanum | .identifier | .plaintext | .boolean | .date | .numeric | .positive | .version
  | .timeZone => inferInstanceAs (Decidable True)

namespace ValueType

variable {t : ValueType} {text : String} {v : Value}

/-- A grammar that is defined by its characters takes these only. -/
theorem allowed_of_strict {allowed : Char → Bool} (ha : t.grammar.allowed? = some allowed)
    (h : t.strict text = .ok v) : v = .text text ∧ ∀ c ∈ text.toList, allowed c = true := by
  have hfamily : t.family = .text := by
    unfold family
    revert ha
    cases t.grammar <;> simp [Grammar.allowed?]
  refine ⟨eq_text_of_strict hfamily h, ?_⟩
  have hsteps : t.strict text = (do
      t.checkLength text.toList
      checkCharacters allowed text.toList
      .ok (.text text)) := by
    unfold strict
    revert ha
    cases hg : t.grammar <;> simp_all [Grammar.allowed?]
  rw [hsteps] at h
  intro c hc
  by_contra hnot
  -- a character that is not allowed is found, and the text is refused
  cases hf : text.toList.find? (fun c => !allowed c) with
  | none => exact absurd (List.find?_eq_none.mp hf c hc) (by simp [hnot])
  | some d =>
    have hrefused : checkCharacters allowed text.toList = .error (.character d) := by
      unfold checkCharacters
      rw [hf]
    rw [hrefused] at h
    cases hl : t.checkLength text.toList with
    | error r => rw [hl] at h; cases h
    | ok _ => rw [hl] at h; cases h

/-- Where values are no texts, strict reading gives none. -/
theorem text?_of_strict (hf : t.family ≠ .text) (h : t.strict text = .ok v) : v.text? = none := by
  unfold strict at h
  cases hg : t.grammar with
  | boolean =>
    simp only [hg] at h
    split at h
    · cases h; rfl
    · split at h
      · cases h; rfl
      · cases h
  | date =>
    simp only [hg] at h
    split at h
    · cases h; rfl
    · cases h
  | numeric =>
    simp only [hg] at h
    split at h
    · cases h; rfl
    · cases h
  | positive =>
    simp only [hg] at h
    split at h
    · split at h
      · cases h; rfl
      · cases h
    · cases h
  | version =>
    simp only [hg] at h
    obtain ⟨major, minor, release, -, -, rfl⟩ := readVersion_ok_iff.mp h
    rfl
  | _ => exact absurd (by unfold family; rw [hg]) hf

/-- A value that is no text is rendered in figures. -/
theorem ofFigures_render (hv : v.text? = none) : OfFigures (t.render v).toList := by
  cases v with
  | text s => cases hv
  | int n =>
    unfold render
    cases t.grammar with
    | version => exact ofFigures_versionText n
    | _ =>
      show OfFigures (showInt n).toList
      unfold showInt
      rw [String.toList_ofList]
      exact ofFigures_shown n
  | bool b =>
    have hbits : OfFigures "1".toList ∧ OfFigures "0".toList :=
      ⟨List.all_eq_true.mp (by decide), List.all_eq_true.mp (by decide)⟩
    cases b with
    | true => exact hbits.1
    | false => exact hbits.2
  | date d => exact ofFigures_text d

/-- **What strict reading takes renders to printable characters, unless it is free
text.** -/
theorem allPrintable_render_of_strict (hg : t.grammar.IsPrintable) (h : t.strict text = .ok v) :
    AllPrintable (t.render v).toList := by
  by_cases hf : t.family = .text
  · have hplain : ∀ allowed : Char → Bool, t.grammar.allowed? = some allowed →
        (∀ c, allowed c = true → isPrintable c = true) → AllPrintable (t.render v).toList := by
      intro allowed ha hp c hc
      obtain ⟨rfl, hall⟩ := allowed_of_strict ha h
      exact hp c (hall c hc)
    cases hgrammar : t.grammar with
    | alphanum => exact hplain _ (by rw [hgrammar]; rfl) fun c => isPrintable_of_isAlphanum
    | identifier =>
      refine hplain _ (by rw [hgrammar]; rfl) fun c hc => ?_
      rcases Bool.or_eq_true_iff.mp hc with hc | hc
      · exact isPrintable_of_isAlphanum hc
      · rw [beq_iff_eq.mp hc]
        decide
    | plaintext => exact hplain _ (by rw [hgrammar]; rfl) fun c hc => hc
    | text => rw [hgrammar] at hg; cases hg
    | characters allowed =>
      rw [hgrammar] at hg
      exact hplain _ (by rw [hgrammar]; rfl) fun c hc => hg c (by simpa using hc)
    | choice values =>
      cases eq_text_of_strict hf h
      unfold strict at h
      simp only [hgrammar] at h
      split at h
      · rename_i hmem
        rw [hgrammar] at hg
        exact hg text hmem
      · cases h
    | timeZone =>
      cases eq_text_of_strict hf h
      unfold strict at h
      simp only [hgrammar] at h
      split at h
      · rename_i hzone
        exact (ofFigures_of_isZoneText hzone).allPrintable
      · cases h
    | _ => unfold family at hf; rw [hgrammar] at hf; cases hf
  · exact (ofFigures_render (text?_of_strict hf h)).allPrintable

end ValueType

end ListingMetadata
