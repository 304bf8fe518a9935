/-
  ListingMetadata.Proofs.Json.Lexemes
  ───────────────────────────────────
  **TEXTS AND NUMBERS READ BACK FROM JSON.**

  A text between quotes is read back whatever it holds, and its end is found: the
  characters that would end it or break the rules stand there as escapes.  A whole
  number of 64 bits is read back from its digits, if nothing that follows goes on
  with it.

    • `readText_escapedChar`, `skipText_escapedChar` — one character, whatever
      follows,
    • `textLexeme_quoted` — a quoted text,
    • `numberLexeme_digits`, `numberLexeme_negative` — a whole number, after its sign.
-/
import ListingMetadata.Json.Lexeme
import ListingMetadata.Proofs.Number.Digits

namespace ListingMetadata.Json

open ListingMetadata.Number

/-! ## §1. Characters -/

/-- The four digits of a control character. -/
theorem hexQuad?_control :
    ∀ n < 32, hexQuad? '0' '0' (hexDigit (n / 16)) (hexDigit (n % 16)) = some n := by
  decide

theorem isTrailing_control : ∀ n < 32, isTrailing n = false := by
  decide

theorem isLeading_control : ∀ n < 32, isLeading n = false := by
  decide

/-- A character that stands for itself inside quotes. -/
def Plain (c : Char) : Prop :=
  c ≠ '"' ∧ c ≠ '\\' ∧ 32 ≤ c.toNat

/-- A character inside quotes stands for itself, or is the escape of one letter, or
that of the four digits of a control character. -/
theorem escapedChar_cases (c : Char) :
    Plain c ∧ escapedChar c = [c] ∨
      (∃ e, e ≠ 'u' ∧ plainEscape? e = some c ∧ escapedChar c = ['\\', e]) ∨
      c.toNat < 32 ∧ escapedChar c
        = ['\\', 'u', '0', '0', hexDigit (c.toNat / 16), hexDigit (c.toNat % 16)] := by
  unfold escapedChar
  -- the marks of the text itself, the control characters with a letter, the others, the rest
  split
  · rename_i h
    right; left
    rcases h with rfl | rfl
    · exact ⟨'"', by decide, rfl, rfl⟩
    · exact ⟨'\\', by decide, rfl, rfl⟩
  · rename_i hmarks
    obtain ⟨hquote, hslash⟩ := not_or.mp hmarks
    split
    · rename_i h
      exact .inr (.inl ⟨'n', by decide, by rw [h]; rfl, rfl⟩)
    split
    · rename_i h
      exact .inr (.inl ⟨'r', by decide, by rw [h]; rfl, rfl⟩)
    split
    · rename_i h
      exact .inr (.inl ⟨'t', by decide, by rw [h]; rfl, rfl⟩)
    split
    · rename_i h
      exact .inr (.inl ⟨'b', by decide, by rw [← Char.ofNat_toNat c, h]; rfl, rfl⟩)
    split
    · rename_i h
      exact .inr (.inl ⟨'f', by decide, by rw [← Char.ofNat_toNat c, h]; rfl, rfl⟩)
    split
    · rename_i h
      exact .inr (.inr ⟨h, rfl⟩)
    · rename_i h
      exact .inl ⟨⟨hquote, hslash, by omega⟩, rfl⟩

theorem readText_plain {c : Char} (h : Plain c) (rest : List Char) :
    readText (c :: rest) = withChar c (readText rest) := by
  obtain ⟨hquote, hslash, hcontrol⟩ := h
  rw [readText.eq_def]
  split <;> rename_i heq
  · cases heq
  · exact absurd (List.cons.inj heq).1 hquote
  · exact absurd (List.cons.inj heq).1 hslash
  · exact absurd (List.cons.inj heq).1 hslash
  · exact absurd (List.cons.inj heq).1 hslash
  · exact absurd (List.cons.inj heq).1 hslash
  · obtain ⟨rfl, rfl⟩ := List.cons.inj heq
    exact if_neg (by omega)

theorem skipText_plain {c : Char} (h : Plain c) (rest : List Char) :
    skipText (c :: rest) = skipText rest := by
  obtain ⟨hquote, hslash, hcontrol⟩ := h
  rw [skipText.eq_def]
  split <;> rename_i heq
  · cases heq
  · exact absurd (List.cons.inj heq).1 hquote
  · exact absurd (List.cons.inj heq).1 hslash
  · exact absurd (List.cons.inj heq).1 hslash
  · exact absurd (List.cons.inj heq).1 hslash
  · exact absurd (List.cons.inj heq).1 hslash
  · obtain ⟨rfl, rfl⟩ := List.cons.inj heq
    exact if_neg (by omega)

theorem readText_letter {e c : Char} (hu : e ≠ 'u') (h : plainEscape? e = some c)
    (rest : List Char) : readText ('\\' :: e :: rest) = withChar c (readText rest) := by
  rw [readText.eq_def]
  split
  · rename_i heq
    cases heq
  · rename_i heq
    cases heq
  · rename_i heq
    cases heq
  · rename_i heq
    cases heq
    exact absurd rfl hu
  · rename_i heq
    cases heq
    exact absurd rfl hu
  · rename_i heq
    cases heq
    rw [h]
  · rename_i hno heq
    cases heq
    exact (hno _ _ rfl rfl).elim

theorem skipText_letter {e c : Char} (hu : e ≠ 'u') (h : plainEscape? e = some c)
    (rest : List Char) : skipText ('\\' :: e :: rest) = skipText rest := by
  rw [skipText.eq_def]
  split
  · rename_i heq
    cases heq
  · rename_i heq
    cases heq
  · rename_i heq
    cases heq
  · rename_i heq
    cases heq
    exact absurd rfl hu
  · rename_i heq
    cases heq
    exact absurd rfl hu
  · rename_i heq
    cases heq
    rw [h]
  · rename_i hno heq
    cases heq
    exact (hno _ _ rfl rfl).elim

/-- **A character is read back from its escape**, whatever follows. -/
theorem readText_escapedChar (c : Char) (rest : List Char) :
    readText (escapedChar c ++ rest) = withChar c (readText rest) := by
  rcases escapedChar_cases c with ⟨h, heq⟩ | ⟨e, hu, h, heq⟩ | ⟨h, heq⟩
  · rw [heq]
    exact readText_plain h rest
  · rw [heq]
    exact readText_letter hu h rest
  · have hquad := hexQuad?_control c.toNat h
    rw [heq]
    simp only [List.cons_append, List.nil_append, readText, hquad, isTrailing_control c.toNat h,
      isLeading_control c.toNat h, Bool.false_eq_true, if_false, Char.ofNat_toNat]

/-- A character is passed over as its escape. -/
theorem skipText_escapedChar (c : Char) (rest : List Char) :
    skipText (escapedChar c ++ rest) = skipText rest := by
  rcases escapedChar_cases c with ⟨h, heq⟩ | ⟨e, hu, h, heq⟩ | ⟨h, heq⟩
  · rw [heq]
    exact skipText_plain h rest
  · rw [heq]
    exact skipText_letter hu h rest
  · have hquad := hexQuad?_control c.toNat h
    rw [heq]
    simp only [List.cons_append, List.nil_append, skipText, hquad]

/-! ## §2. Quoted texts -/

theorem readText_quoted (cs rest : List Char) :
    readText (cs.flatMap escapedChar ++ '"' :: rest) = .ok (cs, rest) := by
  induction cs with
  | nil => rw [List.flatMap_nil, List.nil_append, readText]
  | cons c cs ih =>
    rw [List.flatMap_cons, List.append_assoc, readText_escapedChar, ih]
    rfl

theorem skipText_quoted (cs rest : List Char) :
    skipText (cs.flatMap escapedChar ++ '"' :: rest) = .ok rest := by
  induction cs with
  | nil => rw [List.flatMap_nil, List.nil_append, skipText]
  | cons c cs ih => rw [List.flatMap_cons, List.append_assoc, skipText_escapedChar, ih]

/-- **A quoted text is read back**, and what follows it is handed on. -/
theorem textLexeme_quoted (s : String) (rest : List Char) :
    textLexeme (s.toList.flatMap escapedChar ++ '"' :: rest) = (⟨.ok s, none⟩, some rest) := by
  unfold textLexeme
  rw [readText_quoted, skipText_quoted]
  show ((⟨.ok (String.ofList s.toList), none⟩ : Lexeme String), some rest) = _
  rw [String.ofList_toList]

/-! ## §3. Numbers -/

/-- A character with which no number goes on. -/
def endsNumber (c : Char) : Bool :=
  !(c.isDigit || c == '.' || c == 'e' || c == 'E')

/-- A text does not go on with a number before it. -/
def Stops : List Char → Prop
  | [] => True
  | c :: _ => endsNumber c = true

theorem stops_cons_iff {c : Char} {cs : List Char} : Stops (c :: cs) ↔ endsNumber c = true :=
  Iff.rfl

theorem Stops.isDigit {c : Char} {cs : List Char} (h : Stops (c :: cs)) : c.isDigit = false := by
  simp only [stops_cons_iff, endsNumber, Bool.not_eq_true', Bool.or_eq_false_iff] at h
  exact h.1.1.1

theorem takeWhile_digits (n : Nat) {rest : List Char} (h : Stops rest) :
    (digits n ++ rest).takeWhile Char.isDigit = digits n := by
  rw [List.takeWhile_append_of_pos (allDigits_digits n)]
  cases rest with
  | nil => simp
  | cons c rest => simp [h.isDigit]

theorem dropWhile_digits (n : Nat) {rest : List Char} (h : Stops rest) :
    (digits n ++ rest).dropWhile Char.isDigit = rest := by
  rw [List.dropWhile_append_of_pos (allDigits_digits n)]
  cases rest with
  | nil => rfl
  | cons c rest => simp [h.isDigit]

/-- **Only zero itself begins with a zero.** -/
theorem digits_leading_zero {n : Nat} {cs : List Char} (h : digits n = '0' :: cs) : cs = [] := by
  induction n using Nat.strongRecOn generalizing cs with
  | ind n ih =>
    by_cases hlt : n < 10
    · have hone : digits n = [Nat.digitChar n] := Nat.toDigits_of_lt_base hlt
      rw [hone] at h
      exact (List.cons.inj h).2.symm
    · -- more digits would follow a zero in front, which is all of the tenth part
      have hsplit : digits n = digits (n / 10) ++ [Nat.digitChar (n % 10)] :=
        Nat.toDigits_of_base_le (by omega) (by omega)
      obtain ⟨d, ds, hd⟩ := List.exists_cons_of_ne_nil (digits_ne_nil (n / 10))
      rw [hsplit, hd] at h
      obtain ⟨rfl, -⟩ := List.cons.inj h
      have hds : ds = [] := ih (n / 10) (by omega) hd
      have hvalue : digitsValue (digits (n / 10)) = 0 := by
        rw [hd, hds]
        rfl
      rw [digitsValue_digits] at hvalue
      omega

/-- The digits of a number are all that is scanned, if nothing goes on with it. -/
theorem scanNumberText_digits (n : Nat) {rest : List Char} (h : Stops rest) :
    scanNumberText (digits n ++ rest) = .ok (⟨digits n, [], false, [], false, false⟩, rest) := by
  have htail : scanTail (digits n) [] false rest
      = .ok (⟨digits n, [], false, [], false, false⟩, rest) := by
    unfold scanTail
    split
    · exact absurd (stops_cons_iff.mp h) (by decide)
    · exact absurd (stops_cons_iff.mp h) (by decide)
    · rfl
  unfold scanNumberText
  rw [takeWhile_digits n h, dropWhile_digits n h]
  dsimp only
  split
  · rename_i hnil
    exact absurd hnil (digits_ne_nil n)
  · -- a zero in front of other digits would be refused
    rename_i hzero
    cases digits_leading_zero hzero
  · split
    · exact absurd (stops_cons_iff.mp h) (by decide)
    · exact htail

/-- **A number is read back from its digits.** -/
theorem numberLexeme_digits {n : Nat} (hn : n ≤ maxNat) {rest : List Char} (h : Stops rest) :
    numberLexeme false (digits n ++ rest) = (⟨.ok (.whole n), none⟩, some rest) := by
  unfold numberLexeme
  rw [scanNumberText_digits n h]
  simp [NumberText.amount, Nat.not_lt.mpr hn]

/-- A negative number is read back from the digits after its sign. -/
theorem numberLexeme_negative {n : Nat} (hpos : 0 < n) (hn : n ≤ maxInt + 1) {rest : List Char}
    (h : Stops rest) :
    numberLexeme true (digits n ++ rest) = (⟨.ok (.whole (-(n : Int))), none⟩, some rest) := by
  have hmax : maxInt + 1 ≤ maxNat := by decide
  -- otherwise it would be read as a fraction, as minus zero is
  have hbeyond : ¬(n = 0 ∨ n > maxInt + 1) := by omega
  unfold numberLexeme
  rw [scanNumberText_digits n h]
  simp [NumberText.amount, Nat.not_lt.mpr (Nat.le_trans hn hmax), hbeyond]

end ListingMetadata.Json
