/-
  ListingMetadata.Proofs.Value.Zones
  ──────────────────────────────────
  **TIME ZONES, LOOKED UP BYTE BY BYTE.**

  A time zone is checked at its bytes: of six, the first is a sign, the fourth
  a colon, and the pairs behind them are sliced out as numbers:

      + 1 4 : 5 9      2b | 31 34 | 3a | 35 39
      + é : é          2b | c3 a9 | 3a | c3 a9
      + 0 € 0          2b | 30 e2 | 82 | ac 30

  Sign and colon are bytes of their own, so where both are found the two ranges
  begin and end between characters.  A character that lies across an end of a
  range takes the place of one of them, and the check does not come to the
  ranges:

    • `slices_of_split` — behind sign and colon no range is torn,
    • `checkZone_iff`   — the bytes pass the check just where the characters
                          spell a zone,
    • `readsZones`      — what a type of zones takes in strict mode.
-/
import ListingMetadata.Proofs.Number.Digits
import ListingMetadata.Proofs.Text.Bytes
import ListingMetadata.Value.Catalog
import ListingMetadata.Value.Reading

namespace ListingMetadata

open Number Text

/-! ## §1. Spelling -/

/-- Two digits, with a value up to a bound. -/
structure IsPair (cs : List Char) (bound : Nat) : Prop where
  length : cs.length = 2
  digits : AllDigits cs
  value : digitsValue cs ≤ bound

/-- The text is `Z`, or a sign, two digits up to 14, a colon and two digits up to 59. -/
def SpellsZone (text : String) : Prop :=
  text = "Z" ∨ ∃ sign hours minutes, text.toList = sign :: (hours ++ ':' :: minutes) ∧
    (sign = '+' ∨ sign = '-') ∧ IsPair hours 14 ∧ IsPair minutes 59

theorem utf8Size_of_isDigit {c : Char} (h : c.isDigit = true) : c.utf8Size = 1 := by
  have hbounds := toNat_bounds_of_isDigit h
  exact utf8Size_eq_one_iff.mpr (by omega)

theorem utf8Size_of_sign {sign : Char} (h : sign = '+' ∨ sign = '-') : sign.utf8Size = 1 := by
  rcases h with rfl | rfl <;> rfl

/-- Two digits are two bytes. -/
theorem IsPair.byteLength_eq {cs : List Char} {bound : Nat} (h : IsPair cs bound) :
    byteLength cs = 2 := by
  rw [byteLength_of_single fun c hc => utf8Size_of_isDigit (h.digits c hc), h.length]

/-- A zone is spelled in characters of one byte. -/
theorem SpellsZone.utf8Size {text : String} (h : SpellsZone text) :
    ∀ c ∈ text.toList, c.utf8Size = 1 := by
  intro c hc
  rcases h with rfl | ⟨sign, hours, minutes, htext, hsign, hhours, hminutes⟩
  · have hz : c = 'Z' := List.mem_singleton.mp hc
    rw [hz]
    rfl
  · rw [htext] at hc
    rcases List.mem_cons.mp hc with rfl | hc
    · exact utf8Size_of_sign hsign
    · rcases List.mem_append.mp hc with hc | hc
      · exact utf8Size_of_isDigit (hhours.digits c hc)
      · rcases List.mem_cons.mp hc with rfl | hc
        · rfl
        · exact utf8Size_of_isDigit (hminutes.digits c hc)

/-! ## §2. Numbers of two bytes -/

theorem unsigned?_eq_some_iff {cs : List Char} (hne : cs ≠ []) {n : Nat} :
    unsigned? cs = some n ↔ AllDigits cs ∧ digitsValue cs = n ∧ n ≤ maxNat32 := by
  unfold unsigned?
  by_cases hall : AllDigits cs
  · rw [if_pos (List.all_eq_true.mpr hall), readUpTo_of_digits hne hall]
    split
    · rename_i hle
      show some (digitsValue cs) = some n ↔ _
      rw [Option.some.injEq]
      constructor
      · rintro rfl
        exact ⟨hall, rfl, hle⟩
      · rintro ⟨-, hvalue, -⟩
        exact hvalue
    · rename_i hgt
      show none = some n ↔ _
      constructor
      · intro h
        cases h
      · rintro ⟨-, rfl, hle⟩
        exact absurd hle hgt
  · rw [if_neg fun h => hall (List.all_eq_true.mp h)]
    simp [hall]

/-- Two bytes are a number up to a bound just where they are two digits. -/
theorem isPair_iff {cs : List Char} (hbytes : byteLength cs = 2) {bound : Nat}
    (hbound : bound ≤ maxNat32) : IsPair cs bound ↔ ∃ n, unsigned? cs = some n ∧ n ≤ bound := by
  have hne : cs ≠ [] := by
    rintro rfl
    cases hbytes
  constructor
  · rintro ⟨-, hdigits, hvalue⟩
    exact ⟨_, (unsigned?_eq_some_iff hne).mpr ⟨hdigits, rfl, by omega⟩, hvalue⟩
  · rintro ⟨n, hn, hle⟩
    obtain ⟨hdigits, rfl, -⟩ := (unsigned?_eq_some_iff hne).mp hn
    have hlength := byteLength_of_single fun c hc => utf8Size_of_isDigit (hdigits c hc)
    exact ⟨by omega, hdigits, hle⟩

theorem isOffset_iff {hours minutes : List Char} (hh : byteLength hours = 2)
    (hm : byteLength minutes = 2) :
    isOffset (unsigned? hours) (unsigned? minutes) = true ↔
      IsPair hours 14 ∧ IsPair minutes 59 := by
  rw [isPair_iff hh (by decide), isPair_iff hm (by decide)]
  cases unsigned? hours with
  | none => simp [isOffset]
  | some h =>
    cases unsigned? minutes with
    | none => simp [isOffset]
    | some m =>
      simp only [isOffset, Bool.and_eq_true, decide_eq_true_eq, Option.some.injEq,
        exists_eq_left']
      omega

/-! ## §3. The check -/

section

variable {text : String} {sign : Char} {hours minutes : List Char}

/-- **Behind sign and colon no range is torn.** -/
theorem slices_of_split (h : text.toList = sign :: (hours ++ ':' :: minutes))
    (hsign : sign.utf8Size = 1) (hh : byteLength hours = 2) (hm : byteLength minutes = 2) :
    slice text 1 3 = .ok (String.ofList hours) ∧ slice text 4 6 = .ok (String.ofList minutes) := by
  have hfirst : text.toList = [sign] ++ (hours ++ ':' :: minutes) := h
  have hlast : text.toList = (sign :: (hours ++ [':'])) ++ (minutes ++ []) := by
    simp [h]
  have hone : byteLength [sign] = 1 := by
    unfold byteLength
    rw [hsign]
    rfl
  have hfour : byteLength (sign :: (hours ++ [':'])) = 4 := by
    unfold byteLength
    rw [byteLength_append, hsign, hh]
    rfl
  have hhours := slice_of_split hfirst
  have hminutes := slice_of_split hlast
  rw [hone, hh] at hhours
  rw [hfour, hm] at hminutes
  exact ⟨hhours, hminutes⟩

/-- The check of six bytes with sign and colon comes down to the two numbers. -/
theorem checkZone_of_split (h : text.toList = sign :: (hours ++ ':' :: minutes))
    (hsign : sign = '+' ∨ sign = '-') (hh : byteLength hours = 2) (hm : byteLength minutes = 2) :
    checkZone text = .ok (isOffset (unsigned? hours) (unsigned? minutes)) := by
  have hone := utf8Size_of_sign hsign
  have hsize : text.utf8ByteSize = 6 := by
    rw [← byteLength_toList, h]
    unfold byteLength
    rw [byteLength_append, hone, hh]
    show 1 + (2 + (1 + byteLength minutes)) = 6
    omega
  have hz : text ≠ "Z" := by
    rintro rfl
    cases hsize
  have hfirst : byteAt text 0 = .ok sign.toUInt8 :=
    (byteAt_eq_ok_iff hone).mpr ⟨[], _, h, rfl⟩
  have hmark : byteAt text 3 = .ok ':'.toUInt8 := by
    refine (byteAt_eq_ok_iff rfl).mpr ⟨sign :: hours, minutes, h, ?_⟩
    unfold byteLength
    rw [hone, hh]
  have hsigned : sign.toUInt8 = '+'.toUInt8 ∨ sign.toUInt8 = '-'.toUInt8 :=
    hsign.imp (congrArg Char.toUInt8) (congrArg Char.toUInt8)
  obtain ⟨hhours, hminutes⟩ := slices_of_split h hone hh hm
  have hnumbers : numberAt? text 1 3 = unsigned? hours ∧ numberAt? text 4 6 = unsigned? minutes := by
    unfold numberAt?
    rw [hhours, hminutes]
    show unsigned? (String.ofList hours).toList = _ ∧ unsigned? (String.ofList minutes).toList = _
    rw [String.toList_ofList, String.toList_ofList]
    exact ⟨rfl, rfl⟩
  rw [checkZone_of_bytes hz hsize hfirst hmark, decide_eq_true hsigned, hnumbers.1, hnumbers.2]
  rfl

end

/-- The text has six bytes, of which the first is this sign and the fourth a colon:
the check comes to its two ranges. -/
structure HasMarks (text : String) (sign : Char) : Prop where
  size : text.utf8ByteSize = 6
  isSign : sign = '+' ∨ sign = '-'
  first : byteAt text 0 = .ok sign.toUInt8
  fourth : byteAt text 3 = .ok ':'.toUInt8

/-- Sign and colon are characters of their own, with two bytes behind each. -/
theorem HasMarks.exists_split {text : String} {sign : Char} (h : HasMarks text sign) :
    ∃ hours minutes, text.toList = sign :: (hours ++ ':' :: minutes) ∧
      byteLength hours = 2 ∧ byteLength minutes = 2 := by
  obtain ⟨front, rest, hrest, hfront⟩ :=
    (byteAt_eq_ok_iff (utf8Size_of_sign h.isSign)).mp h.first
  obtain ⟨before, minutes, hsplit, hbefore⟩ := (byteAt_eq_ok_iff rfl).mp h.fourth
  -- there is no room before the first byte
  have hnil : front = [] := by
    have hlength := length_le_byteLength front
    exact List.length_eq_zero_iff.mp (by omega)
  subst hnil
  cases before with
  | nil => cases hbefore
  | cons c hours =>
    have hc : c = sign := by
      rw [hrest] at hsplit
      exact (List.cons.inj hsplit).1.symm
    subst hc
    have hbytes := byteLength_toList text
    rw [hsplit, byteLength_append, hbefore, h.size] at hbytes
    have hhours : c.utf8Size + byteLength hours = 3 := hbefore
    have hminutes : 3 + (1 + byteLength minutes) = 6 := hbytes
    have hone := utf8Size_of_sign h.isSign
    exact ⟨hours, minutes, hsplit, by omega, by omega⟩

/-- Only six bytes with sign and colon pass the check, but for `Z`. -/
theorem exists_hasMarks {text : String} (h : checkZone text = .ok true) (hz : text ≠ "Z") :
    ∃ sign, HasMarks text sign := by
  have hsize : text.utf8ByteSize = 6 := by
    by_contra hother
    simp [checkZone, hz, hother] at h
  obtain ⟨first, hfirst⟩ : ∃ b, byteAt text 0 = .ok b := exists_byteAt (by omega)
  obtain ⟨mark, hmark⟩ : ∃ b, byteAt text 3 = .ok b := exists_byteAt (by omega)
  rw [checkZone_of_bytes hz hsize hfirst hmark] at h
  have hall := Except.ok.inj h
  simp only [Bool.and_eq_true, decide_eq_true_eq] at hall
  obtain ⟨⟨hsigned, rfl⟩, -⟩ := hall
  rcases hsigned with rfl | rfl
  · exact ⟨'+', hsize, Or.inl rfl, hfirst, hmark⟩
  · exact ⟨'-', hsize, Or.inr rfl, hfirst, hmark⟩

/-- **The bytes pass the check just where the characters spell a zone.** -/
theorem checkZone_iff {text : String} : checkZone text = .ok true ↔ SpellsZone text := by
  constructor
  · intro h
    by_cases hz : text = "Z"
    · exact Or.inl hz
    · obtain ⟨sign, hmarks⟩ := exists_hasMarks h hz
      obtain ⟨hours, minutes, htext, hh, hm⟩ := hmarks.exists_split
      rw [checkZone_of_split htext hmarks.isSign hh hm] at h
      obtain ⟨hhours, hminutes⟩ := (isOffset_iff hh hm).mp (Except.ok.inj h)
      exact Or.inr ⟨sign, hours, minutes, htext, hmarks.isSign, hhours, hminutes⟩
  · rintro (rfl | ⟨sign, hours, minutes, htext, hsign, hhours, hminutes⟩)
    · rfl
    · have hh := hhours.byteLength_eq
      have hm := hminutes.byteLength_eq
      rw [checkZone_of_split htext hsign hh hm, (isOffset_iff hh hm).mpr ⟨hhours, hminutes⟩]

-- the euro sign lies across the end of the first range and the start of the second
example : checkZone "+0\u20ac0" = .ok false := by rfl

theorem isZoneText_iff {text : String} : isZoneText text = true ↔ SpellsZone text := by
  rw [← checkZone_iff, checkZone_eq, Except.ok.injEq]

/-! ## §4. Types of zones -/

namespace ValueType

/-- What a type of zones takes in strict mode, and how it comes to refuse the rest. -/
structure ReadsZones (t : ValueType) : Prop where
  /-- It takes the texts that spell a zone, and no other text. -/
  accepts : ∀ text, (∃ v, t.parse text true = .ok v) ↔ SpellsZone text
  /-- Where the check comes to its two ranges, neither is torn. -/
  slices : ∀ text sign, HasMarks text sign →
    (∃ hours, slice text 1 3 = .ok hours) ∧ ∃ minutes, slice text 4 6 = .ok minutes
  /-- A text with a character of several bytes, wherever it stands, fails the check
  without a fault of access, and is refused for its form. -/
  refuses : ∀ text, (∃ c ∈ text.toList, 1 < c.utf8Size) →
    checkZone text = .ok false ∧ t.parse text true = .error (t.fault text .zoneForm)

theorem parse_zone {t : ValueType} (hg : t.grammar = .timeZone) (text : String) :
    t.parse text true
      = if isZoneText text then .ok (.text text) else .error (t.fault text .zoneForm) := by
  have hstrict : t.strict text
      = if isZoneText text then .ok (.text text) else .error .zoneForm := by
    unfold strict
    simp only [hg]
  unfold parse
  rw [hstrict]
  cases isZoneText text with
  | true => rfl
  | false => rfl

/-- **A type of zones takes exactly the zones and tears no character.** -/
theorem readsZones {t : ValueType} (hg : t.grammar = .timeZone) : t.ReadsZones := by
  refine ⟨?_, ?_, ?_⟩
  · intro text
    rw [parse_zone hg, ← isZoneText_iff]
    cases isZoneText text with
    | true => simp
    | false => simp
  · intro text sign hmarks
    obtain ⟨hours, minutes, htext, hh, hm⟩ := hmarks.exists_split
    obtain ⟨hhours, hminutes⟩ := slices_of_split htext (utf8Size_of_sign hmarks.isSign) hh hm
    exact ⟨⟨_, hhours⟩, ⟨_, hminutes⟩⟩
  · rintro text ⟨c, hc, hwide⟩
    have hnot : isZoneText text = false := by
      rw [← Bool.not_eq_true]
      intro hzone
      have hone := (isZoneText_iff.mp hzone).utf8Size c hc
      omega
    constructor
    · rw [checkZone_eq, hnot]
    · rw [parse_zone hg, hnot]
      rfl

/-- Accents in the place of hours and minutes are sliced out whole, and refused. -/
theorem readsZones_timeZone :
    Catalog.timeZone.grammar = .timeZone ∧ HasMarks "+\u00e9:\u00e9" '+' ∧
      (∃ c ∈ "+\u00e9:\u00e9".toList, 1 < c.utf8Size) ∧
      (∃ hours, slice "+\u00e9:\u00e9" 1 3 = .ok hours) ∧
      checkZone "+\u00e9:\u00e9" = .ok false ∧
      Catalog.timeZone.parse "+\u00e9:\u00e9" true
        = .error (Catalog.timeZone.fault "+\u00e9:\u00e9" .zoneForm) := by
  have hgrammar : Catalog.timeZone.grammar = .timeZone := rfl
  have hmarks : HasMarks "+\u00e9:\u00e9" '+' := ⟨rfl, Or.inl rfl, rfl, rfl⟩
  have hwide : ∃ c ∈ "+\u00e9:\u00e9".toList, 1 < c.utf8Size :=
    ⟨'\u00e9', by decide, by decide⟩
  obtain ⟨hchecked, hread⟩ := (readsZones hgrammar).refuses _ hwide
  exact ⟨hgrammar, hmarks, hwide, ((readsZones hgrammar).slices _ _ hmarks).1, hchecked, hread⟩

end ValueType

end ListingMetadata
