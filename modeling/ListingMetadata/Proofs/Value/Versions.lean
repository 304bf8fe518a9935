/-
  ListingMetadata.Proofs.Value.Versions
  ─────────────────────────────────────
  **VERSIONS, PACKED INTO ONE NUMBER.**

  A text spells a version by three groups of digits with points between.  The
  three numbers are packed into one that leaves two digits for the second and
  five for the third, so that packed versions stand in the order of versions:

      "1.5.00012"   ⟶   1 05 00012

    • `readVersion_ok_iff`      — what is read as a version, and as which number,
    • `packsInRange`            — no step of the packing leaves 64 bits,
    • `compare_packed`          — packed versions compare as their three numbers do,
    • `readVersion_versionText` — a version is read from its text,
    • `readsVersions`           — all of it, of every type of versions.
-/
import ListingMetadata.Proofs.Number.Digits
import ListingMetadata.Value.Catalog
import ListingMetadata.Value.Reading
import Mathlib.Algebra.Group.Int.Defs

namespace ListingMetadata

open Number Text

/-! ## §1. Groups of digits -/

theorem isDigitGroup_iff {cs : List Char} : isDigitGroup cs = true ↔ cs ≠ [] ∧ AllDigits cs := by
  unfold isDigitGroup AllDigits
  rw [Bool.and_eq_true, Bool.not_eq_true', List.isEmpty_eq_false_iff, List.all_eq_true]

/-- Digits alone make no negative number. -/
theorem nonneg_of_readInt {cs : List Char} {n : Int} (hg : isDigitGroup cs = true)
    (h : readInt cs = .ok n) : 0 ≤ n := by
  obtain ⟨hne, hdigits⟩ := isDigitGroup_iff.mp hg
  rw [readInt_of_digits hne hdigits] at h
  split at h
  · cases h
    omega
  · cases h

theorem dot_notMem {cs : List Char} (h : AllDigits cs) : '.' ∉ cs := by
  intro hdot
  exact absurd (h '.' hdot) (by decide)

/-- At least one digit, and the value of them all. -/
structure IsGroup (cs : List Char) (n : Nat) : Prop where
  nonempty : cs ≠ []
  digits : AllDigits cs
  value : digitsValue cs = n

theorem isGroup_digits (n : Nat) : IsGroup (digits n) n :=
  ⟨digits_ne_nil n, allDigits_digits n, digitsValue_digits n⟩

theorem isGroup_zeroFilled (width n : Nat) : IsGroup (zeroFilled width (digits n)) n :=
  ⟨zeroFilled_ne_nil width n, allDigits_zeroFilled width n, digitsValue_zeroFilled width n⟩

/-- **A group of digits is read as its value, unless 64 bits do not hold it.** -/
theorem readGroup_eq {cs : List Char} {n : Nat} (h : IsGroup cs n) :
    readGroup cs = if n ≤ maxInt then .ok (n : Int) else .error (.integer .tooLarge) := by
  unfold readGroup
  rw [readInt_of_digits h.nonempty h.digits, h.value]
  by_cases hle : n ≤ maxInt
  · rw [if_pos hle, if_pos hle]
  · rw [if_neg hle, if_neg hle]

/-! ## §2. Spelling -/

/-- The text is three groups of digits with points between, which have these values. -/
def Spells (text : String) (major minor release : Nat) : Prop :=
  ∃ a b c : List Char, text.toList = a ++ ['.'] ++ b ++ ['.'] ++ c ∧
    IsGroup a major ∧ IsGroup b minor ∧ IsGroup c release

/-- The numbers of a version are within their bounds. -/
def IsVersion (major minor release : Nat) : Prop :=
  major < 1000 ∧ minor < 100 ∧ release < 100000

/-- Groups of digits hold no point, so the text falls into them again. -/
theorem splitOn_of_groups {a b c : List Char} {major minor release : Nat}
    (ha : IsGroup a major) (hb : IsGroup b minor) (hc : IsGroup c release) :
    (a ++ ['.'] ++ b ++ ['.'] ++ c).splitOn '.' = [a, b, c] := by
  have hjoined : a ++ ['.'] ++ b ++ ['.'] ++ c = ['.'].intercalate [a, b, c] := by
    simp [List.intercalate]
  have hnone : ∀ l ∈ [a, b, c], '.' ∉ l := by
    simp only [List.forall_mem_cons]
    exact ⟨dot_notMem ha.digits, dot_notMem hb.digits, dot_notMem hc.digits, by simp⟩
  rw [hjoined]
  exact List.splitOn_intercalate '.' hnone (by simp)

/-! ## §3. Packing -/

/-- The number that a version is packed into. -/
def packed (major minor release : Nat) : Int :=
  (major * 10000000 + minor * 100000 + release : Nat)

theorem weighted_eq_packed (major minor release : Nat) :
    (major : Int) * majorWeight + minor * minorWeight + release = packed major minor release := by
  unfold packed majorWeight minorWeight
  omega

/-- Each number on the way to the packed one is a number of 64 bits. -/
structure PacksInRange (major minor release : Int) : Prop where
  ofMajor : IsInt (major * majorWeight)
  ofMinor : IsInt (minor * minorWeight)
  ofBoth : IsInt (major * majorWeight + minor * minorWeight)
  ofAll : IsInt (major * majorWeight + minor * minorWeight + release)

/-- **No step of the packing leaves 64 bits.** -/
theorem packsInRange {major minor release : Nat} (h : IsVersion major minor release) :
    PacksInRange major minor release := by
  obtain ⟨hmajor, hminor, hrelease⟩ := h
  constructor <;>
  · unfold IsInt maxInt
    simp only [majorWeight, minorWeight]
    omega

theorem packed_bounds {major minor release : Nat} (h : IsVersion major minor release) :
    0 ≤ packed major minor release ∧ packed major minor release < 10 ^ 10 := by
  obtain ⟨hmajor, hminor, hrelease⟩ := h
  unfold packed
  omega

/-- Below a base the higher number decides, and the lower one only where the higher
ones are the same. -/
theorem compare_mul_add {base low low' : Nat} (hl : low < base) (hl' : low' < base)
    (high high' : Nat) :
    compare (high * base + low) (high' * base + low')
      = (compare high high').then (compare low low') := by
  cases hcompare : compare high high' with
  | lt =>
    have hlt : high < high' := Nat.compare_eq_lt.mp hcompare
    have hroom : (high + 1) * base ≤ high' * base := Nat.mul_le_mul_right base hlt
    rw [Nat.succ_mul] at hroom
    exact Nat.compare_eq_lt.mpr (by omega)
  | eq =>
    have heq : high = high' := Nat.compare_eq_eq.mp hcompare
    subst heq
    show compare (high * base + low) (high * base + low') = compare low low'
    rw [Nat.compare_eq_ite_lt, Nat.compare_eq_ite_lt]
    simp only [Nat.add_lt_add_iff_left]
  | gt =>
    have hgt : high' < high := Nat.compare_eq_gt.mp hcompare
    have hroom : (high' + 1) * base ≤ high * base := Nat.mul_le_mul_right base hgt
    rw [Nat.succ_mul] at hroom
    exact Nat.compare_eq_gt.mpr (by omega)

/-- **Packed versions compare as their three numbers do**, the first that differs
decides. -/
theorem compare_packed {major minor release major' minor' release' : Nat}
    (h : IsVersion major minor release) (h' : IsVersion major' minor' release') :
    compare (packed major minor release) (packed major' minor' release')
      = (compare major major').then ((compare minor minor').then (compare release release')) := by
  obtain ⟨-, hminor, hrelease⟩ := h
  obtain ⟨-, hminor', hrelease'⟩ := h'
  have hnested : ∀ x y z : Nat, x * 10000000 + y * 100000 + z = (x * 100 + y) * 100000 + z := by
    intro x y z
    omega
  calc compare (packed major minor release) (packed major' minor' release')
      = compare (major * 10000000 + minor * 100000 + release)
          (major' * 10000000 + minor' * 100000 + release') := by
        unfold packed
        rw [Int.compare_eq_ite_lt, Nat.compare_eq_ite_lt]
        simp only [Int.ofNat_lt]
    _ = (compare (major * 100 + minor) (major' * 100 + minor')).then
          (compare release release') := by
        rw [hnested, hnested, compare_mul_add hrelease hrelease']
    _ = (compare major major').then ((compare minor minor').then (compare release release')) := by
        rw [compare_mul_add hminor hminor', Ordering.then_assoc]

/-! ## §4. Reading -/

/-- The three groups are read in turn; their values are packed if they are within the
bounds. -/
theorem readVersion_of_groups {text : String} {a b c : List Char} {major minor release : Nat}
    (htext : text.toList = a ++ ['.'] ++ b ++ ['.'] ++ c) (ha : IsGroup a major)
    (hb : IsGroup b minor) (hc : IsGroup c release) :
    readVersion text
      = readGroup a >>= fun x => readGroup b >>= fun y => readGroup c >>= fun z =>
          if y ≥ 100 ∨ z ≥ minorWeight ∨ x ≥ 1000 then .error .versionRange
          else .ok (.int (x * majorWeight + y * minorWeight + z)) := by
  have hgroup : ∀ {cs n}, IsGroup cs n → isDigitGroup cs = true :=
    fun h => isDigitGroup_iff.mpr ⟨h.nonempty, h.digits⟩
  unfold readVersion
  rw [htext, splitOn_of_groups ha hb hc]
  show (if isDigitGroup a && isDigitGroup b && isDigitGroup c then _ else _ :
    Except Reason Value) = _
  rw [hgroup ha, hgroup hb, hgroup hc]
  rfl

/-- A version that is spelled is read, and packed. -/
theorem readVersion_of_spells {text : String} {major minor release : Nat}
    (h : Spells text major minor release) (hv : IsVersion major minor release) :
    readVersion text = .ok (.int (packed major minor release)) := by
  obtain ⟨a, b, c, htext, ha, hb, hc⟩ := h
  obtain ⟨hmajor, hminor, hrelease⟩ := hv
  have hmax : 100000 ≤ maxInt := by decide
  rw [readVersion_of_groups htext ha hb hc, readGroup_eq ha, readGroup_eq hb, readGroup_eq hc,
    if_pos (by omega), if_pos (by omega), if_pos (by omega), ← weighted_eq_packed]
  apply if_neg
  unfold minorWeight
  omega

/-- What is read as a version is spelled by three groups of digits. -/
theorem exists_spells_of_readVersion {text : String} {v : Value} (h : readVersion text = .ok v) :
    ∃ major minor release : Nat, Spells text major minor release := by
  have hgroups : ∃ a b c, text.toList.splitOn '.' = [a, b, c] ∧
      (a ≠ [] ∧ AllDigits a) ∧ (b ≠ [] ∧ AllDigits b) ∧ (c ≠ [] ∧ AllDigits c) := by
    unfold readVersion at h
    split at h
    · rename_i a b c hsplit
      split at h
      · rename_i hall
        simp only [Bool.and_eq_true, isDigitGroup_iff] at hall
        exact ⟨a, b, c, hsplit, hall.1.1, hall.1.2, hall.2⟩
      · cases h
    · cases h
  obtain ⟨a, b, c, hsplit, ha, hb, hc⟩ := hgroups
  have hjoined : ['.'].intercalate (text.toList.splitOn '.') = text.toList :=
    List.intercalate_splitOn '.'
  have htext : text.toList = a ++ ['.'] ++ b ++ ['.'] ++ c := by
    rw [← hjoined, hsplit]
    simp [List.intercalate]
  exact ⟨_, _, _, a, b, c, htext, ⟨ha.1, ha.2, rfl⟩, ⟨hb.1, hb.2, rfl⟩, ⟨hc.1, hc.2, rfl⟩⟩

/-- Out of bounds nothing is read, whether 64 bits hold the numbers or not. -/
theorem isVersion_of_readVersion {text : String} {v : Value} {major minor release : Nat}
    (hs : Spells text major minor release) (h : readVersion text = .ok v) :
    IsVersion major minor release := by
  obtain ⟨a, b, c, htext, ha, hb, hc⟩ := hs
  rw [readVersion_of_groups htext ha hb hc, readGroup_eq ha, readGroup_eq hb, readGroup_eq hc] at h
  by_cases hmajor : major ≤ maxInt
  · by_cases hminor : minor ≤ maxInt
    · by_cases hrelease : release ≤ maxInt
      · rw [if_pos hmajor, if_pos hminor, if_pos hrelease] at h
        have hif : (if (minor : Int) ≥ 100 ∨ (release : Int) ≥ minorWeight ∨ (major : Int) ≥ 1000
            then .error .versionRange
            else .ok (.int ((major : Int) * majorWeight + minor * minorWeight + release)) :
            Except Reason Value) = .ok v := h
        split at hif
        · cases hif
        · rename_i hin
          unfold minorWeight at hin
          exact ⟨by omega, by omega, by omega⟩
      · rw [if_pos hmajor, if_pos hminor, if_neg hrelease] at h
        cases h
    · rw [if_pos hmajor, if_neg hminor] at h
      cases h
  · rw [if_neg hmajor] at h
    cases h

/-- **What is read as a version**: what spells one, and it is packed. -/
theorem readVersion_ok_iff {text : String} {v : Value} :
    readVersion text = .ok v ↔ ∃ major minor release : Nat, Spells text major minor release ∧
      IsVersion major minor release ∧ v = .int (packed major minor release) := by
  constructor
  · intro h
    obtain ⟨major, minor, release, hs⟩ := exists_spells_of_readVersion h
    have hv := isVersion_of_readVersion hs h
    rw [readVersion_of_spells hs hv] at h
    exact ⟨major, minor, release, hs, hv, (Except.ok.inj h).symm⟩
  · rintro ⟨major, minor, release, hs, hv, rfl⟩
    exact readVersion_of_spells hs hv

/-! ## §5. Writing -/

/-- The text of a version has its three numbers, the last two filled with zeros. -/
theorem versionText_packed {major minor release : Nat} (h : IsVersion major minor release) :
    versionText (packed major minor release)
      = String.ofList (digits major ++ ['.'] ++ zeroFilled 2 (digits minor) ++ ['.']
          ++ zeroFilled 5 (digits release)) := by
  obtain ⟨hmajor, hminor, hrelease⟩ := h
  have hnonneg : 0 ≤ packed major minor release := by
    unfold packed
    omega
  have hfirst : (packed major minor release).tdiv majorWeight = major := by
    rw [Int.tdiv_eq_ediv_of_nonneg hnonneg]
    unfold packed majorWeight
    omega
  have hsecond : ((packed major minor release).tdiv minorWeight).tmod 100 = minor := by
    rw [Int.tdiv_eq_ediv_of_nonneg hnonneg, Int.tmod_eq_emod_of_nonneg]
    · unfold packed minorWeight
      omega
    · unfold packed minorWeight
      omega
  have hthird : (packed major minor release).tmod minorWeight = release := by
    rw [Int.tmod_eq_emod_of_nonneg hnonneg]
    unfold packed minorWeight
    omega
  unfold versionText
  rw [hfirst, hsecond, hthird, shown_natCast, padded_natCast, padded_natCast]

/-- The text of a version spells it. -/
theorem spells_versionText {major minor release : Nat} (h : IsVersion major minor release) :
    Spells (versionText (packed major minor release)) major minor release := by
  rw [versionText_packed h]
  exact ⟨_, _, _, String.toList_ofList, isGroup_digits major, isGroup_zeroFilled 2 minor,
    isGroup_zeroFilled 5 release⟩

/-- **A version is read from its text.** -/
theorem readVersion_versionText {major minor release : Nat} (h : IsVersion major minor release) :
    readVersion (versionText (packed major minor release))
      = .ok (.int (packed major minor release)) :=
  readVersion_of_spells (spells_versionText h) h

/-! ## §6. Types of versions -/

namespace ValueType

/-- What a type of versions takes in strict mode, and what it makes of it. -/
structure ReadsVersions (t : ValueType) : Prop where
  /-- It takes the texts that spell a version, and no other text. -/
  accepts : ∀ text, (∃ v, t.parse text true = .ok v) ↔
    ∃ major minor release, Spells text major minor release ∧ IsVersion major minor release
  /-- A version is packed into ten digits, within 64 bits at every step. -/
  packs : ∀ {text v major minor release}, Spells text major minor release →
    t.parse text true = .ok v → v = .int (packed major minor release) ∧
      PacksInRange major minor release ∧
      0 ≤ packed major minor release ∧ packed major minor release < 10 ^ 10
  /-- The text of what was read has the same three numbers. -/
  rendered : ∀ {text v major minor release}, Spells text major minor release →
    t.parse text true = .ok v → Spells (t.render v) major minor release
  /-- What was read compares as the three numbers do. -/
  ordered : ∀ {text text' v v' major minor release major' minor' release'},
    Spells text major minor release → Spells text' major' minor' release' →
    t.parse text true = .ok (.int v) → t.parse text' true = .ok (.int v') →
      compare v v'
        = (compare major major').then ((compare minor minor').then (compare release release'))

theorem parse_version_ok_iff {t : ValueType} (hg : t.grammar = .version) {text : String}
    {v : Value} : t.parse text true = .ok v ↔ readVersion text = .ok v := by
  have hstrict : t.strict text = readVersion text := by
    unfold strict
    simp only [hg]
  unfold parse
  rw [hstrict]
  cases readVersion text with
  | ok w => simp only [Except.ok.injEq]
  | error r => simp

/-- **A type of versions takes exactly the versions and keeps their order.** -/
theorem readsVersions {t : ValueType} (hg : t.grammar = .version) : t.ReadsVersions := by
  -- whatever numbers spell a text that is taken, they are within the bounds and were packed
  have hread : ∀ {text v major minor release}, Spells text major minor release →
      t.parse text true = .ok v →
        IsVersion major minor release ∧ v = .int (packed major minor release) := by
    intro text v major minor release hs h
    rw [parse_version_ok_iff hg] at h
    have hv := isVersion_of_readVersion hs h
    rw [readVersion_of_spells hs hv] at h
    exact ⟨hv, (Except.ok.inj h).symm⟩
  refine ⟨?_, ?_, ?_, ?_⟩
  · intro text
    simp only [parse_version_ok_iff hg, readVersion_ok_iff]
    constructor
    · rintro ⟨v, major, minor, release, hs, hv, -⟩
      exact ⟨major, minor, release, hs, hv⟩
    · rintro ⟨major, minor, release, hs, hv⟩
      exact ⟨_, major, minor, release, hs, hv, rfl⟩
  · intro text v major minor release hs h
    obtain ⟨hv, hpacked⟩ := hread hs h
    exact ⟨hpacked, packsInRange hv, packed_bounds hv⟩
  · intro text v major minor release hs h
    obtain ⟨hv, rfl⟩ := hread hs h
    have htext : t.render (.int (packed major minor release))
        = versionText (packed major minor release) := by
      unfold render
      simp only [hg]
    rw [htext]
    exact spells_versionText hv
  · intro text text' v v' major minor release major' minor' release' hs hs' h h'
    obtain ⟨hv, hpacked⟩ := hread hs h
    obtain ⟨hv', hpacked'⟩ := hread hs' h'
    cases hpacked
    cases hpacked'
    exact compare_packed hv hv'

/-- Version 1.00.001 comes before version 1.0.00012. -/
theorem readsVersions_version :
    Catalog.version.grammar = .version ∧
      Catalog.version.parse "1.00.001" true = .ok (.int 10000001) ∧
      Catalog.version.parse "1.0.00012" true = .ok (.int 10000012) ∧
      compare (10000001 : Int) 10000012
        = (compare 1 1).then ((compare 0 0).then (compare 1 12)) := by
  have hgrammar : Catalog.version.grammar = .version := rfl
  have hfirst : Catalog.version.parse "1.00.001" true = .ok (.int 10000001) := by rfl
  have hsecond : Catalog.version.parse "1.0.00012" true = .ok (.int 10000012) := by rfl
  have hone : AllDigits ['1'] := List.all_eq_true.mp (by decide)
  have hzeros : AllDigits ['0'] ∧ AllDigits ['0', '0'] :=
    ⟨List.all_eq_true.mp (by decide), List.all_eq_true.mp (by decide)⟩
  have hreleases : AllDigits ['0', '0', '1'] ∧ AllDigits ['0', '0', '0', '1', '2'] :=
    ⟨List.all_eq_true.mp (by decide), List.all_eq_true.mp (by decide)⟩
  have hspells : Spells "1.00.001" 1 0 1 :=
    ⟨['1'], ['0', '0'], ['0', '0', '1'], rfl, ⟨by decide, hone, rfl⟩,
      ⟨by decide, hzeros.2, rfl⟩, ⟨by decide, hreleases.1, rfl⟩⟩
  have hspells' : Spells "1.0.00012" 1 0 12 :=
    ⟨['1'], ['0'], ['0', '0', '0', '1', '2'], rfl, ⟨by decide, hone, rfl⟩,
      ⟨by decide, hzeros.1, rfl⟩, ⟨by decide, hreleases.2, rfl⟩⟩
  exact ⟨hgrammar, hfirst, hsecond,
    (readsVersions hgrammar).ordered hspells hspells' hfirst hsecond⟩

end ValueType

end ListingMetadata
