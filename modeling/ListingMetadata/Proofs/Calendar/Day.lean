/-
  ListingMetadata.Proofs.Calendar.Day
  ───────────────────────────────────
  **EVERY DAY NUMBER IS THE NUMBER OF A DATE.**

  The year of a day is the one that has begun and not ended, its month the last
  that does not begin later.  So the date of a day number exists, and its number
  is the one it was made from:

    • `begun_yearOf`, `not_ended_yearOf` — years,
    • `begun_monthOf`                    — months,
    • `isValid_ofNumber`, `number_ofNumber` — dates.
-/
import ListingMetadata.Calendar.Day
import Mathlib.Tactic.Common

namespace ListingMetadata.Calendar

/-! ## §1. Years -/

/-- The days of a year. -/
def yearLength (year : Int) : Nat :=
  if isLeap year then 366 else 365

theorem isLeap_iff {year : Int} :
    isLeap year = true ↔ year % 4 = 0 ∧ (year % 100 ≠ 0 ∨ year % 400 = 0) := by
  unfold isLeap
  rw [Bool.and_eq_true, Bool.or_eq_true, decide_eq_true_eq, decide_eq_true_eq, decide_eq_true_eq]

/-- A year begins where the year before ends. -/
theorem daysBeforeYear_succ (year : Int) :
    daysBeforeYear (year + 1) = daysBeforeYear year + yearLength year := by
  unfold daysBeforeYear yearLength
  have hyear : year + 1 - 1 = year := by omega
  rw [hyear]
  split
  · rename_i hleap
    rw [isLeap_iff] at hleap
    omega
  · rename_i hcommon
    rw [isLeap_iff] at hcommon
    omega

/-- A year begins within a day or two of where 400 years of equal length would
have it begin. -/
theorem bounds_daysBeforeYear (year : Int) :
    146097 * (year - 1) - 800 ≤ 400 * daysBeforeYear year ∧
      400 * daysBeforeYear year ≤ 146097 * (year - 1) + 800 := by
  unfold daysBeforeYear
  omega

/-- The year of a day has begun. -/
theorem begun_yearOf (days : Int) : daysBeforeYear (yearOf days) ≤ days := by
  have hbefore := bounds_daysBeforeYear (400 * days / 146097 + 1 - 1)
  unfold yearOf
  dsimp only
  split
  · omega
  · split
    · assumption
    · omega

/-- The year of a day has not ended. -/
theorem not_ended_yearOf (days : Int) : days < daysBeforeYear (yearOf days + 1) := by
  have hafter := bounds_daysBeforeYear (400 * days / 146097 + 1 + 1 + 1)
  unfold yearOf
  dsimp only
  split
  · rename_i hlt
    have hguess : 400 * days / 146097 + 1 - 1 + 1 = 400 * days / 146097 + 1 := by omega
    rw [hguess]
    exact hlt
  · split
    · omega
    · omega

/-! ## §2. Months -/

theorem daysBeforeMonth_succ (year : Int) {month : Nat} (h : 1 ≤ month) :
    daysBeforeMonth year (month + 1) = daysBeforeMonth year month + monthLength year month := by
  cases month with
  | zero => omega
  | succ month => rfl

/-- The twelve months make the year. -/
theorem daysBeforeMonth_thirteen (year : Int) : daysBeforeMonth year 13 = yearLength year := by
  unfold yearLength
  cases h : isLeap year <;> simp [daysBeforeMonth, monthLength, h]

/-- **The month of a day has begun and not ended.** -/
theorem begun_monthOf (year : Int) (days : Nat) (last : Nat)
    (h : days < daysBeforeMonth year (last + 1)) :
    1 ≤ monthOf year days last ∧ monthOf year days last ≤ last ∧
      daysBeforeMonth year (monthOf year days last) ≤ days ∧
      days < daysBeforeMonth year (monthOf year days last + 1) := by
  induction last with
  | zero => exact absurd h (by simp [daysBeforeMonth])
  | succ last ih =>
    unfold monthOf
    split
    · rename_i hbegun
      exact ⟨by omega, Nat.le_refl _, hbegun, h⟩
    · rename_i hlater
      obtain ⟨hfirst, hlast, hrest⟩ := ih (by omega)
      exact ⟨hfirst, by omega, hrest⟩

/-! ## §3. Dates -/

section Dates

variable (n : Int)

/-- The day of the year, from 0 on. -/
def dayOfYear (n : Int) : Nat :=
  (n + epochDay - daysBeforeYear (yearOf (n + epochDay))).toNat

theorem dayOfYear_lt : dayOfYear n < yearLength (yearOf (n + epochDay)) := by
  have hbegun := begun_yearOf (n + epochDay)
  have hended := not_ended_yearOf (n + epochDay)
  rw [daysBeforeYear_succ] at hended
  unfold dayOfYear
  omega

theorem ofNumber_eq :
    Date.ofNumber n
      = ⟨yearOf (n + epochDay), monthOf (yearOf (n + epochDay)) (dayOfYear n) 12,
          dayOfYear n - daysBeforeMonth (yearOf (n + epochDay))
            (monthOf (yearOf (n + epochDay)) (dayOfYear n) 12) + 1⟩ := rfl

/-- **The date of a day number exists.** -/
theorem isValid_ofNumber : (Date.ofNumber n).isValid = true := by
  have hyear : dayOfYear n < daysBeforeMonth (yearOf (n + epochDay)) (12 + 1) := by
    rw [daysBeforeMonth_thirteen]
    exact dayOfYear_lt n
  obtain ⟨hfirst, hlast, hbegun, hended⟩ := begun_monthOf _ _ 12 hyear
  rw [daysBeforeMonth_succ _ hfirst] at hended
  rw [ofNumber_eq]
  unfold Date.isValid
  simp only [Bool.and_eq_true, decide_eq_true_eq]
  omega

/-- **The number of the date of a day number is that number.** -/
theorem number_ofNumber : (Date.ofNumber n).number = n := by
  have hyear : dayOfYear n < daysBeforeMonth (yearOf (n + epochDay)) (12 + 1) := by
    rw [daysBeforeMonth_thirteen]
    exact dayOfYear_lt n
  obtain ⟨-, -, hbegun, -⟩ := begun_monthOf _ _ 12 hyear
  have hday : (dayOfYear n : Int) = n + epochDay - daysBeforeYear (yearOf (n + epochDay)) := by
    have hyearBegun := begun_yearOf (n + epochDay)
    unfold dayOfYear
    omega
  rw [ofNumber_eq]
  unfold Date.number
  dsimp only
  omega

end Dates

end ListingMetadata.Calendar
