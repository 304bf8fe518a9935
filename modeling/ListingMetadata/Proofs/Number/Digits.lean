/-
  ListingMetadata.Proofs.Number.Digits
  ────────────────────────────────────
  **NUMBERS READ BACK FROM THEIR DIGITS.**

  What is written is read back: the digits of a number have its value, zeros in
  front change nothing, and a signed number in the range of 64 bits is read from
  its own text:

    • `digitsValue_digits`, `digitsValue_zeroFilled` — runs of digits,
    • `readInt_of_digits`   — a run of digits is read up to the greatest number,
    • `readInt_shown`       — a number is read from its text,
    • `isInt_of_readInt`    — what is read is in the range,
    • `readUpTo_of_digits`  — a run of digits is read as a number without a sign.
-/
import ListingMetadata.Number.Integer
import Mathlib.Algebra.Group.Nat.Defs
import Mathlib.Data.List.Basic
import Mathlib.Data.List.Induction

namespace ListingMetadata.Number

/-! ## §1. The value of digits -/

/-- Only digits. -/
def AllDigits (cs : List Char) : Prop :=
  ∀ c ∈ cs, c.isDigit = true

theorem AllDigits.append {cs ds : List Char} (h : AllDigits cs) (h' : AllDigits ds) :
    AllDigits (cs ++ ds) := by
  intro c hc
  rcases List.mem_append.mp hc with hc | hc
  · exact h c hc
  · exact h' c hc

theorem digitsValue_eq (cs : List Char) : digitsValue cs = Nat.ofDigitChars 10 cs 0 := by
  unfold digitsValue Nat.ofDigitChars
  congr 1
  funext n c
  rw [Nat.mul_comm]
  rfl

theorem allDigits_digits (n : Nat) : AllDigits (digits n) := by
  intro c hc
  exact Nat.isDigit_of_mem_toDigits (by omega) (by omega) hc

theorem digits_ne_nil (n : Nat) : digits n ≠ [] := Nat.toDigits_ne_nil

@[simp] theorem digitsValue_digits (n : Nat) : digitsValue (digits n) = n := by
  rw [digitsValue_eq]
  exact Nat.ofDigitChars_toDigits (by omega) (by omega)

theorem length_digits_le_iff {n width : Nat} (h : 0 < width) :
    (digits n).length ≤ width ↔ n < 10 ^ width :=
  Nat.length_toDigits_le_iff (by omega) h

/-! ## §2. Zeros in front -/

theorem allDigits_zeroFilled (width n : Nat) : AllDigits (zeroFilled width (digits n)) := by
  unfold zeroFilled
  apply AllDigits.append _ (allDigits_digits n)
  intro c hc
  rw [List.eq_of_mem_replicate hc]
  rfl

theorem zeroFilled_ne_nil (width n : Nat) : zeroFilled width (digits n) ≠ [] := by
  intro h
  exact digits_ne_nil n (List.append_eq_nil_iff.mp h).2

theorem length_zeroFilled {width n : Nat} (hw : 0 < width) (h : n < 10 ^ width) :
    (zeroFilled width (digits n)).length = width := by
  have hle : (digits n).length ≤ width := (length_digits_le_iff hw).mpr h
  unfold zeroFilled
  rw [List.length_append, List.length_replicate]
  omega

/-- Filled with zeros, a text is at least as long as the width. -/
theorem le_length_zeroFilled (width : Nat) (cs : List Char) :
    width ≤ (zeroFilled width cs).length := by
  unfold zeroFilled
  rw [List.length_append, List.length_replicate]
  omega

theorem digitsValue_zeros (zeros : Nat) (cs : List Char) :
    digitsValue (List.replicate zeros '0' ++ cs) = digitsValue cs := by
  induction zeros with
  | zero => rfl
  | succ zeros ih =>
    rw [List.replicate_succ, List.cons_append]
    exact ih

@[simp] theorem digitsValue_zeroFilled (width n : Nat) :
    digitsValue (zeroFilled width (digits n)) = n := by
  unfold zeroFilled
  rw [digitsValue_zeros, digitsValue_digits]

theorem shown_natCast (n : Nat) : shown n = digits n := by
  unfold shown
  rw [if_neg (by omega)]
  rfl

theorem padded_natCast (width n : Nat) : padded width n = zeroFilled width (digits n) := by
  unfold padded
  rw [if_neg (by omega)]
  rfl

/-! ## §3. Fixed widths -/

theorem digitsValue_append (cs ds : List Char) :
    digitsValue (cs ++ ds) = 10 ^ ds.length * digitsValue cs + digitsValue ds := by
  rw [digitsValue_eq, digitsValue_eq, digitsValue_eq, Nat.ofDigitChars_append,
    Nat.ofDigitChars_eq_ofDigitChars_zero]

theorem digitsValue_concat (cs : List Char) (c : Char) :
    digitsValue (cs ++ [c]) = 10 * digitsValue cs + (c.toNat - 48) := by
  rw [digitsValue_append]
  simp [digitsValue]

theorem toNat_bounds_of_isDigit {c : Char} (h : c.isDigit = true) : 48 ≤ c.toNat ∧ c.toNat ≤ 57 := by
  have hbounds := Char.isDigit_iff_toNat.mp h
  exact ⟨hbounds.1, hbounds.2⟩

/-- **Runs of digits of one length differ in their values.** -/
theorem eq_of_digitsValue_eq {cs ds : List Char} (hc : AllDigits cs) (hd : AllDigits ds)
    (hlength : cs.length = ds.length) (hvalue : digitsValue cs = digitsValue ds) : cs = ds := by
  -- on the runs, last digit first: it is the value modulo ten
  induction cs using List.reverseRecOn generalizing ds with
  | nil => exact (List.length_eq_zero_iff.mp hlength.symm).symm
  | append_singleton cs c ih =>
    cases ds using List.reverseRecOn with
    | nil => simp at hlength
    | append_singleton ds d =>
      rw [digitsValue_concat, digitsValue_concat] at hvalue
      have hcb := toNat_bounds_of_isDigit (hc c (by simp))
      have hdb := toNat_bounds_of_isDigit (hd d (by simp))
      have hlast : c = d := Char.toNat_inj.mp (by omega)
      have hrest : cs = ds := by
        apply ih (fun x hx => hc x (List.mem_append_left _ hx))
          (fun x hx => hd x (List.mem_append_left _ hx))
        · simpa using hlength
        · omega
      rw [hlast, hrest]

/-- Four digits are two and two. -/
theorem zeroFilled_four {n : Nat} (h : n < 10000) :
    zeroFilled 4 (digits n)
      = zeroFilled 2 (digits (n / 100)) ++ zeroFilled 2 (digits (n % 100)) := by
  have hfour : (zeroFilled 4 (digits n)).length = 4 := length_zeroFilled (by omega) (by omega)
  have hfirst : (zeroFilled 2 (digits (n / 100))).length = 2 :=
    length_zeroFilled (by omega) (by omega)
  have hlast : (zeroFilled 2 (digits (n % 100))).length = 2 :=
    length_zeroFilled (by omega) (by omega)
  apply eq_of_digitsValue_eq (allDigits_zeroFilled 4 n)
    ((allDigits_zeroFilled 2 (n / 100)).append (allDigits_zeroFilled 2 (n % 100)))
  · rw [List.length_append, hfour, hfirst, hlast]
  · rw [digitsValue_append, digitsValue_zeroFilled, digitsValue_zeroFilled, digitsValue_zeroFilled,
      hlast]
    omega

/-- Two digits, each with its value. -/
theorem exists_zeroFilled_two {n : Nat} (h : n < 100) :
    ∃ a b, zeroFilled 2 (digits n) = [a, b] ∧ digitValue? a = some (n / 10) ∧
      digitValue? b = some (n % 10) := by
  have hlength : (zeroFilled 2 (digits n)).length = 2 := length_zeroFilled (by omega) (by omega)
  obtain ⟨a, b, hab⟩ := List.length_eq_two.mp hlength
  have hall := allDigits_zeroFilled 2 n
  have hvalue := digitsValue_zeroFilled 2 n
  rw [hab] at hall hvalue
  have ha : a.isDigit = true := hall a (by simp)
  have hb : b.isDigit = true := hall b (by simp)
  have hab2 := toNat_bounds_of_isDigit ha
  have hbb := toNat_bounds_of_isDigit hb
  have hsum : (a.toNat - 48) * 10 + (b.toNat - 48) = n := by
    rw [← hvalue]
    simp [digitsValue]
  refine ⟨a, b, hab, ?_, ?_⟩
  · unfold digitValue?
    rw [if_pos ha]
    congr 1
    omega
  · unfold digitValue?
    rw [if_pos hb]
    congr 1
    omega

/-! ## §4. Reading digits -/

/-- The value of digits after others of a value. -/
def valueFrom (acc : Nat) (cs : List Char) : Nat :=
  cs.foldl (fun n c => n * 10 + (c.toNat - 48)) acc

theorem le_valueFrom (acc : Nat) (cs : List Char) : acc ≤ valueFrom acc cs := by
  induction cs generalizing acc with
  | nil => exact Nat.le_refl _
  | cons c cs ih =>
    have hrest : acc * 10 + (c.toNat - 48) ≤ valueFrom (acc * 10 + (c.toNat - 48)) cs := ih _
    show acc ≤ valueFrom (acc * 10 + (c.toNat - 48)) cs
    omega

/-- **Digits are read as long as their value does not exceed the limit.** -/
theorem readDigits_of_digits {limit : Nat} (beyond : IntegerFault) {cs : List Char}
    (h : AllDigits cs) {acc : Nat} (ha : acc ≤ limit) :
    readDigits limit beyond acc cs
      = if valueFrom acc cs ≤ limit then .ok (valueFrom acc cs) else .error beyond := by
  induction cs generalizing acc with
  | nil => exact (if_pos ha).symm
  | cons c cs ih =>
    have hdigit : digitValue? c = some (c.toNat - 48) := if_pos (h c List.mem_cons_self)
    have hrest : AllDigits cs := fun d hd => h d (List.mem_cons_of_mem _ hd)
    have hvalue : valueFrom acc (c :: cs) = valueFrom (acc * 10 + (c.toNat - 48)) cs := rfl
    unfold readDigits
    rw [hdigit, hvalue]
    show (if acc * 10 + (c.toNat - 48) ≤ limit then _ else _) = _
    split
    · rename_i hle
      exact ih hrest hle
    · rename_i hgt
      -- more digits make the number no smaller
      have hmore := le_valueFrom (acc * 10 + (c.toNat - 48)) cs
      rw [if_neg (by omega)]

/-- What is read does not exceed the limit. -/
theorem le_of_readDigits {limit : Nat} {beyond : IntegerFault} {acc n : Nat} {cs : List Char}
    (ha : acc ≤ limit) (h : readDigits limit beyond acc cs = .ok n) : n ≤ limit := by
  induction cs generalizing acc with
  | nil =>
    cases h
    exact ha
  | cons c cs ih =>
    unfold readDigits at h
    split at h
    · cases h
    · split at h
      · rename_i hle
        exact ih hle h
      · cases h

/-! ## §5. Signed numbers -/

/-- A number that 64 bits with a sign hold. -/
def IsInt (v : Int) : Prop :=
  -(maxInt + 1 : Nat) ≤ v ∧ v ≤ maxInt

/-- A text that does not begin with a sign is read digit by digit. -/
theorem readInt_of_unsigned {c : Char} {cs : List Char} (hp : c ≠ '+') (hm : c ≠ '-') :
    readInt (c :: cs) = (readDigits maxInt .tooLarge 0 (c :: cs)).map Int.ofNat := by
  unfold readInt
  split
  · rename_i h
    cases h
  · rename_i h
    exact absurd (List.cons.inj h).1 hp
  · rename_i h
    exact absurd (List.cons.inj h).1 hm
  · rename_i h
    exact absurd (List.cons.inj h).1 hp
  · rename_i h
    exact absurd (List.cons.inj h).1 hm
  · rfl

/-- A digit is no sign. -/
theorem ne_sign_of_isDigit {c : Char} (h : c.isDigit = true) : c ≠ '+' ∧ c ≠ '-' := by
  constructor <;>
  · rintro rfl
    exact absurd h (by decide)

/-- **A run of digits is read, up to the greatest number.** -/
theorem readInt_of_digits {cs : List Char} (hne : cs ≠ []) (h : AllDigits cs) :
    readInt cs = if digitsValue cs ≤ maxInt then .ok (digitsValue cs : Int) else .error .tooLarge := by
  cases cs with
  | nil => exact absurd rfl hne
  | cons c cs =>
    obtain ⟨hp, hm⟩ := ne_sign_of_isDigit (h c List.mem_cons_self)
    rw [readInt_of_unsigned hp hm, readDigits_of_digits .tooLarge h (Nat.zero_le _)]
    show Except.map Int.ofNat (if digitsValue (c :: cs) ≤ maxInt then Except.ok (digitsValue (c :: cs))
      else .error IntegerFault.tooLarge) = _
    split <;> rfl

/-- **A number in the range is read from its text.** -/
theorem readInt_shown {v : Int} (h : IsInt v) : readInt (shown v) = .ok v := by
  obtain ⟨hlo, hhi⟩ := h
  unfold shown
  split
  · rename_i hneg
    have hnot : digits v.natAbs ≠ [] := digits_ne_nil _
    have hle : v.natAbs ≤ maxInt + 1 := by omega
    have hvalue : valueFrom 0 (digits v.natAbs) = v.natAbs := digitsValue_digits _
    have hread : readInt ('-' :: digits v.natAbs)
        = (readDigits (maxInt + 1) .tooSmall 0 (digits v.natAbs)).map fun n => -Int.ofNat n := by
      cases hd : digits v.natAbs with
      | nil => exact absurd hd hnot
      | cons c cs => rfl
    rw [hread, readDigits_of_digits .tooSmall (allDigits_digits _) (Nat.zero_le _), hvalue,
      if_pos hle]
    show Except.ok (-(v.natAbs : Int)) = _
    congr 1
    omega
  · rename_i hpos
    have hle : v.natAbs ≤ maxInt := by omega
    rw [readInt_of_digits (digits_ne_nil _) (allDigits_digits _), digitsValue_digits, if_pos hle]
    congr 1
    omega

theorem isInt_of_map {limit : Nat} {beyond : IntegerFault} {cs : List Char} {v : Int}
    {f : Nat → Int} (hf : ∀ n ≤ limit, IsInt (f n))
    (h : (readDigits limit beyond 0 cs).map f = .ok v) : IsInt v := by
  cases hd : readDigits limit beyond 0 cs with
  | error b =>
    rw [hd] at h
    cases h
  | ok n =>
    rw [hd] at h
    cases h
    exact hf n (le_of_readDigits (Nat.zero_le _) hd)

/-- **What is read is in the range.** -/
theorem isInt_of_readInt {cs : List Char} {v : Int} (h : readInt cs = .ok v) : IsInt v := by
  have hpos : ∀ n ≤ maxInt, IsInt (Int.ofNat n) := by
    intro n hn
    unfold IsInt
    constructor
    · show _ ≤ (n : Int)
      omega
    · show (n : Int) ≤ _
      omega
  have hneg : ∀ n ≤ maxInt + 1, IsInt (-Int.ofNat n) := by
    intro n hn
    unfold IsInt
    constructor
    · show _ ≤ -(n : Int)
      omega
    · show -(n : Int) ≤ _
      omega
  unfold readInt at h
  split at h
  · cases h
  · cases h
  · cases h
  · exact isInt_of_map hpos h
  · exact isInt_of_map hneg h
  · exact isInt_of_map hpos h

/-! ## §6. Unsigned numbers -/

/-- **A run of digits is read without a sign, up to the limit.** -/
theorem readUpTo_of_digits {limit : Nat} {cs : List Char} (hne : cs ≠ []) (h : AllDigits cs) :
    readUpTo limit cs
      = if digitsValue cs ≤ limit then .ok (digitsValue cs) else .error .tooLarge := by
  cases cs with
  | nil => exact absurd rfl hne
  | cons c cs =>
    have hplain : readUpTo limit (c :: cs) = readDigits limit .tooLarge 0 (c :: cs) := by
      unfold readUpTo
      split
      · rename_i hcons
        cases hcons
      · rename_i hcons
        exact absurd (List.cons.inj hcons).1 (ne_sign_of_isDigit (h c List.mem_cons_self)).1
      · rename_i hcons
        exact absurd (List.cons.inj hcons).1 (ne_sign_of_isDigit (h c List.mem_cons_self)).1
      · rfl
    rw [hplain]
    exact readDigits_of_digits .tooLarge h (Nat.zero_le _)

end ListingMetadata.Number
