/-
  ListingMetadata.Proofs.Calendar.Texts
  ─────────────────────────────────────
  **WHICH DATE TEXTS ARE READ BACK.**

  The text of a whole second has four digits for a year from 0 to 9999 and is
  then read back as it was written, field by field.  Any other year has a sign
  in front, and no reader takes the text: internet dates and mail dates begin
  with no sign, and the zone-less forms leave the `Z` at the end unread:

    • `readInternet_text`    — years of four digits,
    • `readAnyDate?_of_wide` — all other years.
-/
import ListingMetadata.Calendar.Plain
import ListingMetadata.Proofs.Calendar.Day
import ListingMetadata.Proofs.Number.Digits

namespace ListingMetadata.Calendar

open ListingMetadata.Number ListingMetadata.Text

/-! ## §1. Fields at fixed places -/

/-- Two digits are read from their place. -/
theorem fixedPair_padded {n : Nat} (h : n < 100) (rest : List Char) :
    fixedPair (padded 2 n ++ rest) = .ok (n, rest) := by
  obtain ⟨a, b, hab, ha, hb⟩ := exists_zeroFilled_two h
  rw [padded_natCast, hab]
  simp only [fixedPair, List.cons_append, List.nil_append, ha, hb]
  show Except.ok (n / 10 * 10 + n % 10, rest) = _
  congr 2
  omega

/-- The instant has a year of four digits. -/
def Instant.HasPlainYear (t : Instant) : Prop :=
  0 ≤ t.date.year ∧ t.date.year ≤ 9999

/-- A date of a plain year is read from its text. -/
theorem fixedDate_text {d : Date} (hv : d.isValid = true) (hy : 0 ≤ d.year ∧ d.year ≤ 9999)
    (rest : List Char) : fixedDate (d.text ++ rest) = .ok (d, rest) := by
  obtain ⟨year, month, day⟩ := d
  obtain ⟨y, rfl⟩ : ∃ y : Nat, year = y := Int.eq_ofNat_of_zero_le hy.1
  have hlast : y ≤ 9999 := by
    have hle : (y : Int) ≤ 9999 := hy.2
    omega
  have hvalid := hv
  unfold Date.isValid monthLength at hvalid
  simp only [Bool.and_eq_true, decide_eq_true_eq] at hvalid
  have hday : day < 100 := by
    obtain ⟨-, hday⟩ := hvalid
    split at hday
    · split at hday <;> omega
    · split at hday <;> omega
  have htext : Date.text ⟨y, month, day⟩ ++ rest
      = padded 2 (y / 100 : Nat) ++ (padded 2 (y % 100 : Nat) ++ ('-' :: (padded 2 month ++
          ('-' :: (padded 2 day ++ rest))))) := by
    have hyear : yearText y = padded 2 (y / 100 : Nat) ++ padded 2 (y % 100 : Nat) := by
      unfold yearText
      rw [if_pos hy, padded_natCast, padded_natCast, padded_natCast, zeroFilled_four (by omega)]
    unfold Date.text
    simp only [hyear, List.append_assoc, List.cons_append, List.nil_append]
  have hmake : Date.make? ((y / 100 * 100 + y % 100 : Nat) : Int) month day = some ⟨y, month, day⟩ := by
    have hsum : y / 100 * 100 + y % 100 = y := by omega
    rw [hsum]
    unfold Date.make?
    have hrange : minYear ≤ (y : Int) ∧ (y : Int) ≤ maxYear := by
      unfold minYear maxYear
      omega
    simp only [hv, hrange, decide_true, Bool.and_self, if_true]
  rw [htext]
  unfold fixedDate
  rw [fixedPair_padded (by omega)]
  show (fixedPair (padded 2 (y % 100 : Nat) ++ _) >>= _) = _
  rw [fixedPair_padded (by omega)]
  show (fixedPair (padded 2 month ++ _) >>= _) = _
  rw [fixedPair_padded (by omega)]
  show (fixedPair (padded 2 day ++ _) >>= _) = _
  rw [fixedPair_padded (by omega)]
  simp only [bind, Except.bind, hmake]

/-- A time of day is read from its text. -/
theorem fixedClock_text {h m s : Nat} (hh : h < 100) (hm : m < 100) (hs : s < 100)
    (rest : List Char) :
    fixedClock (padded 2 h ++ (':' :: (padded 2 m ++ (':' :: (padded 2 s ++ rest)))))
      = .ok (h, m, s, rest) := by
  unfold fixedClock
  rw [fixedPair_padded hh]
  show (fixedPair (padded 2 m ++ _) >>= _) = _
  rw [fixedPair_padded hm]
  show (fixedPair (padded 2 s ++ _) >>= _) = _
  rw [fixedPair_padded hs]
  rfl

/-! ## §2. Years of four digits -/

theorem secondOfDay_lt (t : Instant) : t.secondOfDay < 86400 := by
  unfold Instant.secondOfDay secondsPerDay
  omega

/-- The time of day of a whole second. -/
theorem clockText_eq {t : Instant} (hn : t.nanos = 0) :
    t.clockText = padded 2 (t.secondOfDay / 3600 : Nat) ++ (':' ::
      (padded 2 (t.secondOfDay / 60 % 60 : Nat) ++ (':' ::
        padded 2 (t.secondOfDay % 60 : Nat)))) := by
  have hleap : ¬ t.nanos ≥ nanosPerSecond := by
    rw [hn]
    decide
  unfold Instant.clockText
  simp only [if_neg hleap, Nat.add_zero, List.append_assoc, List.cons_append, List.nil_append]

/-- The parts of a whole second make it up again. -/
theorem ofParts_parts {t : Instant} (hn : t.nanos = 0) :
    Instant.ofParts t.date (t.secondOfDay / 3600) (t.secondOfDay / 60 % 60) (t.secondOfDay % 60) 0
      = t := by
  obtain ⟨seconds, nanos⟩ := t
  have hnanos : nanos = 0 := hn
  subst hnanos
  unfold Instant.ofParts Instant.date
  dsimp only
  rw [number_ofNumber]
  congr 1
  unfold Instant.secondOfDay secondsPerDay
  dsimp only
  omega

/-- A reading of a whole second in universal time, none of them a leap second. -/
theorem at_of_whole {d : Date} {h m s : Nat} (hs : s ≠ 60) :
    Reading.at ⟨d.year, d.month, d.day, h, m, s, 0, 0⟩ d = Instant.ofParts d h m s 0 := by
  have hleap : decide (s = 60) = false := decide_eq_false hs
  unfold Reading.at
  simp only [hleap, Bool.false_eq_true, if_false]
  unfold Instant.ofParts
  rw [Int.sub_zero]

/-- A time of day and a `Z` after the date. -/
theorem readInternet_parts {d : Date} (hv : d.isValid = true)
    (hy : 0 ≤ d.year ∧ d.year ≤ 9999) {h m s : Nat} (hh : h < 24) (hm : m < 60) (hs : s < 60) :
    readInternet (String.ofList (d.text ++ ('T' :: (padded 2 h ++ (':' :: (padded 2 m ++ (':' ::
        (padded 2 s ++ ['Z']))))))))
      = .ok (Instant.ofParts d h m s 0) := by
  have hlong : ¬ byteLength (d.text ++ ('T' :: (padded 2 h ++ (':' :: (padded 2 m ++ (':' ::
      (padded 2 s ++ ['Z']))))))) < shortestLength := by
    have hwidth : ∀ width n : Nat, width ≤ (padded width n).length := by
      intro width n
      rw [padded_natCast]
      exact le_length_zeroFilled width _
    have hyear : 4 ≤ (yearText d.year).length := by
      obtain ⟨y, hy'⟩ := Int.eq_ofNat_of_zero_le hy.1
      unfold yearText
      rw [if_pos hy, hy']
      exact hwidth 4 y
    have hmonth := hwidth 2 d.month
    have hday := hwidth 2 d.day
    have hhour := hwidth 2 h
    have hminute := hwidth 2 m
    have hsecond := hwidth 2 s
    have hbytes := length_le_byteLength (d.text ++ ('T' :: (padded 2 h ++ (':' :: (padded 2 m ++
      (':' :: (padded 2 s ++ ['Z'])))))))
    unfold Date.text at hbytes ⊢
    simp only [List.length_append, List.length_cons, List.length_nil] at hbytes
    unfold shortestLength
    omega
  unfold readInternet
  rw [String.toList_ofList]
  show (if byteLength _ < shortestLength then _ else _) = _
  rw [if_neg hlong, fixedDate_text hv hy]
  show (fixedClock _ >>= _) = _
  rw [fixedClock_text (by omega) (by omega) (by omega)]
  show (if h < 24 ∧ m < 60 ∧ s ≤ 60 then _ else _) = _
  rw [if_pos ⟨hh, hm, by omega⟩]
  show Except.ok (Reading.at ⟨d.year, d.month, d.day, h, m, s, 0, 0⟩ d) = _
  rw [at_of_whole (by omega)]

/-- **A whole second in a plain year is read back from its text.** -/
theorem readInternet_text {t : Instant} (hn : t.nanos = 0) (hy : t.HasPlainYear) :
    readInternet t.text = .ok t := by
  have hday := secondOfDay_lt t
  have hparts := readInternet_parts (isValid_ofNumber _) hy (h := t.secondOfDay / 3600)
    (m := t.secondOfDay / 60 % 60) (s := t.secondOfDay % 60) (by omega) (by omega) (by omega)
  have htext : t.text = String.ofList (t.date.text ++ ('T' ::
      (padded 2 (t.secondOfDay / 3600 : Nat) ++ (':' ::
        (padded 2 (t.secondOfDay / 60 % 60 : Nat) ++ (':' ::
          (padded 2 (t.secondOfDay % 60 : Nat) ++ ['Z']))))))) := by
    unfold Instant.text
    rw [clockText_eq hn]
    simp only [List.append_assoc, List.cons_append, List.nil_append]
  rw [htext]
  exact hparts.trans (congrArg Except.ok (ofParts_parts hn))

/-! ## §3. A sign in front -/

/-- A plus or a minus. -/
def IsSign (c : Char) : Prop :=
  c = '+' ∨ c = '-'

/-- The text of a year outside of 0 to 9999 begins with a sign. -/
theorem yearText_of_wide {year : Int} (h : ¬(0 ≤ year ∧ year ≤ 9999)) :
    ∃ c cs, IsSign c ∧ yearText year = c :: cs := by
  unfold yearText
  rw [if_neg h]
  split
  · rename_i hneg
    unfold padded
    rw [if_pos hneg]
    exact ⟨'-', _, Or.inr rfl, rfl⟩
  · exact ⟨'+', _, Or.inl rfl, rfl⟩

/-- **A year that is not plain has a sign in front and a `Z` at the end.** -/
theorem text_of_wide {t : Instant} (h : ¬ t.HasPlainYear) :
    ∃ c cs, IsSign c ∧ t.text.toList = c :: (cs ++ ['Z']) := by
  obtain ⟨c, cs, hc, hyear⟩ := yearText_of_wide h
  refine ⟨c, cs ++ ['-'] ++ padded 2 t.date.month ++ ['-'] ++ padded 2 t.date.day ++ ['T']
    ++ t.clockText, hc, ?_⟩
  unfold Instant.text Date.text
  rw [String.toList_ofList, hyear]
  simp only [List.cons_append]

section Signed

variable {text : String} {c : Char} {cs : List Char}

/-- An internet date does not begin with a sign. -/
theorem readInternet_of_sign (hc : IsSign c) (htext : text.toList = c :: cs) (t : Instant) :
    readInternet text ≠ .ok t := by
  have hdate : fixedDate (c :: cs) = .error .invalid := by
    have hpair : fixedPair (c :: cs) = .error .invalid := by
      cases cs with
      | nil => rfl
      | cons b cs => rcases hc with rfl | rfl <;> rfl
    unfold fixedDate
    rw [hpair]
    rfl
  intro h
  unfold readInternet at h
  rw [htext] at h
  have hread : (if byteLength (c :: cs) < shortestLength then Except.error DateFault.tooShort
      else fixedDate (c :: cs) >>= _) = .ok t := h
  rw [hdate] at hread
  split at hread <;> cases hread

/-- A mail date does not begin with a sign. -/
theorem readMail_of_sign (hc : IsSign c) (htext : text.toList = c :: cs) (t : Instant) :
    readMail text ≠ .ok t := by
  have hblank : isBlank c = false := by rcases hc with rfl | rfl <;> decide
  have hdigit : c.isDigit = false := by rcases hc with rfl | rfl <;> decide
  have htrim : trimStart (c :: cs) = c :: cs := by
    unfold trimStart
    rw [List.dropWhile_cons_of_neg (by simp [hblank])]
  have hweekday : scanWeekday (c :: cs) = .ok (none, c :: cs) := by
    have hname : weekdayNames.findIdx? (fun name =>
        decide (name.toList = ((c :: cs).take 3).map Char.toLower)) = none := by
      rw [List.findIdx?_eq_none_iff]
      intro name hname
      apply decide_eq_false
      intro hsame
      -- a sign is no letter, in either case
      have hfirst : name.toList.head? = some c.toLower := by
        rw [hsame]
        rfl
      have hletters : ∀ name ∈ weekdayNames,
          name.toList.head? ≠ some '+' ∧ name.toList.head? ≠ some '-' := by decide
      rcases hc with rfl | rfl
      · exact (hletters name hname).1 hfirst
      · exact (hletters name hname).2 hfirst
    unfold scanWeekday scanName
    rw [hname]
  have hday : scanBounded 1 (some 2) 1 31 (c :: cs) = .error .invalid := by
    have hnumber : scanNumber 1 (some 2) (c :: cs) = .error .invalid := by
      unfold scanNumber
      simp [hdigit]
    unfold scanBounded
    rw [hnumber]
    rfl
  intro h
  unfold readMail at h
  rw [htext, htrim, hweekday] at h
  have hread : (scanBounded 1 (some 2) 1 31 (trimStart (c :: cs)) >>= _) = .ok t := h
  rw [htrim, hday] at hread
  cases hread

end Signed

/-! ## §4. A `Z` at the end -/

/-- The text ends with a `Z`. -/
def EndsZulu (cs : List Char) : Prop :=
  ∃ front, cs = front ++ ['Z']

theorem EndsZulu.ne_nil {cs : List Char} (h : EndsZulu cs) : cs ≠ [] := by
  obtain ⟨front, rfl⟩ := h
  simp

theorem EndsZulu.tail {c : Char} {cs : List Char} (h : EndsZulu (c :: cs)) (hc : c ≠ 'Z') :
    EndsZulu cs := by
  obtain ⟨front, hfront⟩ := h
  cases front with
  | nil => exact absurd (List.cons.inj hfront).1 hc
  | cons d front => exact ⟨front, (List.cons.inj hfront).2⟩

/-- What drops no `Z` leaves the one at the end. -/
theorem EndsZulu.dropWhile {p : Char → Bool} (hp : p 'Z' = false) {cs : List Char}
    (h : EndsZulu cs) : EndsZulu (cs.dropWhile p) := by
  induction cs with
  | nil => exact h
  | cons c cs ih =>
    rw [List.dropWhile_cons]
    split
    · rename_i hc
      have hne : c ≠ 'Z' := by
        intro hz
        rw [hz, hp] at hc
        cases hc
      exact ih (h.tail hne)
    · exact h

theorem EndsZulu.trimStart {cs : List Char} (h : EndsZulu cs) : EndsZulu (trimStart cs) :=
  h.dropWhile (by decide)

/-- The digits in front are no more than those in front of the `Z`. -/
theorem EndsZulu.drop {cs ds : List Char} (h : EndsZulu cs) (hd : AllDigits ds)
    (hfront : ds <+: cs) : EndsZulu (cs.drop ds.length) := by
  obtain ⟨rest, rfl⟩ := hfront
  rw [List.drop_left]
  induction ds with
  | nil => exact h
  | cons d ds ih =>
    have hne : d ≠ 'Z' := by
      intro hz
      exact absurd (hd d List.mem_cons_self) (by rw [hz]; decide)
    exact ih (fun c hc => hd c (List.mem_cons_of_mem _ hc)) (h.tail hne)

/-- What comes after a part of work that succeeds. -/
theorem exists_of_bind_ok {ε α β : Type} {x : Except ε α} {f : α → Except ε β} {r : β}
    (h : x >>= f = .ok r) : ∃ a, x = .ok a ∧ f a = .ok r := by
  cases x with
  | error e => cases h
  | ok a => exact ⟨a, rfl, h⟩

section Pieces

variable {cs rest : List Char}

theorem endsZulu_scanNumber {least : Nat} {most : Option Nat} {n : Nat} (h : EndsZulu cs)
    (hs : scanNumber least most cs = .ok (n, rest)) : EndsZulu rest := by
  have hwindow : ∀ (window : List Char) (short : DateFault), window <+: cs →
      (if (window.takeWhile Char.isDigit).length < least then Except.error short
        else if digitsValue (window.takeWhile Char.isDigit) > maxInt then .error .outOfRange
        else .ok (digitsValue (window.takeWhile Char.isDigit),
          cs.drop (window.takeWhile Char.isDigit).length)) = .ok (n, rest) → EndsZulu rest := by
    intro window short hwindow hok
    have hdigits : AllDigits (window.takeWhile Char.isDigit) := by
      have hall := List.all_takeWhile (p := Char.isDigit) (l := window)
      exact List.all_eq_true.mp hall
    split at hok
    · cases hok
    · split at hok
      · cases hok
      · cases hok
        exact h.drop hdigits ((List.takeWhile_prefix _).trans hwindow)
  cases most with
  | none => exact hwindow cs _ (List.prefix_refl cs) hs
  | some m => exact hwindow (cs.take m) _ (List.take_prefix m cs) hs

theorem endsZulu_scanMark {mark : Char} (hm : mark ≠ 'Z') (h : EndsZulu cs)
    (hs : scanMark mark cs = .ok rest) : EndsZulu rest := by
  cases cs with
  | nil => cases hs
  | cons c cs =>
    have hif : (if c = mark then Except.ok cs else .error DateFault.invalid) = .ok rest := hs
    split at hif
    · rename_i hc
      cases hif
      exact h.tail (hc ▸ hm)
    · cases hif

theorem endsZulu_roomyPair {lo hi n : Nat} (h : EndsZulu cs)
    (hs : roomyPair lo hi cs = .ok (n, rest)) : EndsZulu rest := by
  unfold roomyPair scanBounded at hs
  obtain ⟨⟨m, rest'⟩, hnumber, hs⟩ := exists_of_bind_ok hs
  have hbounds : (if lo ≤ m ∧ m ≤ hi then Except.ok (m, rest') else .error DateFault.outOfRange)
      = .ok (n, rest) := hs
  split at hbounds
  · cases hbounds
    exact endsZulu_scanNumber h.trimStart hnumber
  · cases hbounds

theorem endsZulu_roomyYear {year : Int} (h : EndsZulu cs)
    (hs : roomyYear cs = .ok (year, rest)) : EndsZulu rest := by
  have hnumber : ∀ (most : Option Nat) (ds : List Char) (f : Nat → Int), EndsZulu ds →
      (scanNumber 1 most ds >>= fun r =>
        if -2147483648 ≤ f r.1 ∧ f r.1 ≤ 2147483647 then Except.ok (f r.1, r.2)
        else .error .outOfRange) = .ok (year, rest) → EndsZulu rest := by
    intro most ds f hds hok
    obtain ⟨r, hr, hok⟩ := exists_of_bind_ok hok
    split at hok
    · cases hok
      exact endsZulu_scanNumber hds hr
    · cases hok
  have htrim := h.trimStart
  unfold roomyYear at hs
  dsimp only at hs
  split at hs
  · rename_i ds hds
    rw [hds] at htrim
    exact hnumber none ds (fun n => -(n : Int)) (htrim.tail (by decide)) hs
  · rename_i ds hds
    rw [hds] at htrim
    exact hnumber none ds (fun n => (n : Int)) (htrim.tail (by decide)) hs
  · exact hnumber (some 4) _ (fun n => (n : Int)) htrim hs

/-- **The zone-less forms do not end with a `Z`.** -/
theorem readPlain_of_endsZulu {divider : List Char → Except DateFault (List Char)}
    (hdivider : ∀ cs rest, EndsZulu cs → divider cs = .ok rest → EndsZulu rest) {text : String}
    (h : EndsZulu text.toList) (t : Instant) : readPlain divider text ≠ .ok t := by
  intro hread
  unfold readPlain at hread
  -- field by field the rest still ends with it
  obtain ⟨⟨year, c₁⟩, hyear, hread⟩ := exists_of_bind_ok hread
  obtain ⟨c₂, hmark₂, hread⟩ := exists_of_bind_ok hread
  obtain ⟨⟨month, c₃⟩, hmonth, hread⟩ := exists_of_bind_ok hread
  obtain ⟨c₄, hmark₄, hread⟩ := exists_of_bind_ok hread
  obtain ⟨⟨day, c₅⟩, hday, hread⟩ := exists_of_bind_ok hread
  obtain ⟨c₆, hdivided, hread⟩ := exists_of_bind_ok hread
  obtain ⟨⟨hour, c₇⟩, hhour, hread⟩ := exists_of_bind_ok hread
  obtain ⟨c₈, hmark₈, hread⟩ := exists_of_bind_ok hread
  obtain ⟨⟨minute, c₉⟩, hminute, hread⟩ := exists_of_bind_ok hread
  obtain ⟨c₁₀, hmark₁₀, hread⟩ := exists_of_bind_ok hread
  obtain ⟨⟨second, c₁₁⟩, hsecond, hread⟩ := exists_of_bind_ok hread
  have h₁ : EndsZulu c₁ := endsZulu_roomyYear h hyear
  have h₂ : EndsZulu c₂ := endsZulu_scanMark (by decide) h₁ hmark₂
  have h₃ : EndsZulu c₃ := endsZulu_roomyPair h₂ hmonth
  have h₄ : EndsZulu c₄ := endsZulu_scanMark (by decide) h₃ hmark₄
  have h₅ : EndsZulu c₅ := endsZulu_roomyPair h₄ hday
  have h₆ : EndsZulu c₆ := hdivider c₅ c₆ h₅ hdivided
  have h₇ : EndsZulu c₇ := endsZulu_roomyPair h₆ hhour
  have h₈ : EndsZulu c₈ := endsZulu_scanMark (by decide) h₇ hmark₈
  have h₉ : EndsZulu c₉ := endsZulu_roomyPair h₈ hminute
  have h₁₀ : EndsZulu c₁₀ := endsZulu_scanMark (by decide) h₉ hmark₁₀
  have h₁₁ : EndsZulu c₁₁ := endsZulu_roomyPair h₁₀ hsecond
  have hleft : (if c₁₁ ≠ [] then Except.error DateFault.tooLong else _) = .ok t := hread
  rw [if_pos h₁₁.ne_nil] at hleft
  cases hleft

end Pieces

/-! ## §5. All readers -/

/-- **Without a plain year no reader takes the text.** -/
theorem readAnyDate?_of_wide {t : Instant} (h : ¬ t.HasPlainYear) {text : String}
    (htext : text.toList = t.text.toList) : readAnyDate? text = none := by
  obtain ⟨c, cs, hc, hcs⟩ := text_of_wide h
  have hsign : text.toList = c :: (cs ++ ['Z']) := htext.trans hcs
  have hzulu : EndsZulu text.toList := ⟨c :: cs, hsign⟩
  have hnone : ∀ read ∈ [readInternet, readMail, readPlain letterDivider, readPlain blankDivider],
      ∀ d, read text ≠ .ok d := by
    intro read hread d
    rcases List.mem_cons.mp hread with rfl | hread
    · exact readInternet_of_sign hc hsign d
    rcases List.mem_cons.mp hread with rfl | hread
    · exact readMail_of_sign hc hsign d
    rcases List.mem_cons.mp hread with rfl | hread
    · exact readPlain_of_endsZulu (fun _ _ hz hm => endsZulu_scanMark (by decide) hz hm) hzulu d
    rcases List.mem_singleton.mp hread with rfl
    refine readPlain_of_endsZulu ?_ hzulu d
    intro cs rest hz hm
    cases hm
    exact hz.trimStart
  unfold readAnyDate?
  rw [List.findSome?_eq_none_iff]
  intro read hread
  cases hd : read text with
  | ok d => exact absurd hd (hnone read hread d)
  | error f => rfl

/-- A date that any reader finds is a whole second. -/
theorem nanos_of_readAnyDate? {text : String} {t : Instant} (h : readAnyDate? text = some t) :
    t.nanos = 0 := by
  unfold readAnyDate? at h
  obtain ⟨read, -, hread⟩ := List.exists_of_findSome?_eq_some h
  split at hread
  · cases hread
    rfl
  · cases hread

end ListingMetadata.Calendar
