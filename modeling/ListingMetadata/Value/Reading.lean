/-
  ListingMetadata.Value.Reading
  ─────────────────────────────
  **READING AND RENDERING VALUES.**

  Strict reading takes a text that follows the grammar and refuses any other.
  Lenient reading never refuses: it takes what strict reading takes, else
  coerces the trimmed text, else keeps the text as it is.  Rendering gives the
  canonical text of a value.
-/
import ListingMetadata.Calendar.Plain
import ListingMetadata.Text.Bytes
import ListingMetadata.Value.Grammar

namespace ListingMetadata

open Calendar Number Text

/-! ## §1. Versions -/

/-- The weight of the major number in a version. -/
def majorWeight : Int := 10000000

/-- The weight of the minor number in a version. -/
def minorWeight : Int := 100000

/-- A group of digits, at least one. -/
def isDigitGroup (cs : List Char) : Bool :=
  !cs.isEmpty && cs.all Char.isDigit

/-- A number of a version. -/
def readGroup (cs : List Char) : Except Reason Int :=
  match readInt cs with
  | .ok v => .ok v
  | .error f => .error (.integer f)

/-- Three groups of digits as one number. -/
def readVersion (text : String) : Except Reason Value :=
  match text.toList.splitOn '.' with
  | [a, b, c] =>
    if isDigitGroup a && isDigitGroup b && isDigitGroup c then do
      let major ← readGroup a
      let minor ← readGroup b
      let release ← readGroup c
      if minor ≥ 100 ∨ release ≥ minorWeight ∨ major ≥ 1000 then .error .versionRange
      else .ok (.int (major * majorWeight + minor * minorWeight + release))
    else .error .versionForm
  | _ => .error .versionForm

/-- The three groups of a version; the last two are filled with zeros. -/
def versionText (v : Int) : String :=
  String.ofList (shown (v.tdiv majorWeight) ++ ['.'] ++ padded 2 ((v.tdiv minorWeight).tmod 100)
    ++ ['.'] ++ padded 5 (v.tmod minorWeight))

example : versionText 10500012 = "1.05.00012" := by decide
example : versionText (-1) = "0.00.-0001" := by decide

/-! ## §2. Time zones -/

/-- The number that characters spell, digits without a sign. -/
def unsigned? (cs : List Char) : Option Nat :=
  if cs.all Char.isDigit then (readUpTo maxNat32 cs).toOption else none

/-- The number in a range of bytes; a range that is torn holds none. -/
def numberAt? (text : String) (start stop : Nat) : Option Nat :=
  (slice text start stop).toOption.bind fun part => unsigned? part.toList

/-- Hours up to 14 and minutes up to 59. -/
def isOffset : Option Nat → Option Nat → Bool
  | some hours, some minutes => decide (hours ≤ 14) && decide (minutes < 60)
  | _, _ => false

/-- `Z`, or six bytes: a sign, hours, a colon and minutes, each looked up at its
place. -/
def checkZone (text : String) : Except AccessFault Bool :=
  if text = "Z" then .ok true
  else if text.utf8ByteSize ≠ 6 then .ok false
  else do
    let sign ← byteAt text 0
    if sign = '+'.toUInt8 ∨ sign = '-'.toUInt8 then
      let mark ← byteAt text 3
      if mark = ':'.toUInt8 then .ok (isOffset (numberAt? text 1 3) (numberAt? text 4 6))
      else .ok false
    else .ok false

/-- The verdict on six bytes. -/
theorem checkZone_of_bytes {text : String} (hz : text ≠ "Z") (hsize : text.utf8ByteSize = 6)
    {sign mark : UInt8} (hsign : byteAt text 0 = .ok sign) (hmark : byteAt text 3 = .ok mark) :
    checkZone text = .ok (decide (sign = '+'.toUInt8 ∨ sign = '-'.toUInt8)
      && decide (mark = ':'.toUInt8) && isOffset (numberAt? text 1 3) (numberAt? text 4 6)) := by
  unfold checkZone
  rw [if_neg hz, if_neg (not_not_intro hsize), hsign, hmark]
  show (if sign = '+'.toUInt8 ∨ sign = '-'.toUInt8 then
    if mark = ':'.toUInt8 then Except.ok _ else .ok false else .ok false) = _
  by_cases hs : sign = '+'.toUInt8 ∨ sign = '-'.toUInt8
  · by_cases hm : mark = ':'.toUInt8
    · rw [if_pos hs, if_pos hm, decide_eq_true hs, decide_eq_true hm]
      rfl
    · rw [if_pos hs, if_neg hm, decide_eq_false hm, Bool.and_false]
      rfl
  · rw [if_neg hs, decide_eq_false hs]
    rfl

/-- Only bytes that are there are looked at. -/
theorem checkZone_ne_error (text : String) (fault : AccessFault) :
    checkZone text ≠ .error fault := by
  by_cases hz : text = "Z"
  · simp [checkZone, hz]
  · by_cases hsize : text.utf8ByteSize = 6
    · have hthere : ∀ index < 6, ∃ b, byteAt text index = .ok b :=
        fun index hindex => exists_byteAt (by omega)
      obtain ⟨sign, hsign⟩ := hthere 0 (by omega)
      obtain ⟨mark, hmark⟩ := hthere 3 (by omega)
      simp [checkZone_of_bytes hz hsize hsign hmark]
    · simp [checkZone, hz, hsize]

/-- Whether a text is a time zone. -/
def isZoneText (text : String) : Bool :=
  match h : checkZone text with
  | .ok verdict => verdict
  | .error fault => absurd h (checkZone_ne_error text fault)

/-- The check comes to its verdict for every text. -/
theorem checkZone_eq (text : String) : checkZone text = .ok (isZoneText text) := by
  unfold isZoneText
  split
  · assumption
  · rename_i fault h
    exact absurd h (checkZone_ne_error text fault)

/-! ## §3. Strict reading -/

/-- The length is within the bounds, if there are any. -/
def ValueType.checkLength (t : ValueType) (cs : List Char) : Except Reason Unit :=
  if t.max = 0 then .ok ()
  else if cs.length < t.min ∨ cs.length > t.max then .error (.length cs.length t.min t.max)
  else .ok ()

/-- All characters are allowed. -/
def checkCharacters (allowed : Char → Bool) (cs : List Char) : Except Reason Unit :=
  match cs.find? fun c => !allowed c with
  | some c => .error (.character c)
  | none => .ok ()

/-- The value of a text that follows the grammar. -/
def ValueType.strict (t : ValueType) (text : String) : Except Reason Value :=
  match t.grammar with
  | .boolean =>
    if text = "1" then .ok (.bool true)
    else if text = "0" then .ok (.bool false)
    else .error .notBit
  | .date =>
    match readInternet text with
    | .ok d => .ok (.date d.wholeSecond)
    | .error f => .error (.date f)
  | .numeric =>
    match readInt text.toList with
    | .ok v => .ok (.int v)
    | .error f => .error (.integer f)
  | .positive =>
    if isDigitGroup text.toList then
      match readInt text.toList with
      | .ok v => .ok (.int v)
      | .error f => .error (.integer f)
    else .error .notDigits
  | .choice values =>
    if text ∈ values then .ok (.text text) else .error (.notOneOf values)
  | .version => readVersion text
  | .timeZone =>
    if isZoneText text then .ok (.text text) else .error .zoneForm
  | g =>
    match g.allowed? with
    | none => .ok (.text text)
    | some allowed => do
      t.checkLength text.toList
      checkCharacters allowed text.toList
      .ok (.text text)

/-! ## §4. Lenient reading -/

/-- The words that stand for truth. -/
def trueWords : List String := ["1", "true", "t", "y", "yes"]

/-- The words that stand for falsehood. -/
def falseWords : List String := ["0", "false", "f", "n", "no", ""]

/-- A value that a trimmed text can be taken for. -/
def ValueType.coerce? (t : ValueType) (trimmedText : String) : Option Value :=
  match t.grammar with
  | .boolean =>
    if lowered trimmedText ∈ trueWords then some (.bool true)
    else if lowered trimmedText ∈ falseWords then some (.bool false)
    else none
  | .numeric => (readInt trimmedText.toList).toOption.map .int
  | .positive =>
    match readInt trimmedText.toList with
    | .ok v => if v ≥ 0 then some (.int v) else none
    | .error _ => none
  | .date => (readAnyDate? trimmedText).map .date
  | .version => (readVersion trimmedText).toOption
  | .choice values => (values.find? fun v => sameFolded v trimmedText).map .text
  | _ => none

/-- The value of a text that need not follow the grammar. -/
def ValueType.lenient (t : ValueType) (text : String) : Value :=
  (t.coerce? (trimmed text)).getD (.text text)

/-- The fault of a text that does not follow the grammar. -/
def ValueType.fault (t : ValueType) (text : String) (reason : Reason) : ParseFault :=
  ⟨"", t.name, text, reason⟩

/-- The value of a text in either mode. -/
def ValueType.parse (t : ValueType) (text : String) (strict : Bool) : Except ParseFault Value :=
  match t.strict text with
  | .ok v => .ok v
  | .error reason => if strict then .error (t.fault text reason) else .ok (t.lenient text)

/-- What is read follows the grammar, or else the mode is lenient, and it is what the
trimmed text is coerced into or the text as it stands. -/
theorem ValueType.parse_cases {t : ValueType} {text : String} {strict : Bool} {v : Value}
    (h : t.parse text strict = .ok v) :
    t.strict text = .ok v ∨
      strict = false ∧ (∃ reason, t.strict text = .error reason) ∧
        (t.coerce? (trimmed text) = some v ∨
          t.coerce? (trimmed text) = none ∧ v = .text text) := by
  unfold ValueType.parse at h
  cases hs : t.strict text with
  | ok w =>
    rw [hs] at h
    cases h
    exact Or.inl rfl
  | error reason =>
    rw [hs] at h
    cases strict with
    | true => cases h
    | false =>
      have hv : t.lenient text = v := Except.ok.inj h
      unfold ValueType.lenient at hv
      refine Or.inr ⟨rfl, ⟨reason, rfl⟩, ?_⟩
      cases hc : t.coerce? (trimmed text) with
      | none =>
        rw [hc] at hv
        exact Or.inr ⟨rfl, hv.symm⟩
      | some w =>
        rw [hc] at hv
        exact Or.inl (congrArg some hv)

/-! ## §5. Rendering -/

/-- The canonical text of a value; a kept text stands as it is. -/
def ValueType.render (t : ValueType) : Value → String
  | .text s => s
  | .bool b => if b then "1" else "0"
  | .date d => d.text
  | .int v =>
    match t.grammar with
    | .version => versionText v
    | _ => showInt v

end ListingMetadata
