/-
  ListingMetadata.Json.Draft
  ──────────────────────────
  **A JSON TEXT AS FAR AS IT CAN BE READ.**

  Reading never fails.  Where a text breaks off or breaks a rule, the draft
  ends there with the fault in its place, so that whoever goes through the
  draft from left to right meets the faults in the order of the text, among
  them those of a value that is not what it should be.
-/
import ListingMetadata.Json.Lexeme

namespace ListingMetadata.Json

/-! ## §1. Drafts -/

/-- How a container goes on after its last entry. -/
inductive Ending where
  /-- With its closing bracket. -/
  | closed
  /-- Not at all: the text ends. -/
  | cut
  /-- With a character that is neither bracket nor comma. -/
  | stray
  /-- With a comma, after which the text ends. -/
  | commaCut
  /-- With a comma and then its closing bracket. -/
  | commaClosed
  /-- With a comma and then something that is no name. -/
  | commaStray
deriving DecidableEq, Repr

/-- A value as far as it can be read. -/
inductive Draft where
  /-- The text ends where a value should stand. -/
  | absent
  /-- No value, or one that breaks off. -/
  | broken (fault : Fault)
  | null
  | bool (b : Bool)
  | number (lexeme : Lexeme Amount)
  | text (lexeme : Lexeme String)
  | list (items : List Draft) (ending : Ending)
  | object (members : List (Lexeme String × Draft)) (ending : Ending)
  /-- An object that begins with something else than a name. -/
  | unnamed

/-! ## §2. Reading -/

/-- A blank of JSON. -/
def isJsonBlank (c : Char) : Bool :=
  c == ' ' || c == '\n' || c == '\t' || c == '\r'

/-- Without the blanks in front. -/
def skipBlanks (cs : List Char) : List Char :=
  cs.dropWhile isJsonBlank

/-- The rest after a word whose first letter is gone. -/
def readWord (letters : List Char) (meant : Draft) (cs : List Char) :
    Draft × Option (List Char) :=
  match letters, cs with
  | [], cs => (meant, some cs)
  | _ :: _, [] => (.broken (.ended .value), none)
  | l :: ls, c :: cs =>
    if c = l then readWord ls meant cs else (.broken (.malformed .noWord), none)

mutual

/-- The value in front of a text and what follows it, if reading can go on.  The
number bounds the characters and brackets still to read. -/
def readDraft : Nat → List Char → Draft × Option (List Char)
  | 0, _ => (.absent, none)
  | n + 1, cs =>
    match skipBlanks cs with
    | [] => (.absent, none)
    | '"' :: rest =>
      let (lexeme, rest) := textLexeme rest
      (.text lexeme, rest)
    | '[' :: rest =>
      let (items, ending, rest) := readItems n true rest
      (.list items ending, rest)
    | '{' :: rest => readMembers n true rest
    | 'n' :: rest => readWord ['u', 'l', 'l'] .null rest
    | 't' :: rest => readWord ['r', 'u', 'e'] (.bool true) rest
    | 'f' :: rest => readWord ['a', 'l', 's', 'e'] (.bool false) rest
    | '-' :: rest =>
      let (lexeme, rest) := numberLexeme true rest
      (.number lexeme, rest)
    | c :: rest =>
      if c.isDigit then
        let (lexeme, rest) := numberLexeme false (c :: rest)
        (.number lexeme, rest)
      else (.broken (.malformed .noValue), none)

/-- The items of a list, its ending and what follows it; `first` at the opening
bracket, where no comma is due. -/
def readItems : Nat → Bool → List Char → List Draft × Ending × Option (List Char)
  | 0, _, _ => ([], .cut, none)
  | n + 1, first, cs =>
    match skipBlanks cs with
    | [] => ([], .cut, none)
    | ']' :: rest => ([], .closed, some rest)
    | c :: rest =>
      if first then readItem n (c :: rest)
      else if c = ',' then
        match skipBlanks rest with
        | [] => ([], .commaCut, none)
        | ']' :: _ => ([], .commaClosed, none)
        | rest => readItem n rest
      else ([], .stray, none)

/-- One item and the items after it. -/
def readItem : Nat → List Char → List Draft × Ending × Option (List Char)
  | 0, _ => ([], .cut, none)
  | n + 1, cs =>
    match readDraft n cs with
    | (item, none) => ([item], .cut, none)
    | (item, some rest) =>
      let (items, ending, rest) := readItems n false rest
      (item :: items, ending, rest)

/-- The members of an object as a draft of their own, and what follows it. -/
def readMembers : Nat → Bool → List Char → Draft × Option (List Char)
  | 0, _, _ => (.object [] .cut, none)
  | n + 1, first, cs =>
    match skipBlanks cs with
    | [] => (.object [] .cut, none)
    | '}' :: rest => (.object [] .closed, some rest)
    | c :: rest =>
      if first then
        if c = '"' then readMember n rest
        else (.unnamed, none)
      else if c = ',' then
        match skipBlanks rest with
        | [] => (.object [] .commaCut, none)
        | '"' :: rest => readMember n rest
        | '}' :: _ => (.object [] .commaClosed, none)
        | _ => (.object [] .commaStray, none)
      else (.object [] .stray, none)

/-- One member after the opening quote of its name, and the members after it. -/
def readMember : Nat → List Char → Draft × Option (List Char)
  | 0, _ => (.object [] .cut, none)
  | n + 1, cs =>
    match textLexeme cs with
    | (name, none) => (.object [(name, .absent)] .cut, none)
    | (name, some rest) =>
      match skipBlanks rest with
      | [] => (.object [(name, .broken (.ended .object))] .cut, none)
      | ':' :: rest =>
        match readDraft n rest with
        | (value, none) => (.object [(name, value)] .cut, none)
        | (value, some rest) =>
          match readMembers n false rest with
          | (.object members ending, rest) => (.object ((name, value) :: members) ending, rest)
          | (other, rest) => (other, rest)
      | _ => (.object [(name, .broken (.malformed .noColon))] .cut, none)

end

/-- A whole text: its value, and the fault of whatever follows the value. -/
def draftOf (text : String) : Draft × Option Fault :=
  let cs := text.toList
  match readDraft (3 * cs.length + 3) cs with
  | (draft, none) => (draft, none)
  | (draft, some rest) =>
    (draft, if skipBlanks rest = [] then none else some (.malformed .trailingText))

/-! ## §3. Going through a draft -/

/-- The fault of an ending where a further item is read. -/
def Ending.listFault : Ending → Option Fault
  | .closed => none
  | .cut => some (.ended .list)
  | .stray => some (.malformed .noListSeparator)
  | .commaCut => some (.ended .value)
  | .commaClosed => some (.malformed .trailingComma)
  | .commaStray => some (.malformed .noValue)

/-- The fault of an ending where a further member is read. -/
def Ending.objectFault : Ending → Option Fault
  | .closed => none
  | .cut => some (.ended .object)
  | .stray => some (.malformed .noObjectSeparator)
  | .commaCut => some (.ended .value)
  | .commaClosed => some (.malformed .trailingComma)
  | .commaStray => some (.malformed .keyNotText)

/-- The fault of an ending where a further item is passed over: after a comma a
bracket is no value. -/
def Ending.skippedListFault : Ending → Option Fault
  | .commaClosed => some (.malformed .noValue)
  | ending => ending.listFault

/-- The fault of an ending where a further member is passed over: after a comma
a bracket is no name. -/
def Ending.skippedObjectFault : Ending → Option Fault
  | .commaCut => some (.ended .object)
  | .commaClosed => some (.malformed .keyNotText)
  | ending => ending.objectFault

mutual

/-- The fault of passing over a value, which may be of any depth. -/
def Draft.skipped : Draft → Option Fault
  | .absent => some (.ended .value)
  | .broken f => some f
  | .null => none
  | .bool _ => none
  | .number l => l.skipped
  | .text l => l.skipped
  | .list items ending => (skippedItems items).or ending.skippedListFault
  | .object members ending => (skippedMembers members).or ending.skippedObjectFault
  | .unnamed => some (.malformed .keyNotText)

/-- The first fault of passing over items. -/
def skippedItems : List Draft → Option Fault
  | [] => none
  | d :: ds => d.skipped.or (skippedItems ds)

/-- The first fault of passing over members. -/
def skippedMembers : List (Lexeme String × Draft) → Option Fault
  | [] => none
  | (name, d) :: ms => name.skipped.or (d.skipped.or (skippedMembers ms))

end

/-- The fault of finding a value where something else is expected. -/
def Draft.wrong (expected : String) : Draft → Fault
  | .absent => .ended .value
  | .broken f => f
  | .null => .mismatched (.wrongType .null expected)
  | .bool b => .mismatched (.wrongType (.bool b) expected)
  | .number l =>
    match l.value with
    | .error f => f
    | .ok (.whole v) => .mismatched (.wrongType (.whole v) expected)
    | .ok (.fraction negative size) => .mismatched (.wrongType (.fraction negative size) expected)
  | .text l =>
    match l.value with
    | .error f => f
    | .ok s => .mismatched (.wrongType (.text s) expected)
  | .list _ _ => .mismatched (.wrongType .list expected)
  | .object _ _ => .mismatched (.wrongType .object expected)
  | .unnamed => .mismatched (.wrongType .object expected)

/-- A text. -/
def Draft.asText (expected : String) : Draft → Except Fault String
  | .text l => l.value
  | d => .error (d.wrong expected)

/-- A truth value. -/
def Draft.asBool : Draft → Except Fault Bool
  | .bool b => .ok b
  | d => .error (d.wrong "a boolean")

/-- A signed 64-bit integer. -/
def Draft.asInt : Draft → Except Fault Int
  | .number l =>
    match l.value with
    | .error f => .error f
    | .ok (.whole v) =>
      if v ≤ Number.maxInt then .ok v
      else .error (.mismatched (.wrongValue (.whole v) "i64"))
    | .ok (.fraction negative size) =>
      .error (.mismatched (.wrongType (.fraction negative size) "i64"))
  | d => .error (d.wrong "i64")

/-- Nothing: the word `null`. -/
def Draft.asNull : Draft → Except Fault Unit
  | .null => .ok ()
  | d => .error (d.wrong "unit")

/-- The levels of nesting that a reader goes down to, plus one. -/
def depthLimit : Nat := 128

/-- The levels left inside a container, if it may be entered. -/
def enter (depth : Nat) : Except Fault Nat :=
  if depth ≤ 1 then .error (.malformed .tooDeep) else .ok (depth - 1)

/-! ## §4. Alternatives by name -/

/-- The place of a name among the names of the alternatives. -/
def variantIndex (names : List String) (name : String) : Except Fault Nat :=
  match names.findIdx? fun n => decide (n = name) with
  | some i => .ok i
  | none => .error (.mismatched (.unknownVariant name names))

/-- An alternative: its name alone, or an object with its name as the only
member.  `bare` and `holding` say what is read in either form.  What is neither
has no fault of its own, unless a colon is missing before it. -/
def Draft.variant {α : Type} (names : List String) (bare : Nat → Except Fault α)
    (holding : Nat → Draft → Except Fault α) (depth : Nat) : Draft → Except Fault α
  | .absent => .error (.ended .value)
  | .broken (.ended .object) => .error (.ended .object)
  | .broken (.malformed .noColon) => .error (.malformed .noColon)
  | .text l => do
    let name ← l.value
    let i ← variantIndex names name
    bare i
  | .object members ending => do
    let _ ← enter depth
    match members with
    | [] => .error (if ending = .cut then .ended .value else .malformed .noValue)
    | (name, value) :: more =>
      let name ← name.value
      let i ← variantIndex names name
      let result ← holding i value
      match more, ending with
      | [], .closed => .ok result
      | [], .cut => .error (.ended .object)
      | _, _ => .error (.malformed .noValue)
  | .unnamed => do
    let _ ← enter depth
    .error (.malformed .keyNotText)
  | _ => .error (.malformed .noValue)

/-! ## §5. Values of any form -/

mutual

/-- The JSON value of a draft, down to a depth. -/
def Draft.tree : Nat → Draft → Except Fault Tree
  | _, .absent => .error (.ended .value)
  | _, .broken f => .error f
  | _, .null => .ok .null
  | _, .bool b => .ok (.bool b)
  | _, .number l =>
    match l.value with
    | .error f => .error f
    | .ok (.whole v) => .ok (.whole v)
    | .ok (.fraction negative size) => .ok (.fraction negative size)
  | _, .text l => l.value.map .text
  | depth, .list items ending => do
    let inside ← enter depth
    let ts ← itemTrees inside items
    match ending.listFault with
    | none => .ok (.list ts)
    | some f => .error f
  | depth, .object members ending => do
    let inside ← enter depth
    let ms ← memberTrees inside members
    match ending.objectFault with
    | none => .ok (.object ms)
    | some f => .error f
  | depth, .unnamed => do
    let _ ← enter depth
    .error (.malformed .keyNotText)

/-- The values of items. -/
def itemTrees : Nat → List Draft → Except Fault (List Tree)
  | _, [] => .ok []
  | depth, d :: ds => do
    let t ← d.tree depth
    let ts ← itemTrees depth ds
    .ok (t :: ts)

/-- The values of members. -/
def memberTrees : Nat → List (Lexeme String × Draft) → Except Fault (List (String × Tree))
  | _, [] => .ok []
  | depth, (name, d) :: ms => do
    let n ← name.value
    let t ← d.tree depth
    let ts ← memberTrees depth ms
    .ok ((n, t) :: ts)

end

end ListingMetadata.Json
