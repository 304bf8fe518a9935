/-
  ListingMetadata.Toml.Reading
  ────────────────────────────
  **READING A TOML FILE.**

  A file is a sequence of lines: blank ones, comments, headers, and names with
  values.  A file that breaks a rule anywhere has no entries at all.
-/
import ListingMetadata.Toml.Scalar

namespace ListingMetadata.Toml

open Number

/-! ## §1. Blanks and comments -/

/-- A blank or a tab. -/
def isSpace (c : Char) : Bool :=
  c == ' ' || c == '\t'

/-- A character that may not stand in a file, line breaks aside. -/
def isControl (c : Char) : Bool :=
  (decide (c.toNat < 32) && c != '\t') || decide (c.toNat = 127)

/-- Without the blanks in front. -/
def skipSpace (cs : List Char) : List Char :=
  cs.dropWhile isSpace

/-- What follows a line break. -/
def lineBreak? : List Char → Option (List Char)
  | '\n' :: cs => some cs
  | '\r' :: '\n' :: cs => some cs
  | _ => none

/-- What follows blanks and a comment. -/
def skipComment (cs : List Char) : List Char :=
  match skipSpace cs with
  | '#' :: rest => rest.dropWhile fun c => !isControl c
  | rest => rest

/-- What follows blanks, comments and line breaks. -/
def skipLines : Nat → List Char → List Char
  | 0, cs => cs
  | n + 1, cs =>
    match lineBreak? (skipComment cs) with
    | some rest => skipLines n rest
    | none => skipComment cs

/-- What follows blanks and line breaks. -/
def skipBreaks : Nat → List Char → List Char
  | 0, cs => cs
  | n + 1, cs =>
    match lineBreak? (skipSpace cs) with
    | some rest => skipBreaks n rest
    | none => skipSpace cs

/-! ## §2. Texts in quotes -/

/-- The character of a number of hexadecimal digits, and what follows them. -/
def coded? (width : Nat) (cs : List Char) : Option (Char × List Char) :=
  let ds := cs.take width
  let n := digitsIn 16 ds
  if ds.length = width ∧ ds.all (isDigitOf 16) ∧ n.isValidChar then
    some (Char.ofNat n, cs.drop width)
  else none

/-- The character of an escape, after the backslash. -/
def escape? : List Char → Option (Char × List Char)
  | 'b' :: cs => some (Char.ofNat 8, cs)
  | 'e' :: cs => some (Char.ofNat 27, cs)
  | 't' :: cs => some ('\t', cs)
  | 'n' :: cs => some ('\n', cs)
  | 'f' :: cs => some (Char.ofNat 12, cs)
  | 'r' :: cs => some ('\r', cs)
  | '"' :: cs => some ('"', cs)
  | '\\' :: cs => some ('\\', cs)
  | 'x' :: cs => coded? 2 cs
  | 'u' :: cs => coded? 4 cs
  | 'U' :: cs => coded? 8 cs
  | _ => none

/-- A text up to its closing double quote, escapes resolved. -/
def basic? : Nat → List Char → Option (List Char × List Char)
  | 0, _ => none
  | _, [] => none
  | _ + 1, '"' :: cs => some ([], cs)
  | n + 1, '\\' :: cs => do
    let (c, cs) ← escape? cs
    let (s, rest) ← basic? n cs
    some (c :: s, rest)
  | n + 1, c :: cs =>
    if isControl c then none
    else do
      let (s, rest) ← basic? n cs
      some (c :: s, rest)

/-- A text up to its closing single quote, as it stands. -/
def literal? (cs : List Char) : Option (List Char × List Char) :=
  let s := cs.takeWhile fun c => c != '\'' && !isControl c
  match cs.dropWhile fun c => c != '\'' && !isControl c with
  | '\'' :: rest => some (s, rest)
  | _ => none

/-- Blanks and line breaks skipped, of which there is at least one break. -/
def foldedLine? (cs : List Char) : Option (List Char) :=
  (lineBreak? (skipSpace cs)).map fun rest => skipBreaks rest.length rest

/-- A text over several lines up to three quotes; up to two more quotes before
them belong to the text.  Line breaks stay as they are written.  Only in double
quotes a backslash has a meaning. -/
def lines? (quote : Char) : Nat → List Char → Option (List Char × List Char)
  | 0, _ => none
  | _, [] => none
  | n + 1, c :: cs =>
    if c = quote then
      let run := ((c :: cs).takeWhile (· = quote)).length
      if run ≥ 3 then
        let kept := min 2 (run - 3)
        some (List.replicate kept quote, (c :: cs).drop (kept + 3))
      else do
        let (s, rest) ← lines? quote n cs
        some (c :: s, rest)
    else if c = '\\' ∧ quote = '"' then
      match foldedLine? cs with
      | some cs => lines? quote n cs
      | none => do
        let (e, cs) ← escape? cs
        let (s, rest) ← lines? quote n cs
        some (e :: s, rest)
    else if isControl c && (lineBreak? (c :: cs)).isNone then none
    else do
      let (s, rest) ← lines? quote n cs
      some (c :: s, rest)

/-- A line break right after the opening quotes is not part of the text. -/
def withoutBreak (cs : List Char) : List Char :=
  (lineBreak? cs).getD cs

/-! ## §3. Names -/

/-- A character of a name without quotes. -/
def isNameChar (c : Char) : Bool :=
  c.isAlphanum || c == '_' || c == '-'

/-- One name and what follows it. -/
def name? (cs : List Char) : Option (String × List Char) :=
  match cs with
  | '"' :: rest => (basic? (rest.length + 1) rest).map fun (s, rest) => (String.ofList s, rest)
  | '\'' :: rest => (literal? rest).map fun (s, rest) => (String.ofList s, rest)
  | cs =>
    let s := cs.takeWhile isNameChar
    if s.isEmpty then none else some (String.ofList s, cs.dropWhile isNameChar)

/-- The greatest number of names in a path, and of lists and tables around a
value. -/
def depthLimit : Nat := 80

/-- So many names at most with dots between them, and what follows them and
their blanks. -/
def names? : Nat → List Char → Option (List String × List Char)
  | 0, _ => none
  | n + 1, cs => do
    let (name, rest) ← name? (skipSpace cs)
    match skipSpace rest with
    | '.' :: rest => do
      let (names, rest) ← names? n rest
      some (name :: names, rest)
    | rest => some ([name], rest)

/-- A path and what follows it and its blanks. -/
def path? (cs : List Char) : Option (List String × List Char) :=
  names? depthLimit cs

/-! ## §4. Values -/

/-- The end of a value without quotes. -/
def isBoundary (c : Char) : Bool :=
  isSpace c || isControl c || c == ',' || c == ']' || c == '}' || c == '#'

/-- A value without quotes and what follows it; between a date and a time a
blank may stand. -/
def plain? (cs : List Char) : Option (Scalar × List Char) :=
  let word := cs.takeWhile fun c => !isBoundary c
  let rest := cs.dropWhile fun c => !isBoundary c
  match rest with
  | ' ' :: d :: more =>
    if date? word = some [] ∧ d.isDigit then
      let time := (d :: more).takeWhile fun c => !isBoundary c
      (scalar? (word ++ ' ' :: time)).map fun v =>
        (v, (d :: more).dropWhile fun c => !isBoundary c)
    else (scalar? word).map fun v => (v, rest)
  | _ => (scalar? word).map fun v => (v, rest)

mutual

/-- A value and what follows it, inside of which so many lists and tables may
still open. -/
def value? : Nat → Nat → List Char → Option (Scalar × List Char)
  | 0, _, _ => none
  | n + 1, levels, cs =>
    match cs with
    | '"' :: '"' :: '"' :: rest =>
      (lines? '"' (rest.length + 1) (withoutBreak rest)).map fun (s, rest) =>
        (.text (String.ofList s), rest)
    | '\'' :: '\'' :: '\'' :: rest =>
      (lines? '\'' (rest.length + 1) (withoutBreak rest)).map fun (s, rest) =>
        (.text (String.ofList s), rest)
    | '"' :: rest =>
      (basic? (rest.length + 1) rest).map fun (s, rest) => (.text (String.ofList s), rest)
    | '\'' :: rest => (literal? rest).map fun (s, rest) => (.text (String.ofList s), rest)
    | '[' :: rest => if levels = 0 then none else items? n (levels - 1) rest
    | '{' :: rest => if levels = 0 then none else members? n (levels - 1) [] rest
    | cs => plain? cs

/-- The items of a list up to its closing bracket. -/
def items? : Nat → Nat → List Char → Option (Scalar × List Char)
  | 0, _, _ => none
  | n + 1, levels, cs =>
    match skipLines cs.length cs with
    | ']' :: rest => some (.other, rest)
    | cs =>
      match value? n levels cs with
      | none => none
      | some (_, rest) =>
        match skipLines rest.length rest with
        | ']' :: rest => some (.other, rest)
        | ',' :: rest => items? n levels rest
        | _ => none

/-- The members of a table up to its closing brace; lines may end anywhere but
inside a path. -/
def members? : Nat → Nat → Entries → List Char → Option (Scalar × List Char)
  | 0, _, _, _ => none
  | n + 1, levels, entries, cs =>
    match skipLines cs.length cs with
    | '}' :: rest => some (.other, rest)
    | cs =>
      match path? cs with
      | none => none
      | some (path, rest) =>
        match skipLines rest.length rest with
        | '=' :: rest =>
          match value? n levels (skipLines rest.length rest) with
          | none => none
          | some (v, rest) =>
            match define v path entries with
            | none => none
            | some entries =>
              match skipLines rest.length rest with
              | '}' :: rest => some (.other, rest)
              | ',' :: rest => members? n levels entries rest
              | _ => none
        | _ => none

end

/-! ## §5. Files -/

/-- Where a name with a value goes: the path of the last header. -/
structure Place where
  header : List String
  entries : Entries

/-- A header up to its closing brackets. -/
def header? (cs : List Char) : Option (Bool × List String × List Char) :=
  match cs with
  | '[' :: rest => do
    let (path, rest) ← path? rest
    match rest with
    | ']' :: ']' :: rest => some (true, path, rest)
    | _ => none
  | cs => do
    let (path, rest) ← path? cs
    match rest with
    | ']' :: rest => some (false, path, rest)
    | _ => none

/-- One line with something on it, and what follows it on the line. -/
def statement? (p : Place) (cs : List Char) : Option (Place × List Char) :=
  match cs with
  | '[' :: rest => do
    let (list, path, rest) ← header? rest
    let entries ← atLast (if list then listHere else headHere) path p.entries
    some (⟨path, entries⟩, rest)
  | cs => do
    let (path, rest) ← path? cs
    let rest ← after? '=' rest
    let (v, rest) ← value? (2 * rest.length + 2) depthLimit (skipSpace rest)
    let entries ← atPath (define v path) p.header p.entries
    some ({ p with entries := entries }, rest)

/-- The entries of all lines. -/
def lines : Nat → Place → List Char → Option Entries
  | 0, _, _ => none
  | n + 1, p, cs =>
    match skipLines cs.length cs with
    | [] => some p.entries
    | cs =>
      match statement? p cs with
      | none => none
      | some (p, rest) =>
        match skipComment rest with
        | [] => some p.entries
        | rest =>
          match lineBreak? rest with
          | some rest => lines n p rest
          | none => none

/-- Without the mark of byte order in front. -/
def withoutMark (cs : List Char) : List Char :=
  match cs with
  | c :: rest => if c.toNat = 0xFEFF then rest else c :: rest
  | [] => []

/-- The entries of a file. -/
def read (text : String) : Option Entries :=
  let cs := withoutMark text.toList
  lines (cs.length + 1) ⟨[], []⟩ cs

end ListingMetadata.Toml
