/-
  ListingMetadata.Json.Tree
  ─────────────────────────
  **JSON VALUES AND THEIR TEXTS.**

  Documents and query clauses are kept as JSON.  A value keeps the order of its
  members.  It is written without blanks, or over several lines with two blanks
  for each level.
-/
import ListingMetadata.Number.Binary

namespace ListingMetadata.Json

open ListingMetadata.Number

/-! ## §1. Values -/

/-- A JSON value. -/
inductive Tree where
  | null
  | bool (b : Bool)
  | whole (v : Int)
  | fraction (negative : Bool) (size : Binary)
  | text (s : String)
  | list (items : List Tree)
  | object (members : List (String × Tree))
deriving Repr

/-! ## §2. Texts -/

/-- A hexadecimal digit. -/
def hexDigit (n : Nat) : Char :=
  Nat.digitChar n

/-- One character inside quotes: quote, backslash and controls are escaped. -/
def escapedChar (c : Char) : List Char :=
  if c = '"' ∨ c = '\\' then ['\\', c]
  else if c = '\n' then ['\\', 'n']
  else if c = '\r' then ['\\', 'r']
  else if c = '\t' then ['\\', 't']
  else if c.toNat = 8 then ['\\', 'b']
  else if c.toNat = 12 then ['\\', 'f']
  else if c.toNat < 32 then ['\\', 'u', '0', '0', hexDigit (c.toNat / 16), hexDigit (c.toNat % 16)]
  else [c]

/-- A text between double quotes. -/
def quotedText (s : String) : List Char :=
  '"' :: (s.toList.flatMap escapedChar ++ ['"'])

/-- The text of a number or word. -/
def Tree.scalar : Tree → List Char
  | .null => ['n', 'u', 'l', 'l']
  | .bool true => ['t', 'r', 'u', 'e']
  | .bool false => ['f', 'a', 'l', 's', 'e']
  | .whole v => shown v
  | .fraction negative size => (size.text negative).toList
  | .text s => quotedText s
  | .list _ => []
  | .object _ => []

mutual

/-- The text of a value without blanks. -/
def Tree.compact : Tree → List Char
  | .list items => '[' :: (compactItems true items ++ [']'])
  | .object members => '{' :: (compactMembers true members ++ ['}'])
  | t => t.scalar

/-- The items of a list, a comma before each but the first. -/
def compactItems (first : Bool) : List Tree → List Char
  | [] => []
  | t :: ts => (if first then [] else [',']) ++ t.compact ++ compactItems false ts

/-- The members of an object, a comma before each but the first. -/
def compactMembers (first : Bool) : List (String × Tree) → List Char
  | [] => []
  | (name, t) :: ms =>
    (if first then [] else [',']) ++ quotedText name ++ [':'] ++ t.compact ++ compactMembers false ms

end

/-- A new line, indented to a level. -/
def newLine (level : Nat) : List Char :=
  '\n' :: List.replicate (2 * level) ' '

mutual

/-- The text of a value over several lines; empty containers stay on one. -/
def Tree.indented (level : Nat) : Tree → List Char
  | .list [] => ['[', ']']
  | .list (t :: ts) =>
    '[' :: (newLine (level + 1) ++ t.indented (level + 1) ++ indentedItems (level + 1) ts
      ++ newLine level ++ [']'])
  | .object [] => ['{', '}']
  | .object ((name, t) :: ms) =>
    '{' :: (newLine (level + 1) ++ quotedText name ++ [':', ' '] ++ t.indented (level + 1)
      ++ indentedMembers (level + 1) ms ++ newLine level ++ ['}'])
  | t => t.scalar

/-- The items after the first. -/
def indentedItems (level : Nat) : List Tree → List Char
  | [] => []
  | t :: ts => [','] ++ newLine level ++ t.indented level ++ indentedItems level ts

/-- The members after the first. -/
def indentedMembers (level : Nat) : List (String × Tree) → List Char
  | [] => []
  | (name, t) :: ms =>
    [','] ++ newLine level ++ quotedText name ++ [':', ' '] ++ t.indented level
      ++ indentedMembers level ms

end

/-- A value on one line. -/
def Tree.render (t : Tree) : String :=
  String.ofList t.compact

/-- A value over several lines. -/
def Tree.renderIndented (t : Tree) : String :=
  String.ofList (t.indented 0)

end ListingMetadata.Json
