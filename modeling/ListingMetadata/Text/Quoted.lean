/-
  ListingMetadata.Text.Quoted
  ───────────────────────────
  **QUOTED TEXT IN MESSAGES.**

  A message shows a text between double quotes and a character between single
  quotes.  The quote in use, the backslash and the usual controls are written
  with a backslash; joining marks and characters without a picture are written
  by their code point; everything else stands for itself.
-/
import ListingMetadata.Text.Printable

namespace ListingMetadata.Text

/-- The code point of a character in lower-case hexadecimal, shortest form. -/
def hexDigits (c : Char) : List Char :=
  Nat.toDigits 16 c.toNat

/-- A printable ASCII character. -/
def isPlainAscii (c : Char) : Bool :=
  decide (' ' ≤ c) && decide (c ≤ '~')

/-- One character as it stands between the given quotes. -/
def quotedChar (quote c : Char) : List Char :=
  if c = quote ∨ c = '\\' then ['\\', c]
  else if isPlainAscii c then [c]
  else if c = '\x00' then ['\\', '0']
  else if c = '\t' then ['\\', 't']
  else if c = '\r' then ['\\', 'r']
  else if c = '\n' then ['\\', 'n']
  else if isJoining c || isHidden c then ['\\', 'u', '{'] ++ hexDigits c ++ ['}']
  else [c]

/-- A text between double quotes. -/
def quoted (s : String) : String :=
  String.ofList (['"'] ++ s.toList.flatMap (quotedChar '"') ++ ['"'])

/-- A character between single quotes. -/
def quotedSingle (c : Char) : String :=
  String.ofList (['\''] ++ quotedChar '\'' c ++ ['\''])

example : quoted "a\"b\t" = "\"a\\\"b\\t\"" := by decide
example : quotedSingle '\'' = "'\\''" := by decide
example : quotedSingle '"' = "'\"'" := by decide

end ListingMetadata.Text
