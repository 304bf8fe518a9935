/-
  ListingMetadata.Text.Fold
  ─────────────────────────
  **LETTER CASE, ASCII ONLY.**

  Names, codes and words are compared without regard to the case of the
  26 ASCII letters; every other character is only equal to itself.
-/

namespace ListingMetadata.Text

/-- The text with ASCII capitals made small. -/
def lowered (s : String) : String :=
  String.ofList (s.toList.map Char.toLower)

/-- The text with small ASCII letters made capital. -/
def raised (s : String) : String :=
  String.ofList (s.toList.map Char.toUpper)

/-- Equal but for the case of ASCII letters. -/
def sameFolded (a b : String) : Bool :=
  decide (lowered a = lowered b)

theorem sameFolded_refl (a : String) : sameFolded a a = true := by
  simp [sameFolded]

/-- The words joined with a separator between neighbours. -/
def joined (separator : String) : List String → String
  | [] => ""
  | [w] => w
  | w :: v :: ws => w ++ separator ++ joined separator (v :: ws)

end ListingMetadata.Text
