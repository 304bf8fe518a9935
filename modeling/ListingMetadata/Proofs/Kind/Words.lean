/-
  ListingMetadata.Proofs.Kind.Words
  ─────────────────────────────────
  **THE NAMES ON THE WIRE ARE WORDS.**

  Kinds, header keys and built-in columns are named by letters, digits and
  underscores.  So no name can end a line, a field, a tag or an attribute.
-/
import ListingMetadata.Kind.Columns

namespace ListingMetadata

/-! ## §1. Words -/

/-- A letter, a digit or the underscore. -/
def isWordChar (c : Char) : Bool :=
  c.isAlphanum || c == '_'

/-- Only letters, digits and underscores, and at least one of them. -/
structure IsWord (cs : List Char) : Prop where
  ne_nil : cs ≠ []
  chars : ∀ c ∈ cs, isWordChar c = true

instance (cs : List Char) : Decidable (IsWord cs) :=
  decidable_of_iff (cs ≠ [] ∧ cs.all isWordChar = true)
    ⟨fun h => ⟨h.1, List.all_eq_true.mp h.2⟩, fun h => ⟨h.1, List.all_eq_true.mpr h.2⟩⟩

theorem IsWord.notMem {cs : List Char} (h : IsWord cs) {d : Char} (hd : isWordChar d = false) :
    d ∉ cs := by
  intro hmem
  rw [h.chars d hmem] at hd
  cases hd

/-! ## §2. Names -/

namespace Kind

theorem isWord_wireName (k : Kind) : IsWord k.wireName.toList := by
  cases k <;> decide

theorem isWord_elementName (k : Kind) : IsWord k.elementName.toList := by
  cases k <;> decide

theorem isWord_headerKey (k : Kind) : ∀ key ∈ k.headerKeys, IsWord key.toList := by
  cases k <;> decide

theorem isWord_columnName (k : Kind) : ∀ column ∈ k.builtinColumns, IsWord column.name.toList := by
  cases k <;> decide +kernel

end Kind

end ListingMetadata
