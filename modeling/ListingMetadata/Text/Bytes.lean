/-
  ListingMetadata.Text.Bytes
  ──────────────────────────
  **THE BYTES OF A TEXT.**

  Some lengths are counted in the bytes of UTF-8 and not in characters, and
  some texts are looked at by the byte.  Such a look can fail: the text may end
  before the byte, and a range of bytes may begin or end inside a character.
-/

namespace ListingMetadata.Text

/-! ## §1. The length in bytes -/

/-- The bytes of characters in UTF-8. -/
def byteLength : List Char → Nat
  | [] => 0
  | c :: cs => c.utf8Size + byteLength cs

theorem byteLength_append (cs ds : List Char) :
    byteLength (cs ++ ds) = byteLength cs + byteLength ds := by
  induction cs with
  | nil => simp [byteLength]
  | cons c cs ih => simp [byteLength, ih, Nat.add_assoc]

/-- Every character has a byte of its own. -/
theorem length_le_byteLength (cs : List Char) : cs.length ≤ byteLength cs := by
  induction cs with
  | nil => simp [byteLength]
  | cons c cs ih =>
    have h : 0 < c.utf8Size := c.utf8Size_pos
    simp only [List.length_cons, byteLength]
    omega

/-! ## §2. Access by the byte -/

/-- Why there is nothing at a place that is given in bytes. -/
inductive AccessFault where
  /-- The text ends before the byte. -/
  | beyond
  /-- The range is none of the text, or an end of it lies inside a character. -/
  | torn
deriving DecidableEq, Repr

/-- The byte at an index. -/
def byteAt (text : String) (index : Nat) : Except AccessFault UInt8 :=
  if h : index < text.utf8ByteSize then .ok (text.getUTF8Byte ⟨index⟩ h)
  else .error .beyond

/-- Up to the length in bytes there is a byte at every index. -/
theorem exists_byteAt {text : String} {index : Nat} (h : index < text.utf8ByteSize) :
    ∃ b, byteAt text index = .ok b :=
  ⟨_, dif_pos h⟩

theorem lt_of_byteAt {text : String} {index : Nat} {b : UInt8} (h : byteAt text index = .ok b) :
    index < text.utf8ByteSize := by
  unfold byteAt at h
  split at h
  · assumption
  · cases h

/-- The characters in a range of bytes; the byte at its end is not in it. -/
def slice (text : String) (start stop : Nat) : Except AccessFault String :=
  if h : start ≤ stop ∧ String.Pos.Raw.IsValid text ⟨start⟩ ∧ String.Pos.Raw.IsValid text ⟨stop⟩
  then .ok (text.extract (text.pos ⟨start⟩ h.2.1) (text.pos ⟨stop⟩ h.2.2))
  else .error .torn

example : slice "+0\u20ac0" 1 2 = .ok "0" := by rfl
example : slice "+0\u20ac0" 1 3 = .error .torn := by rfl

end ListingMetadata.Text
