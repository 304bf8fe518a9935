/-
  ListingMetadata.Proofs.Text.Bytes
  ─────────────────────────────────
  **BYTES AND THE CHARACTERS THAT THEY BELONG TO.**

  Every byte of a text lies in one of its characters.  The bytes of a character
  that has several are none of those that stand for a character of their own,
  so a byte of this second kind tells where a character begins and ends,
  whatever stands around it:

      + 0 € 0      2b | 30 | e2 82 ac | 30

    • `byteAt_eq_ok_iff` — the byte of a single-byte character is found just
      where this character is,
    • `slice_of_split`   — the bytes of whole characters are sliced out as these.
-/
import ListingMetadata.Text.Bytes
import Mathlib.Data.List.Basic

namespace ListingMetadata.Text

/-! ## §1. Characters along the bytes -/

theorem byteLength_toList (text : String) : byteLength text.toList = text.utf8ByteSize := by
  have hlist : ∀ cs : List Char, byteLength cs = (String.ofList cs).utf8ByteSize := by
    intro cs
    induction cs with
    | nil => simp [byteLength]
    | cons c cs ih => simp [byteLength, ih]
  rw [hlist, String.ofList_toList]

theorem size_utf8Encode (cs : List Char) : cs.utf8Encode.size = byteLength cs := by
  rw [← String.toByteArray_ofList, String.size_toByteArray, ← byteLength_toList,
    String.toList_ofList]

/-- Every byte lies in a character. -/
theorem exists_character {cs : List Char} {index : Nat} (h : index < byteLength cs) :
    ∃ before c after i, cs = before ++ c :: after ∧ i < c.utf8Size ∧
      byteLength before + i = index := by
  -- on the characters: the byte is in the first one, or the bytes of this one are left behind
  induction cs generalizing index with
  | nil => cases h
  | cons c cs ih =>
    by_cases hc : index < c.utf8Size
    · exact ⟨[], c, cs, index, rfl, hc, Nat.zero_add index⟩
    · have hrest : index - c.utf8Size < byteLength cs := by
        unfold byteLength at h
        omega
      obtain ⟨before, d, after, i, rfl, hi, hindex⟩ := ih hrest
      refine ⟨c :: before, d, after, i, rfl, hi, ?_⟩
      unfold byteLength
      omega

/-- The bytes of a character stand behind those of the characters before it. -/
theorem byteAt_of_split {text : String} {before after : List Char} {c : Char}
    (h : text.toList = before ++ c :: after) {i : Nat}
    (hi : i < (String.utf8EncodeChar c).length) :
    byteAt text (byteLength before + i) = .ok (String.utf8EncodeChar c)[i] := by
  have hthere : byteLength before + i < text.utf8ByteSize := by
    rw [String.length_utf8EncodeChar] at hi
    rw [← byteLength_toList, h, byteLength_append]
    show byteLength before + i < byteLength before + (c.utf8Size + byteLength after)
    omega
  have hbytes : text.toByteArray
      = before.utf8Encode ++ ((String.utf8EncodeChar c).toByteArray ++ after.utf8Encode) := by
    rw [← String.utf8Encode_toList, h, List.utf8Encode_append, List.utf8Encode_cons,
      List.utf8Encode_singleton]
  unfold byteAt
  rw [dif_pos hthere]
  unfold String.getUTF8Byte
  simp only [hbytes]
  rw [ByteArray.getElem_append_right (by rw [size_utf8Encode]; omega),
    ByteArray.getElem_append_left (by rw [size_utf8Encode]; simpa using hi)]
  simp [size_utf8Encode]

/-! ## §2. Single bytes -/

theorem utf8Size_eq_one_iff {c : Char} : c.utf8Size = 1 ↔ c.toNat ≤ 127 :=
  Char.utf8Size_eq_one_iff

theorem toNat_toUInt8 {c : Char} (hc : c.utf8Size = 1) : c.toUInt8.toNat = c.toNat := by
  have hle := utf8Size_eq_one_iff.mp hc
  show c.toNat % 256 = c.toNat
  omega

theorem byteLength_of_single {cs : List Char} (h : ∀ c ∈ cs, c.utf8Size = 1) :
    byteLength cs = cs.length := by
  induction cs with
  | nil => rfl
  | cons c cs ih =>
    unfold byteLength
    rw [h c List.mem_cons_self, ih fun d hd => h d (List.mem_cons_of_mem _ hd), List.length_cons,
      Nat.add_comm]

/-- The bytes of a character that has several stand for no single one. -/
theorem le_of_mem_utf8EncodeChar {c : Char} (hc : c.utf8Size ≠ 1) {b : UInt8}
    (hb : b ∈ String.utf8EncodeChar c) : 128 ≤ b.toNat := by
  have hv : ¬ c.val.toNat ≤ 127 := fun hle => hc (utf8Size_eq_one_iff.mpr hle)
  have hlarge : ∀ {n : Nat}, 128 ≤ n → n < 256 → 128 ≤ (UInt8.ofNat n).toNat := by
    intro n hlow hhigh
    rw [UInt8.toNat_ofNat_of_lt' hhigh]
    exact hlow
  -- two, three or four bytes, each a few bits of the character below a mark of 128 or more
  unfold String.utf8EncodeChar at hb
  rw [if_neg hv] at hb
  split at hb
  · simp only [List.mem_cons, List.not_mem_nil, or_false] at hb
    rcases hb with rfl | rfl <;> exact hlarge (by omega) (by omega)
  · split at hb
    · simp only [List.mem_cons, List.not_mem_nil, or_false] at hb
      rcases hb with rfl | rfl | rfl <;> exact hlarge (by omega) (by omega)
    · simp only [List.mem_cons, List.not_mem_nil, or_false] at hb
      rcases hb with rfl | rfl | rfl | rfl <;> exact hlarge (by omega) (by omega)

/-- A byte of the one kind is the first and only byte of its character. -/
theorem eq_of_getElem_utf8EncodeChar {c d : Char} (hc : c.utf8Size = 1) {i : Nat}
    (hi : i < (String.utf8EncodeChar d).length)
    (h : (String.utf8EncodeChar d)[i] = c.toUInt8) : d = c ∧ i = 0 := by
  have hsmall := utf8Size_eq_one_iff.mp hc
  by_cases hd : d.utf8Size = 1
  · have hfirst : i = 0 := by
      rw [String.length_utf8EncodeChar, hd] at hi
      omega
    subst hfirst
    simp only [String.utf8EncodeChar_eq_singleton hd, List.getElem_cons_zero] at h
    have hchar : d.toNat = c.toNat := by
      rw [← toNat_toUInt8 hd, ← toNat_toUInt8 hc]
      exact congrArg UInt8.toNat h
    exact ⟨Char.toNat_inj.mp hchar, rfl⟩
  · have hlarge := le_of_mem_utf8EncodeChar hd (List.getElem_mem hi)
    rw [h, toNat_toUInt8 hc] at hlarge
    omega

/-- **The byte of a single-byte character is found just where this character is.** -/
theorem byteAt_eq_ok_iff {text : String} {index : Nat} {c : Char} (hc : c.utf8Size = 1) :
    byteAt text index = .ok c.toUInt8 ↔
      ∃ before after, text.toList = before ++ c :: after ∧ byteLength before = index := by
  constructor
  · intro h
    have hthere : index < byteLength text.toList := by
      rw [byteLength_toList]
      exact lt_of_byteAt h
    obtain ⟨before, d, after, i, htext, hi, rfl⟩ := exists_character hthere
    rw [← String.length_utf8EncodeChar] at hi
    have hbyte : (String.utf8EncodeChar d)[i] = c.toUInt8 :=
      Except.ok.inj ((byteAt_of_split htext hi).symm.trans h)
    obtain ⟨rfl, rfl⟩ := eq_of_getElem_utf8EncodeChar hc hi hbyte
    exact ⟨before, after, htext, rfl⟩
  · rintro ⟨before, after, htext, rfl⟩
    have hself : String.utf8EncodeChar c = [c.toUInt8] := String.utf8EncodeChar_eq_singleton hc
    have hfirst : 0 < (String.utf8EncodeChar c).length := by
      rw [hself]
      exact Nat.zero_lt_one
    have hbyte := byteAt_of_split htext hfirst
    simpa [hself] using hbyte

/-! ## §3. Ranges of bytes -/

theorem isValid_of_split {text : String} {before after : List Char}
    (h : text.toList = before ++ after) : String.Pos.Raw.IsValid text ⟨byteLength before⟩ := by
  rw [String.Pos.Raw.isValid_iff_exists_append]
  refine ⟨String.ofList before, String.ofList after, ?_, ?_⟩
  · rw [← String.ofList_append, ← h, String.ofList_toList]
  · rw [String.Pos.Raw.ext_iff, String.byteIdx_rawEndPos, ← byteLength_toList,
      String.toList_ofList]

/-- **The bytes of whole characters are sliced out as these.** -/
theorem slice_of_split {text : String} {before part after : List Char}
    (h : text.toList = before ++ (part ++ after)) :
    slice text (byteLength before) (byteLength before + byteLength part)
      = .ok (String.ofList part) := by
  have hstart := isValid_of_split h
  have hstop : String.Pos.Raw.IsValid text ⟨byteLength before + byteLength part⟩ := by
    rw [← byteLength_append]
    exact isValid_of_split (by rw [h, List.append_assoc])
  unfold slice
  rw [dif_pos ⟨Nat.le_add_right _ _, hstart, hstop⟩]
  congr 1
  apply String.toByteArray_inj.mp
  rw [String.toByteArray_extract, ← String.utf8Encode_toList, h, List.utf8Encode_append,
    List.utf8Encode_append, String.offset_pos, String.offset_pos, String.toByteArray_ofList]
  show (before.utf8Encode ++ (part.utf8Encode ++ after.utf8Encode)).extract
    (byteLength before + 0) (byteLength before + byteLength part) = part.utf8Encode
  rw [← size_utf8Encode before, ByteArray.extract_append_size_add]
  exact ByteArray.extract_append_eq_left (size_utf8Encode part).symm

end ListingMetadata.Text
