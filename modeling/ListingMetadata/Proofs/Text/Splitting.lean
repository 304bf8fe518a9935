/-
  ListingMetadata.Proofs.Text.Splitting
  ─────────────────────────────────────
  **PIECES BETWEEN SEPARATORS.**

  A text made of pieces with a separator after each falls back into these
  pieces when it is split, if the separator is in none of them; and pieces that
  come out of a split are parts of the text without the separator.  So it is with
  what is read up to a delimiter of several characters:

    • `of_mem_splitOn`            — the pieces of a split,
    • `splitOn_ended`             — pieces that are ended by the separator,
    • `not_isInfix_of_dropInfix?` — what is read up to a delimiter,
    • `dropInfix?_append`         — a text that is ended by the delimiter.
-/
import Mathlib.Data.List.Infix

namespace ListingMetadata.Text

variable {α : Type} [BEq α] [LawfulBEq α] {x : α}

/-! ## §1. Splits -/

/-- A piece of a split holds what the whole holds, and no separator. -/
theorem of_mem_splitOn {xs piece : List α} (h : piece ∈ xs.splitOn x) :
    x ∉ piece ∧ ∀ y ∈ piece, y ∈ xs := by
  induction xs generalizing piece with
  | nil =>
    rw [List.splitOn_nil] at h
    rw [List.mem_singleton.mp h]
    exact ⟨List.not_mem_nil, fun y hy => hy⟩
  | cons z zs ih =>
    rw [List.splitOn_cons_eq_if_modifyHead] at h
    split at h
    · rcases List.mem_cons.mp h with rfl | h
      · exact ⟨List.not_mem_nil, fun y hy => by cases hy⟩
      · exact ⟨(ih h).1, fun y hy => List.mem_cons_of_mem _ ((ih h).2 y hy)⟩
    · -- `z` joins the first piece of the rest
      rename_i hz
      cases hs : zs.splitOn x with
      | nil => exact absurd hs (List.splitOn_ne_nil x zs)
      | cons first more =>
        rw [hs] at h ih
        rcases List.mem_cons.mp h with rfl | h
        · obtain ⟨hfree, hpart⟩ := ih List.mem_cons_self
          refine ⟨?_, fun y hy => ?_⟩
          · intro hx
            rcases List.mem_cons.mp hx with rfl | hx
            · exact hz (by simp)
            · exact hfree hx
          · rcases List.mem_cons.mp hy with rfl | hy
            · exact List.mem_cons_self
            · exact List.mem_cons_of_mem _ (hpart y hy)
        · obtain ⟨hfree, hpart⟩ := ih (List.mem_cons_of_mem _ h)
          exact ⟨hfree, fun y hy => List.mem_cons_of_mem _ (hpart y hy)⟩

/-- Pieces with the separator after each, each put in front of the rest. -/
theorem splitOn_ended {pieces : List (List α)} (h : ∀ piece ∈ pieces, x ∉ piece)
    (rest : List α) :
    ((pieces.flatMap fun piece => piece ++ [x]) ++ rest).splitOn x
      = pieces ++ rest.splitOn x := by
  induction pieces with
  | nil => rfl
  | cons piece pieces ih =>
    simp only [List.flatMap_cons, List.append_assoc, List.cons_append]
    rw [List.splitOn_append_cons_self_of_not_mem (h piece List.mem_cons_self), List.nil_append,
      ih fun p hp => h p (List.mem_cons_of_mem _ hp)]

/-! ## §2. Up to a delimiter -/

/-- What is read up to the first delimiter does not hold it. -/
theorem not_isInfix_of_dropInfix? {delimiter text s rest : List α} (hne : delimiter ≠ [])
    (h : text.dropInfix? delimiter = some (s, rest)) : ¬ delimiter <:+: s := by
  obtain ⟨⟨d, htext, hd⟩, hleast⟩ := List.dropInfix?_eq_some_iff.mp h
  rintro ⟨before, after, rfl⟩
  -- it would end there already
  have hearlier : text = before ++ delimiter ++ (after ++ d ++ rest) := by simp [htext]
  have hle := hleast before delimiter _ hearlier (beq_iff_eq.mpr rfl)
  have hpos : 0 < delimiter.length := List.length_pos_iff.mpr hne
  simp only [List.length_append] at hle
  omega

/-- **A text that does not hold the delimiter is read up to it**, if the delimiter
does not begin again within itself. -/
theorem dropInfix?_append {delimiter ds s : List α} (hd : delimiter = x :: ds) (hx : x ∉ ds)
    (hs : ¬ delimiter <:+: s) (rest : List α) :
    (s ++ delimiter ++ rest).dropInfix? delimiter = some (s, rest) := by
  subst hd
  rw [List.dropInfix?_eq_some_iff]
  refine ⟨⟨x :: ds, rfl, beq_iff_eq.mpr rfl⟩, ?_⟩
  intro s' d' rest' htext hd
  rw [beq_iff_eq] at hd
  subst hd
  by_contra hlt
  -- an earlier one begins within the text, and ends there or within the delimiter
  rw [List.append_assoc, List.append_assoc, List.append_eq_append_iff] at htext
  obtain ⟨t, rfl, htail⟩ | ⟨t, rfl, htail⟩ := htext
  · simp at hlt
  · have ht : t ≠ [] := by
      rintro rfl
      simp at hlt
    rw [List.append_eq_append_iff] at htail
    obtain ⟨u, rfl, -⟩ | ⟨u, hdelimiter, hrest⟩ := htail
    · exact hs ⟨s', u, by simp⟩
    · obtain ⟨y, t, rfl⟩ := List.exists_cons_of_ne_nil ht
      rw [List.cons_append, List.cons.injEq] at hdelimiter
      cases u with
      | nil =>
        rw [List.append_nil] at hdelimiter
        exact hs ⟨s', [], by simp [hdelimiter.1, hdelimiter.2]⟩
      | cons z u =>
        -- it begins again where the other one begins
        rw [List.cons_append, List.cons_append, List.cons.injEq] at hrest
        apply hx
        rw [hdelimiter.2, hrest.1]
        simp

end ListingMetadata.Text
