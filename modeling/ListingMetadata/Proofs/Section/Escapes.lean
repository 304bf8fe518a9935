/-
  ListingMetadata.Proofs.Section.Escapes
  ──────────────────────────────────────
  **ESCAPED TEXTS ARE READ BACK.**

  An escaped text holds none of the four characters that open and close tags
  and attributes, and the text is read back from it.  Figures need no escape.

    • `unescaped_escaped`      — reading back,
    • `notMem_escaped`         — the characters an escaped text is free of,
    • `escaped_of_ofFigures`   — texts in figures.
-/
import Mathlib.Data.Bool.AllAny
import ListingMetadata.Proofs.Value.Characters
import ListingMetadata.Section.Standard

namespace ListingMetadata.Standard

/-! ## §1. One character -/

/-- The characters that something else stands for. -/
def specials : List Char := ['&', '<', '>', '"', '\'']

/-- The characters that open and close tags and attributes. -/
def marks : List Char := ['<', '>', '"', '\'']

theorem escapedChar_of_plain {c : Char} (h : c ∉ specials) : escapedChar c = [c] := by
  unfold specials at h
  simp only [List.mem_cons, not_or] at h
  unfold escapedChar
  simp [h]

/-- The text that an escaped text stands for; an ampersand that begins no escape
stands for itself. -/
def unescaped : List Char → List Char
  | '&' :: 'a' :: 'm' :: 'p' :: ';' :: cs => '&' :: unescaped cs
  | '&' :: 'l' :: 't' :: ';' :: cs => '<' :: unescaped cs
  | '&' :: 'g' :: 't' :: ';' :: cs => '>' :: unescaped cs
  | '&' :: 'q' :: 'u' :: 'o' :: 't' :: ';' :: cs => '"' :: unescaped cs
  | '&' :: 'a' :: 'p' :: 'o' :: 's' :: ';' :: cs => '\'' :: unescaped cs
  | c :: cs => c :: unescaped cs
  | [] => []

theorem unescaped_cons_of_ne {c : Char} (h : c ≠ '&') (cs : List Char) :
    unescaped (c :: cs) = c :: unescaped cs := by
  conv_lhs => unfold unescaped
  split <;> simp_all

/-- A character is read back from what stands for it, whatever follows. -/
theorem unescaped_escapedChar (c : Char) (cs : List Char) :
    unescaped (escapedChar c ++ cs) = c :: unescaped cs := by
  by_cases h : c ∈ specials
  · unfold specials at h
    simp only [List.mem_cons, List.not_mem_nil, or_false] at h
    rcases h with rfl | rfl | rfl | rfl | rfl <;> rfl
  · rw [escapedChar_of_plain h]
    apply unescaped_cons_of_ne
    rintro rfl
    exact h (by decide)

/-- What stands for a character opens and closes nothing. -/
theorem notMem_escapedChar (c : Char) : ∀ d ∈ escapedChar c, d ∉ marks := by
  by_cases h : c ∈ specials
  · have hall : ∀ c ∈ specials, (escapedChar c).all (fun d => decide (d ∉ marks)) = true :=
      List.all_eq_true.mp (by decide)
    exact List.all_iff_forall_prop.mp (hall c h)
  · rw [escapedChar_of_plain h]
    intro d hd hmark
    rw [List.mem_singleton.mp hd] at hmark
    exact h (List.mem_cons_of_mem _ hmark)

/-! ## §2. Texts -/

/-- **A text is read back from its escaped form.** -/
theorem unescaped_escaped (s : String) : String.ofList (unescaped (escaped s)) = s := by
  have hchars : ∀ cs : List Char, unescaped (cs.flatMap escapedChar) = cs := by
    intro cs
    induction cs with
    | nil => rfl
    | cons c cs ih => rw [List.flatMap_cons, unescaped_escapedChar, ih]
  unfold escaped
  rw [hchars, String.ofList_toList]

/-- **An escaped text opens and closes nothing.** -/
theorem notMem_escaped (s : String) {d : Char} (hd : d ∈ marks) : d ∉ escaped s := by
  intro hmem
  obtain ⟨c, -, hc⟩ := List.mem_flatMap.mp hmem
  exact notMem_escapedChar c d hc hd

/-- Figures stand for themselves. -/
theorem escaped_of_ofFigures {s : String} (h : OfFigures s.toList) : escaped s = s.toList := by
  have hplain : ∀ c, isFigure c = true → c ∉ specials := by
    intro c hc hmem
    have hnone : ∀ d ∈ specials, isFigure d = false := List.all_iff_forall_prop.mp (by decide)
    rw [hnone c hmem] at hc
    cases hc
  have hchars : ∀ cs : List Char, OfFigures cs → cs.flatMap escapedChar = cs := by
    intro cs
    induction cs with
    | nil => intro _; rfl
    | cons c cs ih =>
      intro hcs
      rw [List.flatMap_cons, escapedChar_of_plain (hplain c (hcs c List.mem_cons_self)),
        ih fun d hd => hcs d (List.mem_cons_of_mem _ hd)]
      rfl
  exact hchars s.toList h

end ListingMetadata.Standard
