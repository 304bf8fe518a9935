/-
  ListingMetadata.Proofs.Text.Markup
  ──────────────────────────────────
  **MARKUP AND ITS TEXT.**

  Markup is characters and elements, an element having a name, attributes and
  markup between its tags.  Its text is read back in two passes.  The first
  finds the tags, the second nests what stands between them; a closing tag bears
  the name of the last tag that is open:

      <a k="v"><b>x</b></a>   reads as an element in an element,
      <a><b></a></b>          does not read at all.

    • `scan_text`   — the first pass finds the tags of markup,
    • `nest_tokens` — the second pass nests them,
    • `read_text`   — clean markup is read back from its text.
-/
import Mathlib.Data.Bool.AllAny

namespace ListingMetadata.Text

/-! ## §1. Markup -/

/-- Characters and elements, one after the other. -/
inductive Markup where
  | done
  | char (c : Char) (rest : Markup)
  | element (name attributes : List Char) (inner rest : Markup)
deriving DecidableEq, Repr

/-- What may stand between the brackets of an opening tag: a name and, after a
blank, attributes. -/
structure IsTag (name attributes : List Char) : Prop where
  notMem_name : ∀ d ∈ [' ', '/', '<', '>'], d ∉ name
  notMem_attributes : ∀ d ∈ ['<', '>'], d ∉ attributes
  blank : ∀ d ∈ attributes.head?, d = ' '

namespace Markup

/-- The text of markup. -/
def text : Markup → List Char
  | done => []
  | char c rest => c :: rest.text
  | element name attributes inner rest =>
    '<' :: ((name ++ attributes)
      ++ '>' :: (inner.text ++ '<' :: (('/' :: name) ++ '>' :: rest.text)))

@[simp] theorem text_done : done.text = [] := rfl

@[simp] theorem text_char (c : Char) (rest : Markup) : (char c rest).text = c :: rest.text := rfl

/-- No character outside tags opens a tag, and no character in a tag ends it. -/
def Clean : Markup → Prop
  | done => True
  | char c rest => c ≠ '<' ∧ rest.Clean
  | element name attributes inner rest => IsTag name attributes ∧ inner.Clean ∧ rest.Clean

/-- Characters before markup. -/
def ofChars (cs : List Char) (rest : Markup) : Markup :=
  cs.foldr char rest

theorem text_ofChars (cs : List Char) (rest : Markup) :
    (ofChars cs rest).text = cs ++ rest.text := by
  induction cs with
  | nil => rfl
  | cons c cs ih => exact congrArg (c :: ·) ih

theorem clean_ofChars {cs : List Char} {rest : Markup} (hcs : '<' ∉ cs) (hrest : rest.Clean) :
    (ofChars cs rest).Clean := by
  induction cs with
  | nil => exact hrest
  | cons c cs ih =>
    rw [List.mem_cons, not_or] at hcs
    exact ⟨Ne.symm hcs.1, ih hcs.2⟩

/-- The characters of markup, if it has no elements. -/
def chars? : Markup → Option (List Char)
  | done => some []
  | char c rest => rest.chars?.map (c :: ·)
  | element _ _ _ _ => none

theorem chars?_ofChars (cs : List Char) : (ofChars cs done).chars? = some cs := by
  induction cs with
  | nil => rfl
  | cons c cs ih =>
    show (ofChars cs done).chars?.map (c :: ·) = some (c :: cs)
    rw [ih]
    rfl

end Markup

/-! ## §2. The first pass -/

/-- Tags and the characters between them. -/
inductive Token where
  | opening (tag : List Char)
  | closing (name : List Char)
  | char (c : Char)
deriving DecidableEq, Repr

/-- The tag that stands between two brackets. -/
def Token.ofTag : List Char → Token
  | '/' :: name => closing name
  | tag => opening tag

/-- The tags and characters of a text.  Within a tag the characters read so far
are given, the last one first. -/
def scan : Option (List Char) → List Char → Option (List Token)
  | none, [] => some []
  | some _, [] => none
  | none, c :: cs =>
    if c = '<' then scan (some []) cs else (scan none cs).map (Token.char c :: ·)
  | some tag, c :: cs =>
    if c = '>' then (scan none cs).map (Token.ofTag tag.reverse :: ·)
    else if c = '<' then none
    else scan (some (c :: tag)) cs

theorem scan_char {c : Char} (hc : c ≠ '<') (cs : List Char) :
    scan none (c :: cs) = (scan none cs).map (Token.char c :: ·) := by
  show (if c = '<' then _ else _) = _
  rw [if_neg hc]

/-- The rest of a tag is read up to its closing bracket. -/
theorem scan_within {cs : List Char} (hcs : ∀ d ∈ ['<', '>'], d ∉ cs) (tag rest : List Char) :
    scan (some tag) (cs ++ '>' :: rest)
      = (scan none rest).map (Token.ofTag (tag.reverse ++ cs) :: ·) := by
  induction cs generalizing tag with
  | nil =>
    show (if '>' = '>' then _ else _) = _
    rw [if_pos rfl, List.append_nil]
  | cons c cs ih =>
    have hopen : c ≠ '<' := by
      rintro rfl
      exact hcs '<' (by decide) List.mem_cons_self
    have hclose : c ≠ '>' := by
      rintro rfl
      exact hcs '>' (by decide) List.mem_cons_self
    show (if c = '>' then _ else if c = '<' then none
      else scan (some (c :: tag)) (cs ++ '>' :: rest)) = _
    rw [if_neg hclose, if_neg hopen, ih fun d hd h => hcs d hd (List.mem_cons_of_mem _ h),
      List.reverse_cons, List.append_assoc]
    rfl

theorem scan_tag {cs : List Char} (hcs : ∀ d ∈ ['<', '>'], d ∉ cs) (rest : List Char) :
    scan none ('<' :: (cs ++ '>' :: rest)) = (scan none rest).map (Token.ofTag cs :: ·) := by
  show (if '<' = '<' then _ else _) = _
  rw [if_pos rfl, scan_within hcs]
  rfl

namespace IsTag

variable {name attributes : List Char}

theorem brackets_name (h : IsTag name attributes) : ∀ d ∈ ['<', '>'], d ∉ '/' :: name := by
  have hmarks : ∀ d ∈ ['<', '>'], d ∈ [' ', '/', '<', '>'] ∧ d ≠ '/' :=
    List.all_iff_forall_prop.mp (by decide)
  intro d hd hmem
  rcases List.mem_cons.mp hmem with hslash | hmem
  · exact (hmarks d hd).2 hslash
  · exact h.notMem_name d (hmarks d hd).1 hmem

theorem brackets (h : IsTag name attributes) : ∀ d ∈ ['<', '>'], d ∉ name ++ attributes := by
  intro d hd hmem
  rcases List.mem_append.mp hmem with hmem | hmem
  · exact h.brackets_name d hd (List.mem_cons_of_mem _ hmem)
  · exact h.notMem_attributes d hd hmem

/-- An opening tag does not look like a closing one. -/
theorem ofTag_eq (h : IsTag name attributes) :
    Token.ofTag (name ++ attributes) = .opening (name ++ attributes) := by
  have hslash : (name ++ attributes).head? ≠ some '/' := by
    cases name with
    | nil =>
      intro hhead
      have hblank := h.blank '/' hhead
      exact absurd hblank (by decide)
    | cons c cs =>
      intro hhead
      cases hhead
      exact h.notMem_name '/' (by decide) List.mem_cons_self
  unfold Token.ofTag
  split
  · rename_i hcons
    rw [hcons] at hslash
    exact absurd rfl hslash
  · rfl

end IsTag

namespace Markup

/-- The tags and characters that the text of markup is made of. -/
def tokens : Markup → List Token
  | done => []
  | char c rest => .char c :: rest.tokens
  | element name attributes inner rest =>
    .opening (name ++ attributes) :: (inner.tokens ++ .closing name :: rest.tokens)

/-- **The tags of clean markup are found in its text, whatever follows.** -/
theorem scan_text {m : Markup} (hm : m.Clean) (cs : List Char) :
    scan none (m.text ++ cs) = (scan none cs).map (m.tokens ++ ·) := by
  induction m generalizing cs with
  | done =>
    show scan none cs = (scan none cs).map id
    rw [Option.map_id, id]
  | char c rest ih =>
    obtain ⟨hc, hrest⟩ := hm
    show scan none (c :: (rest.text ++ cs)) = _
    rw [scan_char hc, ih hrest, Option.map_map]
    rfl
  | element name attributes inner rest ihInner ihRest =>
    obtain ⟨htag, hinner, hrest⟩ := hm
    have htext : (element name attributes inner rest).text ++ cs
        = '<' :: ((name ++ attributes) ++ '>' :: (inner.text
          ++ '<' :: (('/' :: name) ++ '>' :: (rest.text ++ cs)))) := by
      simp [text]
    rw [htext, scan_tag htag.brackets, ihInner hinner, scan_tag htag.brackets_name, ihRest hrest,
      htag.ofTag_eq]
    simp only [Option.map_map]
    congr 1
    funext ts
    simp [tokens, Token.ofTag]

end Markup

/-! ## §3. The second pass -/

/-- What stands in a tag before the first blank. -/
def tagName (tag : List Char) : List Char :=
  tag.takeWhile fun c => decide (c ≠ ' ')

/-- What stands in a tag from the first blank on. -/
def tagAttributes (tag : List Char) : List Char :=
  tag.dropWhile fun c => decide (c ≠ ' ')

/-- The markup that tags and characters begin with, up to a closing tag that is
still to be opened; then, for each such closing tag, its name and the markup
after it, the first one first. -/
def nest : List Token → Option (Markup × List (List Char × Markup))
  | [] => some (.done, [])
  | .char c :: ts => (nest ts).map fun (m, after) => (.char c m, after)
  | .closing name :: ts => (nest ts).map fun (m, after) => (.done, (name, m) :: after)
  | .opening tag :: ts =>
    match nest ts with
    | some (m, (name, rest) :: after) =>
      if tagName tag = name then some (.element name (tagAttributes tag) m rest, after) else none
    | _ => none

/-- A tag falls into its name and its attributes. -/
theorem IsTag.parts {name attributes : List Char} (h : IsTag name attributes) :
    tagName (name ++ attributes) = name ∧ tagAttributes (name ++ attributes) = attributes := by
  have hname : ∀ c ∈ name, decide (c ≠ ' ') = true := by
    intro c hc
    rw [decide_eq_true_eq]
    rintro rfl
    exact h.notMem_name ' ' (by decide) hc
  unfold tagName tagAttributes
  rw [List.takeWhile_append_of_pos hname, List.dropWhile_append_of_pos hname]
  cases attributes with
  | nil => simp
  | cons c cs =>
    cases h.blank c rfl
    simp

/-- **The tags of clean markup are nested as they were.** -/
theorem nest_tokens {m : Markup} (hm : m.Clean) {ts : List Token}
    {after : List (List Char × Markup)} (h : nest ts = some (.done, after)) :
    nest (m.tokens ++ ts) = some (m, after) := by
  induction m generalizing ts after with
  | done => exact h
  | char c rest ih =>
    show (nest (rest.tokens ++ ts)).map _ = _
    rw [ih hm.2 h]
    rfl
  | element name attributes inner rest ihInner ihRest =>
    obtain ⟨htag, hinner, hrest⟩ := hm
    -- what follows the element is nested first, and waits for its opening tag
    have hafter : nest (.closing name :: (rest.tokens ++ ts))
        = some (.done, (name, rest) :: after) := by
      show (nest (rest.tokens ++ ts)).map _ = _
      rw [ihRest hrest h]
      rfl
    have htokens : (Markup.element name attributes inner rest).tokens ++ ts
        = .opening (name ++ attributes)
          :: (inner.tokens ++ .closing name :: (rest.tokens ++ ts)) := by
      simp [Markup.tokens]
    rw [htokens]
    unfold nest
    rw [ihInner hinner hafter]
    show (if tagName _ = name then some (Markup.element name (tagAttributes _) inner rest, after)
      else none) = _
    rw [htag.parts.1, htag.parts.2, if_pos rfl]

/-! ## §4. Reading -/

/-- The markup of a text, if every tag in it is closed, and in the right order. -/
def Markup.read (cs : List Char) : Option Markup :=
  match (scan none cs).bind nest with
  | some (m, []) => some m
  | _ => none

/-- **Clean markup is read back from its text.** -/
theorem Markup.read_text {m : Markup} (hm : m.Clean) : Markup.read m.text = some m := by
  have hscan : scan none m.text = some m.tokens := by
    have h := scan_text hm []
    rw [List.append_nil] at h
    rw [h]
    simp [scan]
  have hnest : nest m.tokens = some (m, []) := by
    have h : nest (m.tokens ++ []) = some (m, []) := nest_tokens hm rfl
    rwa [List.append_nil] at h
  unfold read
  rw [hscan, Option.bind_some, hnest]

example : Markup.read "<a><b></a></b>".toList = none := by decide +kernel

end ListingMetadata.Text
