/-
  ListingMetadata.Proofs.Section.Transcript
  ─────────────────────────────────────────
  **TRANSCRIPTS AND THEIR MARKUP.**

  A transcript lists what a section shows and nothing of how it is written: the
  kind, the header and, for each entity, the texts by column and the sections
  embedded in it.  Its markup is read back, whatever the texts are, as long as
  keys and columns are named by words:

    • `attributes?_header`       — a header from the attributes of a tag,
    • `contents?_cellsMarkup`    — the texts of columns from their elements,
    • `Worded.readable`          — a transcript from its markup,
    • `decode_text`              — and from the text of its markup.
-/
import Mathlib.Data.Bool.AllAny
import ListingMetadata.Proofs.Kind.Words
import ListingMetadata.Proofs.Section.Escapes
import ListingMetadata.Proofs.Text.Markup
import ListingMetadata.Proofs.Text.Splitting

namespace ListingMetadata.Standard

open Text

/-! ## §1. Transcripts -/

mutual

/-- What a section shows. -/
inductive Transcript where
  | mk (kind : Kind) (header : List (String × String)) (entries : List Entry)

/-- What an entity shows in a section: texts by column, and sections. -/
inductive Entry where
  | mk (cells : List (String × String)) (embedded : List Transcript)

end

/-- The texts of an entry. -/
def Entry.cells : Entry → List (String × String)
  | mk cells _ => cells

/-- The sections of an entry. -/
def Entry.embedded : Entry → List Transcript
  | mk _ embedded => embedded

/-- Keys and columns are named by words, in all sections. -/
inductive Transcript.Worded : Transcript → Prop where
  | mk {kind : Kind} {header : List (String × String)} {entries : List Entry}
      (keys : ∀ p ∈ header, IsWord p.1.toList)
      (columns : ∀ e ∈ entries, ∀ p ∈ e.cells, IsWord p.1.toList)
      (embedded : ∀ e ∈ entries, ∀ t ∈ e.embedded, t.Worded) :
      (Transcript.mk kind header entries).Worded

/-- The columns of an entry are named by words, and all in its sections. -/
structure Entry.Worded (e : Entry) : Prop where
  columns : ∀ p ∈ e.cells, IsWord p.1.toList
  embedded : ∀ t ∈ e.embedded, t.Worded

theorem Transcript.worded_of_entries {kind : Kind} {header : List (String × String)}
    {entries : List Entry} (keys : ∀ p ∈ header, IsWord p.1.toList)
    (h : ∀ e ∈ entries, e.Worded) : (Transcript.mk kind header entries).Worded :=
  .mk keys (fun e he => (h e he).columns) fun e he => (h e he).embedded

/-! ## §2. Markup -/

/-- The name of a section's tag. -/
def sectionName (kind : Kind) : List Char :=
  "METADATA-".toList ++ kind.wireName.toList

/-- The elements of an entity's columns, before markup. -/
def cellsMarkup (cells : List (String × String)) (rest : Markup) : Markup :=
  cells.foldr
    (fun (name, text) rest =>
      .element name.toList [] (.ofChars (escaped text) .done) (.char '\n' rest)) rest

mutual

/-- The element of a section, before markup. -/
def Transcript.markup : Transcript → Markup → Markup
  | .mk kind header entries, rest =>
    .element (sectionName kind) (header.flatMap fun (key, value) => pair key value)
      (.char '\n' (entriesMarkup kind entries)) (.char '\n' rest)

/-- The element of an entity, before markup. -/
def Entry.markup (kind : Kind) : Entry → Markup → Markup
  | .mk cells embedded, rest =>
    .element kind.elementName.toList []
      (.char '\n' (cellsMarkup cells (transcriptsMarkup embedded))) (.char '\n' rest)

/-- The elements of entities. -/
def entriesMarkup (kind : Kind) : List Entry → Markup
  | [] => .done
  | e :: es => e.markup kind (entriesMarkup kind es)

/-- The elements of sections. -/
def transcriptsMarkup : List Transcript → Markup
  | [] => .done
  | t :: ts => t.markup (transcriptsMarkup ts)

end

/-! ## §3. Reading -/

/-- The kind of a wire name. -/
def kindOf? (name : List Char) : Option Kind :=
  Kind.all.find? fun k => decide (k.wireName.toList = name)

/-- The key before the quotes of an attribute. -/
def key? : List Char → Option String
  | ' ' :: cs => if cs.getLast? = some '=' then some (String.ofList cs.dropLast) else none
  | _ => none

/-- Keys and values, from attributes that are split at their quotes. -/
def attributes? : List (List Char) → Option (List (String × String))
  | [[]] => some []
  | key :: value :: more => do
    let key ← key? key
    (attributes? more).map ((key, String.ofList (unescaped value)) :: ·)
  | _ => none

mutual

/-- The texts and sections of an entity.  Only the names of sections hold a
hyphen, so an element is a section or a column by its name. -/
def contents? : Markup → Option (List (String × String) × List Transcript)
  | .done => some ([], [])
  | .char _ rest => contents? rest
  | .element name attributes inner rest =>
    match "METADATA-".toList.isPrefixOf? name with
    | some wireName => do
      let kind ← kindOf? wireName
      let header ← attributes? (attributes.splitOn '"')
      let entries ← entries? inner kind
      (contents? rest).map fun (cells, embedded) => (cells, .mk kind header entries :: embedded)
    | none => do
      let text ← inner.chars?
      (contents? rest).map fun (cells, embedded) =>
        ((String.ofList name, String.ofList (unescaped text)) :: cells, embedded)

/-- The entries of a section of some kind. -/
def entries? : Markup → Kind → Option (List Entry)
  | .done, _ => some []
  | .char _ rest, kind => entries? rest kind
  | .element name _ inner rest, kind =>
    if name = kind.elementName.toList then do
      let (cells, embedded) ← contents? inner
      (entries? rest kind).map (Entry.mk cells embedded :: ·)
    else none

end

/-- **The transcript of a text.** -/
def decode (text : String) : Option Transcript :=
  match (Markup.read text.toList).bind contents? with
  | some ([], [t]) => some t
  | _ => none

/-! ## §4. Headers -/

theorem kindOf?_wireName (kind : Kind) : kindOf? kind.wireName.toList = some kind := by
  cases kind <;> decide +kernel

/-- Only words and hyphens, so no name of a tag ends it. -/
theorem notMem_sectionName (kind : Kind) : ∀ d ∈ [' ', '/', '<', '>'], d ∉ sectionName kind := by
  cases kind <;> exact List.all_iff_forall_prop.mp (by decide +kernel)

theorem notMem_of_isWord_tag {cs : List Char} (h : IsWord cs) :
    ∀ d ∈ [' ', '/', '<', '>'], d ∉ cs := by
  have hmarks : ∀ d ∈ [' ', '/', '<', '>'], isWordChar d = false :=
    List.all_iff_forall_prop.mp (by decide)
  intro d hd
  exact h.notMem (hmarks d hd)

theorem isTag_of_isWord {cs : List Char} (h : IsWord cs) : IsTag cs [] where
  notMem_name := notMem_of_isWord_tag h
  notMem_attributes _ _ := List.not_mem_nil
  blank d hd := by cases hd

theorem key?_word (key : String) : key? (' ' :: (key.toList ++ ['='])) = some key := by
  show (if (key.toList ++ ['=']).getLast? = some '=' then _ else _) = _
  rw [List.getLast?_concat, if_pos rfl, List.dropLast_concat, String.ofList_toList]

/-- An attribute is two pieces of text, each ended by a quote. -/
theorem attributes_eq (header : List (String × String)) :
    (header.flatMap fun (key, value) => pair key value)
      = (header.flatMap fun (key, value) =>
          [' ' :: (key.toList ++ ['=']), escaped value]).flatMap fun piece => piece ++ ['"'] := by
  induction header with
  | nil => rfl
  | cons p header ih =>
    rw [List.flatMap_cons, List.flatMap_cons, List.flatMap_append, ih]
    simp [pair]

/-- **A header is read from the attributes of its tag, whatever its values are.** -/
theorem attributes?_header {header : List (String × String)}
    (h : ∀ p ∈ header, IsWord p.1.toList) :
    attributes? ((header.flatMap fun (key, value) => pair key value).splitOn '"')
      = some header := by
  have hquotes : ∀ piece ∈ header.flatMap fun (key, value) =>
      [' ' :: (key.toList ++ ['=']), escaped value], '"' ∉ piece := by
    intro piece hpiece
    obtain ⟨p, hp, hpiece⟩ := List.mem_flatMap.mp hpiece
    simp only [List.mem_cons, List.not_mem_nil, or_false] at hpiece
    rcases hpiece with rfl | rfl
    · have hkey : '"' ∉ p.1.toList := (h p hp).notMem (by decide)
      simp [hkey]
    · exact notMem_escaped p.2 (by decide)
  -- so the split gives the pieces back, a key and a value by turns
  have hsplit := splitOn_ended hquotes []
  rw [List.append_nil, ← attributes_eq, List.splitOn_nil] at hsplit
  rw [hsplit]
  clear hsplit hquotes
  induction header with
  | nil => rfl
  | cons p header ih =>
    obtain ⟨key, value⟩ := p
    have hrest := ih fun q hq => h q (List.mem_cons_of_mem _ hq)
    show (key? (' ' :: (key.toList ++ ['=']))).bind (fun key =>
      (attributes? ((header.flatMap fun (key, value) =>
        [' ' :: (key.toList ++ ['=']), escaped value]) ++ [[]])).map
          ((key, String.ofList (unescaped (escaped value))) :: ·)) = _
    rw [key?_word, hrest, unescaped_escaped]
    rfl

theorem isTag_section (kind : Kind) {header : List (String × String)}
    (h : ∀ p ∈ header, IsWord p.1.toList) :
    IsTag (sectionName kind) (header.flatMap fun (key, value) => pair key value) where
  notMem_name := notMem_sectionName kind
  notMem_attributes := by
    have hmarks : ∀ d ∈ ['<', '>'], d ∈ marks ∧ isWordChar d = false ∧ d ∉ [' ', '=', '"'] :=
      List.all_iff_forall_prop.mp (by decide)
    intro d hd hmem
    obtain ⟨hmark, hword, hnone⟩ := hmarks d hd
    obtain ⟨p, hp, hmem⟩ := List.mem_flatMap.mp hmem
    have hkey : d ∉ p.1.toList := (h p hp).notMem hword
    have hvalue : d ∉ escaped p.2 := notMem_escaped p.2 hmark
    simp only [List.mem_cons, List.not_mem_nil, or_false, not_or] at hnone
    simp [pair, hkey, hvalue, hnone] at hmem
  blank := by
    cases header with
    | nil =>
      intro d hd
      cases hd
    | cons p header =>
      intro d hd
      cases hd
      rfl

/-! ## §5. Entries and sections -/

/-- A word is not the name of a section. -/
theorem isPrefixOf?_word {cs : List Char} (h : IsWord cs) :
    "METADATA-".toList.isPrefixOf? cs = none := by
  cases hp : "METADATA-".toList.isPrefixOf? cs with
  | none => rfl
  | some more =>
    -- the hyphen gives the name of a section away
    have hcs : "METADATA-".toList ++ more = cs := List.append_eq_of_isPrefixOf?_eq_some hp
    have hhyphen : '-' ∉ cs := h.notMem (by decide)
    rw [← hcs] at hhyphen
    exact absurd (List.mem_append_left _ (by decide)) hhyphen

theorem isPrefixOf?_sectionName (kind : Kind) :
    "METADATA-".toList.isPrefixOf? (sectionName kind) = some kind.wireName.toList := by
  cases kind <;> decide +kernel

theorem contents?_column {name : List Char} (h : IsWord name) (inner rest : Markup) :
    contents? (.element name [] inner rest)
      = inner.chars?.bind fun text => (contents? rest).map fun (cells, embedded) =>
          ((String.ofList name, String.ofList (unescaped text)) :: cells, embedded) := by
  conv_lhs => unfold contents?
  rw [isPrefixOf?_word h]
  rfl

theorem contents?_section (kind : Kind) (attributes : List Char) (inner rest : Markup) :
    contents? (.element (sectionName kind) attributes inner rest)
      = (attributes? (attributes.splitOn '"')).bind fun header =>
          (entries? inner kind).bind fun entries => (contents? rest).map fun (cells, embedded) =>
            (cells, .mk kind header entries :: embedded) := by
  conv_lhs => unfold contents?
  rw [isPrefixOf?_sectionName]
  show (kindOf? kind.wireName.toList).bind _ = _
  rw [kindOf?_wireName, Option.bind_some]
  rfl

theorem entries?_entry (kind : Kind) (attributes : List Char) (inner rest : Markup) :
    entries? (.element kind.elementName.toList attributes inner rest) kind
      = (contents? inner).bind fun (cells, embedded) =>
          (entries? rest kind).map (Entry.mk cells embedded :: ·) := by
  conv_lhs => unfold entries?
  rw [if_pos rfl]
  rfl

section Cells

variable {cells : List (String × String)} (h : ∀ p ∈ cells, IsWord p.1.toList) (rest : Markup)

include h in
theorem clean_cellsMarkup (hrest : rest.Clean) : (cellsMarkup cells rest).Clean := by
  induction cells with
  | nil => exact hrest
  | cons p cells ih =>
    refine ⟨isTag_of_isWord (h p List.mem_cons_self), ?_, by decide,
      ih fun q hq => h q (List.mem_cons_of_mem _ hq)⟩
    exact Markup.clean_ofChars (notMem_escaped p.2 (by decide)) trivial

include h in
/-- **The texts of columns are read from their elements, whatever they are.** -/
theorem contents?_cellsMarkup :
    contents? (cellsMarkup cells rest)
      = (contents? rest).map fun (more, embedded) => (cells ++ more, embedded) := by
  induction cells with
  | nil =>
    show contents? rest = (contents? rest).map id
    rw [Option.map_id, id]
  | cons p cells ih =>
    have hrest := ih fun q hq => h q (List.mem_cons_of_mem _ hq)
    show contents? (.element p.1.toList [] (.ofChars (escaped p.2) .done)
      (.char '\n' (cellsMarkup cells rest))) = _
    rw [contents?_column (h p List.mem_cons_self), Markup.chars?_ofChars, Option.bind_some,
      String.ofList_toList, unescaped_escaped]
    show (contents? (cellsMarkup cells rest)).map _ = _
    rw [hrest, Option.map_map]
    rfl

end Cells

/-- A section whose markup is clean and read back, whatever follows. -/
structure Transcript.Readable (t : Transcript) : Prop where
  clean : ∀ rest : Markup, rest.Clean → (t.markup rest).Clean
  contents : ∀ rest, contents? (t.markup rest)
    = (contents? rest).map fun (cells, embedded) => (cells, t :: embedded)

section Lists

theorem clean_transcriptsMarkup {ts : List Transcript} (h : ∀ t ∈ ts, t.Readable) :
    (transcriptsMarkup ts).Clean := by
  induction ts with
  | nil => exact trivial
  | cons t ts ih =>
    exact (h t List.mem_cons_self).clean _ (ih fun u hu => h u (List.mem_cons_of_mem _ hu))

theorem contents?_transcriptsMarkup {ts : List Transcript} (h : ∀ t ∈ ts, t.Readable) :
    contents? (transcriptsMarkup ts) = some ([], ts) := by
  induction ts with
  | nil => rfl
  | cons t ts ih =>
    show contents? (t.markup (transcriptsMarkup ts)) = _
    rw [(h t List.mem_cons_self).contents, ih fun u hu => h u (List.mem_cons_of_mem _ hu)]
    rfl

variable {kind : Kind} {es : List Entry} (hcolumns : ∀ e ∈ es, ∀ p ∈ e.cells, IsWord p.1.toList)
  (hembedded : ∀ e ∈ es, ∀ t ∈ e.embedded, t.Readable)

include hcolumns hembedded in
theorem clean_entriesMarkup : (entriesMarkup kind es).Clean := by
  induction es with
  | nil => exact trivial
  | cons e es ih =>
    have hrest := ih (fun d hd => hcolumns d (List.mem_cons_of_mem _ hd))
      fun d hd => hembedded d (List.mem_cons_of_mem _ hd)
    obtain ⟨cells, embedded⟩ := e
    have hcells : ∀ p ∈ cells, IsWord p.1.toList := hcolumns _ List.mem_cons_self
    have hsections : (transcriptsMarkup embedded).Clean :=
      clean_transcriptsMarkup (hembedded _ List.mem_cons_self)
    exact ⟨isTag_of_isWord kind.isWord_elementName,
      ⟨by decide, clean_cellsMarkup hcells _ hsections⟩, by decide, hrest⟩

include hcolumns hembedded in
theorem entries?_entriesMarkup : entries? (entriesMarkup kind es) kind = some es := by
  induction es with
  | nil => rfl
  | cons e es ih =>
    have hrest := ih (fun d hd => hcolumns d (List.mem_cons_of_mem _ hd))
      fun d hd => hembedded d (List.mem_cons_of_mem _ hd)
    obtain ⟨cells, embedded⟩ := e
    have hcells : ∀ p ∈ cells, IsWord p.1.toList := hcolumns _ List.mem_cons_self
    have hsections : contents? (transcriptsMarkup embedded) = some ([], embedded) :=
      contents?_transcriptsMarkup (hembedded _ List.mem_cons_self)
    have hinner : contents? (.char '\n' (cellsMarkup cells (transcriptsMarkup embedded)))
        = some (cells, embedded) := by
      show contents? (cellsMarkup cells (transcriptsMarkup embedded)) = _
      rw [contents?_cellsMarkup hcells, hsections]
      show some (cells ++ [], embedded) = _
      rw [List.append_nil]
    show entries? (.element kind.elementName.toList []
      (.char '\n' (cellsMarkup cells (transcriptsMarkup embedded)))
      (.char '\n' (entriesMarkup kind es))) kind = _
    rw [entries?_entry, hinner]
    show (entries? (entriesMarkup kind es) kind).map _ = _
    rw [hrest]
    rfl

end Lists

/-- **A transcript is read from its markup.** -/
theorem Transcript.Worded.readable {t : Transcript} (h : t.Worded) : t.Readable := by
  -- induction on the nesting: what is embedded is readable already
  induction h with
  | @mk kind header entries keys columns _ ih =>
    constructor
    · intro rest hrest
      exact ⟨isTag_section kind keys, ⟨by decide, clean_entriesMarkup columns ih⟩, by decide, hrest⟩
    · intro rest
      show contents? (.element (sectionName kind) _ (.char '\n' (entriesMarkup kind entries))
        (.char '\n' rest)) = _
      rw [contents?_section, attributes?_header keys, Option.bind_some]
      show (entries? (entriesMarkup kind entries) kind).bind _ = _
      rw [entries?_entriesMarkup columns ih, Option.bind_some]
      rfl

/-- **A transcript is decoded from its text.** -/
theorem decode_text {t : Transcript} (h : t.Worded) :
    decode (String.ofList (t.markup .done).text) = some t := by
  have hread := Markup.read_text (h.readable.clean .done trivial)
  unfold decode
  rw [String.toList_ofList, hread, Option.bind_some, h.readable.contents]
  rfl

end ListingMetadata.Standard
