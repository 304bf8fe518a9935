/-
  ListingMetadata.Proofs.Section.Decoding
  ───────────────────────────────────────
  **WHAT THE XML FORM SHOWS IS READ BACK FROM IT.**

  The XML form of a tree is the text of a transcript.  With the built-in columns
  all its names are words, so that the transcript is decoded from the text,
  whatever the values of the attributes and of the context hold:

    • `standard_record`  — the element of an entity, by induction on the tree,
    • `worded_entry`     — its names, by the same induction,
    • `decode_format`    — the transcript of a tree from its XML form.
-/
import ListingMetadata.Proofs.Entity.Paths
import ListingMetadata.Proofs.Section.Headers
import ListingMetadata.Proofs.Section.Transcript

namespace ListingMetadata

open Standard Text

/-! ## §1. Transcripts of trees -/

/-- The transcript of a section of entries, if there are any. -/
def Standard.Transcript.of? (kind : Kind) (c : Context) : List Entry → Option Transcript
  | [] => none
  | e :: es => some (.mk kind (c.attributes kind) (e :: es))

theorem Standard.Transcript.eq_of_of? {kind : Kind} {c : Context} {es : List Entry}
    {t : Transcript} (h : Transcript.of? kind c es = some t) :
    t = .mk kind (c.attributes kind) es := by
  cases es with
  | nil => cases h
  | cons e es =>
    cases h
    rfl

namespace Entity

/-- What an entity shows in a section of a context: the cells of its columns and,
for each kind of children that has any, a section of these. -/
def entry : Entity → Context → Entry :=
  fold fun h results c =>
    .mk (h.layout.layout.columns.map fun column => (column.name, c.cell h column))
      (h.kind.childKinds.filterMap fun kind =>
        Transcript.of? kind (c.nested h)
          ((resolvedResults h results kind).map fun entry => entry (c.nested h)))

theorem entry_eq (e : Entity) (c : Context) :
    e.entry c
      = .mk (e.head.layout.layout.columns.map fun column => (column.name, c.cell e.head column))
          (e.kind.childKinds.filterMap fun k =>
            Transcript.of? k (c.nested e.head)
              ((e.resolved k).map fun d => d.entry (c.nested e.head))) := by
  unfold entry
  rw [fold_eq]
  simp only [resolvedResults_foldAll, List.map_map]
  rfl

end Entity

/-! ## §2. The text of a transcript -/

namespace Standard

/-- The text of an element on lines of its own. -/
theorem text_element (name attributes : List Char) (inner rest : Markup) :
    (Markup.element name attributes inner (.char '\n' rest)).text
      = ['<'] ++ name ++ attributes ++ ['>'] ++ inner.text ++ ['<', '/'] ++ name ++ ['>', '\n']
        ++ rest.text := by
  simp [Markup.text]

theorem text_cellsMarkup (c : Context) (h : Head) (columns : List Column) (rest : Markup) :
    (cellsMarkup (columns.map fun column => (column.name, c.cell h column)) rest).text
      = columns.flatMap (cellElement c h) ++ rest.text := by
  induction columns with
  | nil => rfl
  | cons column columns ih =>
    show (Markup.element column.name.toList [] (.ofChars (escaped (c.cell h column)) .done)
      (.char '\n' (cellsMarkup _ rest))).text = _
    rw [text_element, ih, Markup.text_ofChars]
    simp [cellElement, openTag, closeTag]

/-- The text of a section. -/
def Transcript.text (t : Transcript) : List Char :=
  (t.markup .done).text

/-- The text of an entity in a section. -/
def Entry.text (kind : Kind) (e : Entry) : List Char :=
  (e.markup kind .done).text

theorem text_transcriptsMarkup (ts : List Transcript) :
    (transcriptsMarkup ts).text = (ts.map Transcript.text).flatten := by
  induction ts with
  | nil => rfl
  | cons t ts ih =>
    obtain ⟨kind, header, entries⟩ := t
    rw [List.map_cons, List.flatten_cons, ← ih]
    show (Markup.element _ _ _ (.char '\n' (transcriptsMarkup ts))).text
      = (Markup.element _ _ _ (.char '\n' .done)).text ++ _
    rw [text_element, text_element]
    simp

theorem text_entriesMarkup (kind : Kind) (es : List Entry) :
    (entriesMarkup kind es).text = es.flatMap (Entry.text kind) := by
  induction es with
  | nil => rfl
  | cons e es ih =>
    obtain ⟨cells, embedded⟩ := e
    rw [List.flatMap_cons, ← ih]
    show (Markup.element _ _ _ (.char '\n' (entriesMarkup kind es))).text
      = (Markup.element _ _ _ (.char '\n' .done)).text ++ _
    rw [text_element, text_element]
    simp

theorem text_transcript (kind : Kind) (c : Context) (es : List Entry) :
    (Transcript.mk kind (c.attributes kind) es).text
      = opening kind c ++ es.flatMap (Entry.text kind) ++ Compact.closing kind := by
  show (Markup.element (sectionName kind) _ (.char '\n' (entriesMarkup kind es))
    (.char '\n' .done)).text = _
  have hopening : opening kind c = ['<'] ++ sectionName kind
      ++ ((c.attributes kind).flatMap fun p => pair p.1 p.2) ++ ['>', '\n'] := by
    rw [opening_eq_tag]
    unfold Mode.tag sectionName
    rw [← List.append_assoc ['<']]
    rfl
  have hclosing : Compact.closing kind = ['<', '/'] ++ sectionName kind ++ ['>', '\n'] := by
    unfold Compact.closing sectionName
    rw [← List.append_assoc]
    rfl
  rw [text_element, Markup.text_char, text_entriesMarkup, hopening, hclosing]
  simp only [Markup.text_done, List.append_assoc, List.append_nil]
  rfl

end Standard

/-! ## §3. Trees as text -/

/-- A section is written as its transcript, if its entities are. -/
theorem text_of?_eq {es : List Entity} {kind : Kind} {c : Context}
    (h : ∀ e ∈ es, (e.record c).standard kind c = (e.entry c).text kind) :
    (Section.ofRecords? kind c (es.map fun e => e.record c)).map (Section.text .standard)
      = (Transcript.of? kind c (es.map fun e => e.entry c)).map Transcript.text := by
  have hentries : standardRecords kind c (es.map fun e => e.record c)
      = (es.map fun e => e.entry c).flatMap (Entry.text kind) := by
    rw [standardRecords_eq, List.flatMap_map, List.flatMap_map]
    exact List.flatMap_congr h
  cases es with
  | nil => rfl
  | cons e es =>
    show some (Standard.opening kind c ++ standardRecords kind c ((e :: es).map fun e => e.record c)
        ++ Compact.closing kind)
      = some (Transcript.mk kind (c.attributes kind) ((e :: es).map fun e => e.entry c)).text
    rw [text_transcript, hentries]

namespace Entity

/-- **The element of an entity is the text of what the entity shows.** -/
theorem standard_record (e : Entity) :
    ∀ kind c, (e.record c).standard kind c = (e.entry c).text kind := by
  induction e using induct with
  | step h cs ih =>
    intro kind c
    have hembedded : ((mk h cs).record c).embedded.map (Section.text .standard)
        = ((mk h cs).entry c).embedded.map Transcript.text := by
      rw [record_eq, entry_eq]
      show (List.filterMap _ _).map _ = (List.filterMap _ _).map _
      rw [List.map_filterMap, List.map_filterMap]
      apply List.filterMap_congr
      -- kind by kind, a section of children for which this is known
      intro k _
      apply text_of?_eq
      intro d hd
      exact ih d (mem_resolved.mp hd).2.1 k _
    have hcells : Standard.cells c (mk h cs).head.settled
        = (mk h cs).head.layout.layout.columns.flatMap (cellElement c (mk h cs).head) := rfl
    rw [Record.standard_eq, hembedded, head_record, hcells, entry_eq]
    show _ = (Markup.element _ _ (.char '\n' (cellsMarkup _ (transcriptsMarkup _)))
      (.char '\n' .done)).text
    rw [text_element, Markup.text_char, text_cellsMarkup, text_transcriptsMarkup]
    simp [openTag, closeTag, Entry.embedded]

end Entity

/-! ## §4. Names -/

theorem Context.isWord_attributes (c : Context) (kind : Kind) :
    ∀ p ∈ c.attributes kind, IsWord p.1.toList := by
  intro p hp
  rcases List.mem_append.mp hp with hp | hp
  · obtain ⟨key, hkey, rfl⟩ := List.mem_map.mp hp
    exact kind.isWord_headerKey key hkey
  · have hends : IsWord "Version".toList ∧ IsWord "Date".toList := by decide
    simp only [List.mem_cons, List.not_mem_nil, or_false] at hp
    rcases hp with rfl | rfl
    · exact hends.1
    · exact hends.2

/-- A section of entities is named by words, if what they show is. -/
theorem Context.worded_section (c : Context) (kind : Kind) {es : List Entity}
    (h : ∀ e ∈ es, (e.entry c).Worded) :
    (Transcript.mk kind (c.attributes kind) (es.map fun e => e.entry c)).Worded := by
  apply Transcript.worded_of_entries (c.isWord_attributes kind)
  intro entry hentry
  obtain ⟨e, he, rfl⟩ := List.mem_map.mp hentry
  exact h e he

/-- **With the built-in columns everything that an entity shows is named by
words.** -/
theorem Entity.worded_entry (e : Entity)
    (hb : ∀ x, Within x e → x.head.layout.layout.columns = x.kind.builtinColumns) :
    ∀ c, (e.entry c).Worded := by
  induction e using Entity.induct with
  | step h cs ih =>
    intro c
    rw [entry_eq]
    constructor
    · intro p hp
      obtain ⟨column, hcolumn, rfl⟩ := List.mem_map.mp hp
      rw [hb _ (.here _)] at hcolumn
      exact Kind.isWord_columnName _ column hcolumn
    · intro t ht
      obtain ⟨k, -, hk⟩ := List.mem_filterMap.mp ht
      -- the children use the built-in columns too, and so does all below them
      rw [Transcript.eq_of_of? hk]
      apply Context.worded_section
      intro d hd
      exact ih d (mem_resolved.mp hd).2.1 (fun x hx => hb x (.down hd hx)) _

/-! ## §5. Decoding -/

/-- **From the XML form of entities with the built-in columns all that they show
is decoded: the sections and entities as they are nested, each section's kind
and header, and each entity's cells by column.** -/
theorem decode_format {kind : Kind} {es : List Entity} (hne : es ≠ [])
    (hof : ∀ e ∈ es, e.kind = kind)
    (hb : ∀ e ∈ es, ∀ x, Entity.Within x e →
      x.head.layout.layout.columns = x.kind.builtinColumns) (c : Context) :
    decode (format kind .standard c es)
      = some (.mk kind (c.attributes kind) (es.map fun e => e.entry c)) := by
  have htext : (format kind .standard c es).toList
      = (Transcript.mk kind (c.attributes kind) (es.map fun e => e.entry c)).text := by
    rw [toList_format hne hof]
    show Standard.opening kind c ++ standardRecords kind c _ ++ Compact.closing kind = _
    rw [text_transcript, standardRecords_eq, List.flatMap_map, List.flatMap_map,
      List.flatMap_congr fun e _ => e.standard_record kind c]
  have hworded := c.worded_section kind fun e he => e.worded_entry (hb e he) c
  rw [← String.ofList_toList (s := format kind .standard c es), htext]
  exact decode_text hworded

/-- A class with a table below it, their texts full of markup. -/
def markedUpClass : Entity :=
  ((Entity.plain .propertyClass false).setAll
    [("ClassName", "</Class><METADATA-TABLE>"), ("Description", "a \"b\" & 'c' &amp;")]).value.adopt
      ((Entity.plain .table false).setAll
        [("SystemName", "ListPrice"), ("MaximumLength", "<\n\t>")]).value

/-- The class and its table are read back from texts like these. -/
theorem markedUpClass_decoded :
    (markedUpClass.resolved .table).length = 1 ∧ [markedUpClass] ≠ [] ∧
      (∀ e ∈ [markedUpClass], e.kind = .propertyClass) ∧
      (∀ e ∈ [markedUpClass], ∀ x, Entity.Within x e →
        x.head.layout.layout.columns = x.kind.builtinColumns) ∧
      decode (format .propertyClass .standard (Context.fresh "\"1\">" ⟨1058898584, 0⟩)
          [markedUpClass])
        = some (.mk .propertyClass
            ((Context.fresh "\"1\">" ⟨1058898584, 0⟩).attributes .propertyClass)
            [markedUpClass.entry (Context.fresh "\"1\">" ⟨1058898584, 0⟩)]) := by
  have hbelow : (markedUpClass.resolved .table).length = 1 := by decide +kernel
  have hne : [markedUpClass] ≠ [] := by simp
  have hof : ∀ e ∈ [markedUpClass], e.kind = .propertyClass := by decide +kernel
  have hb : ∀ e ∈ [markedUpClass], ∀ x, Entity.Within x e →
      x.head.layout.layout.columns = x.kind.builtinColumns := by
    intro e he x hx
    rw [List.mem_singleton.mp he] at hx
    have hchildren : ∀ e ∈ markedUpClass.children, e.children = [] ∧
        e.head.layout.layout.columns = e.kind.builtinColumns := by decide +kernel
    cases hx with
    | here => decide +kernel
    | down hc hx =>
      obtain ⟨hnone, hcolumns⟩ := hchildren _ (Entity.mem_resolved.mp hc).2.1
      cases hx with
      | here => exact hcolumns
      | down hd _ =>
        have hmem := (Entity.mem_resolved.mp hd).2.1
        rw [hnone] at hmem
        cases hmem
  exact ⟨hbelow, hne, hof, hb, decode_format hne hof hb _⟩

end ListingMetadata
