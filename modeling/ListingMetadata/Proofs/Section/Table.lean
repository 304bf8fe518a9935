/-
  ListingMetadata.Proofs.Section.Table
  ────────────────────────────────────
  **WHEN A COMPACT SECTION IS A TABLE.**

  A reader of the compact form finds cells by line and field: lines are ended
  by line breaks, fields by tabs, and nothing is escaped.  For entities that
  were read strictly every cell is printable, but for the values of free text,
  whose grammar lets tabs and line breaks in:

    • `notMem_due`        — the cells that are on one line and in one field,
    • `linesOf_format`    — the lines of a section,
    • `isTable_iff`       — a section is a table exactly when no value of free
                            text holds a tab or a line break.
-/
import Mathlib.Data.Bool.AllAny
import ListingMetadata.Proofs.Entity.StrictlyRead
import ListingMetadata.Proofs.Kind.Words
import ListingMetadata.Proofs.Section.Cells
import ListingMetadata.Proofs.Text.Splitting
import ListingMetadata.Proofs.Value.Characters

namespace ListingMetadata

open Text

/-! ## §1. Reading lines and fields -/

namespace Compact

/-- The lines of a text, and what follows the last line break. -/
def linesOf (text : List Char) : List (List Char) :=
  text.splitOn '\n'

/-- The fields of a line. -/
def fieldsOf (line : List Char) : List String :=
  (line.splitOn '\t').map String.ofList

/-- The header tag of a section, on one line. -/
def headerLine (kind : Kind) (c : Context) : List Char :=
  "<METADATA-".toList ++ kind.wireName.toList
    ++ (c.header kind).flatMap (fun (key, value) => pair key value)
    ++ pair "Version" c.version ++ pair "Date" c.dateText ++ ['>']

/-- The closing tag of a section, on one line. -/
def closingLine (kind : Kind) : List Char :=
  "</METADATA-".toList ++ kind.wireName.toList ++ ['>']

/-- Some cells between tags, a tab before the first and after each. -/
def fieldsLine (name : String) (cells : List String) : List Char :=
  ((['<'] ++ name.toList ++ ['>']) :: cells.map String.toList).flatMap
      (fun field => field ++ ['\t'])
    ++ (['<', '/'] ++ name.toList ++ ['>'])

theorem opening_eq (kind : Kind) (c : Context) : opening kind c = headerLine kind c ++ ['\n'] := by
  unfold opening headerLine
  simp only [List.append_assoc]
  rfl

theorem closing_eq (kind : Kind) : closing kind = closingLine kind ++ ['\n'] := by
  unfold closing closingLine
  simp only [List.append_assoc]
  rfl

theorem line_eq (name : String) (cells : List String) :
    line name cells = fieldsLine name cells ++ ['\n'] := by
  unfold line fieldsLine
  simp only [List.flatMap_cons, List.flatMap_map, List.append_assoc]
  rfl

/-- **Cells without tabs are the fields of their line.** -/
theorem fieldsOf_fieldsLine {name : String} {cells : List String} (hn : '\t' ∉ name.toList)
    (hc : ∀ cell ∈ cells, '\t' ∉ cell.toList) :
    fieldsOf (fieldsLine name cells)
      = String.ofList (['<'] ++ name.toList ++ ['>'])
        :: (cells ++ [String.ofList (['<', '/'] ++ name.toList ++ ['>'])]) := by
  have hpieces : ∀ field ∈ (['<'] ++ name.toList ++ ['>']) :: cells.map String.toList,
      '\t' ∉ field := by
    intro field hfield
    rcases List.mem_cons.mp hfield with rfl | hfield
    · simp [hn]
    · obtain ⟨cell, hcell, rfl⟩ := List.mem_map.mp hfield
      exact hc cell hcell
  have hlast : '\t' ∉ ['<', '/'] ++ name.toList ++ ['>'] := by simp [hn]
  have hcells : (cells.map String.toList).map String.ofList = cells := by
    rw [List.map_map]
    conv_rhs => rw [← List.map_id cells]
    apply List.map_congr_left
    intro cell _
    exact String.ofList_toList
  unfold fieldsOf fieldsLine
  rw [splitOn_ended hpieces, List.splitOn_eq_singleton hlast, List.map_append, List.map_cons,
    hcells]
  rfl

end Compact

/-! ## §2. Contexts and cells on one line -/

/-- No text of the context holds a tab or a line break. -/
def Context.OnOneLine (c : Context) : Prop :=
  ∀ text ∈ c.version :: c.values.map Prod.snd, '\t' ∉ text.toList ∧ '\n' ∉ text.toList

/-- The two characters that end fields and lines. -/
def breaks : List Char := ['\t', '\n']

theorem notMem_of_breaks {cs : List Char} (h : '\t' ∉ cs ∧ '\n' ∉ cs) {d : Char}
    (hd : d ∈ breaks) : d ∉ cs := by
  unfold breaks at hd
  simp only [List.mem_cons, List.not_mem_nil, or_false] at hd
  rcases hd with rfl | rfl
  · exact h.1
  · exact h.2

namespace Context

variable {c : Context} {d : Char}

theorem OnOneLine.notMem (hc : c.OnOneLine) (hd : d ∈ breaks) {text : String}
    (ht : text ∈ c.version :: c.values.map Prod.snd) : d ∉ text.toList :=
  notMem_of_breaks (hc text ht) hd

theorem notMem_dateText (c : Context) (hd : d ∈ breaks) : d ∉ c.dateText.toList := by
  have hbreak : ∀ d ∈ breaks, isPrintable d = false := List.all_iff_forall_prop.mp (by decide)
  exact (ofFigures_text c.date).allPrintable.notMem (hbreak d hd)

/-- The value of a key, or the empty text, is on one line. -/
theorem OnOneLine.notMem_value (hc : c.OnOneLine) (hd : d ∈ breaks) (key : String) :
    d ∉ ((c.get? key).getD "").toList := by
  cases hv : c.get? key with
  | none => simp
  | some value =>
    have hmem : (key, value) ∈ c.values := by
      obtain ⟨before, after, hvalues, -⟩ := List.lookup_eq_some_iff.mp hv
      rw [hvalues]
      simp
    exact hc.notMem hd (List.mem_cons_of_mem _ (List.mem_map.mpr ⟨_, hmem, rfl⟩))

theorem OnOneLine.notMem_fallback (hc : c.OnOneLine) (hd : d ∈ breaks) (stamp : Option Stamp) :
    d ∉ (c.fallback stamp).toList := by
  cases stamp with
  | none => simp [fallback]
  | some stamp =>
    cases stamp with
    | version => exact hc.notMem hd List.mem_cons_self
    | date => exact c.notMem_dateText hd

end Context

/-- Every built-in column is of free text or takes printable characters only. -/
theorem Kind.freeText_or_printable (k : Kind) : ∀ column ∈ k.builtinColumns,
    column.type.grammar = .text ∨ column.type.grammar.IsPrintable := by
  cases k <;> decide +kernel

/-- The values of free text that a head holds, in the order of the columns. -/
def Head.freeTexts (h : Head) : List String :=
  h.kind.builtinColumns.filterMap fun column =>
    if column.type.grammar = .text then (h.values.get? column.name).bind Value.text? else none

theorem Head.mem_freeTexts {h : Head} {s : String} :
    s ∈ h.freeTexts ↔ ∃ column ∈ h.kind.builtinColumns, column.type.grammar = .text ∧
      h.values.get? column.name = some (.text s) := by
  have htext : ∀ v : Value, v.text? = some s ↔ v = .text s := by
    intro v
    cases v <;> simp [Value.text?]
  unfold freeTexts
  simp only [List.mem_filterMap, Option.ite_none_right_eq_some, Option.bind_eq_some_iff, htext,
    exists_eq_right]

/-- No value of free text holds a tab or a line break. -/
def Head.FreeTextsOnOneLine (h : Head) : Prop :=
  ∀ s ∈ h.freeTexts, '\t' ∉ s.toList ∧ '\n' ∉ s.toList

instance (h : Head) : Decidable h.FreeTextsOnOneLine :=
  inferInstanceAs (Decidable (∀ s ∈ h.freeTexts, '\t' ∉ s.toList ∧ '\n' ∉ s.toList))

/-- **A cell is on one line and in one field, if the values of free text are.** -/
theorem Context.OnOneLine.notMem_due {c : Context} (hc : c.OnOneLine) {h : Head}
    (hs : h.StrictlyRead) (hfree : h.FreeTextsOnOneLine) {column : Column}
    (hcolumn : column ∈ h.kind.builtinColumns) {d : Char} (hd : d ∈ breaks) :
    d ∉ (c.due h column).toList := by
  have hbreak : ∀ d ∈ breaks, isPrintable d = false := List.all_iff_forall_prop.mp (by decide)
  unfold due
  cases hv : h.values.get? column.name with
  | none => exact hc.notMem_fallback hd column.stamp
  | some v =>
    obtain ⟨text, htext⟩ := hs.values column hcolumn v hv
    show d ∉ (column.type.render v).toList
    by_cases hg : column.type.grammar = .text
    · -- free text is kept as it is, and so is what it holds
      have hfamily : column.type.family = .text := by
        unfold ValueType.family
        rw [hg]
      have hkept : v = .text text := ValueType.eq_text_of_strict hfamily htext
      rw [hkept] at hv ⊢
      have hboth := hfree text (Head.mem_freeTexts.mpr ⟨column, hcolumn, hg, hv⟩)
      exact notMem_of_breaks hboth hd
    · have hprintable := (Kind.freeText_or_printable h.kind column hcolumn).resolve_left hg
      exact (ValueType.allPrintable_render_of_strict hprintable htext).notMem (hbreak d hd)

/-! ## §3. The lines of a section -/

namespace Compact

theorem notMem_pair {d : Char} {name value : String} (hd : d ∈ breaks) (hn : d ∉ name.toList)
    (hv : d ∉ value.toList) : d ∉ pair name value := by
  have hmarks : ∀ d ∈ breaks, d ∉ [' ', '=', '"'] := List.all_iff_forall_prop.mp (by decide)
  have hnone := hmarks d hd
  simp only [List.mem_cons, List.not_mem_nil, or_false, not_or] at hnone
  unfold pair
  simp [hn, hv, hnone]

theorem notMem_of_isWord {d : Char} (hd : d ∈ breaks) {cs : List Char} (h : IsWord cs) :
    d ∉ cs := by
  have hbreak : ∀ d ∈ breaks, isWordChar d = false := List.all_iff_forall_prop.mp (by decide)
  exact h.notMem (hbreak d hd)

/-- The header is on one line. -/
theorem notMem_headerLine {c : Context} (hc : c.OnOneLine) (kind : Kind) :
    '\n' ∉ headerLine kind c := by
  have hd : '\n' ∈ breaks := by decide
  have hpairs : '\n' ∉ (c.header kind).flatMap fun (key, value) => pair key value := by
    intro hmem
    obtain ⟨p, hp, hin⟩ := List.mem_flatMap.mp hmem
    obtain ⟨key, hkey, rfl⟩ := List.mem_map.mp hp
    exact notMem_pair hd (notMem_of_isWord hd (kind.isWord_headerKey key hkey))
      (hc.notMem_value hd key) hin
  have hversion : '\n' ∉ pair "Version" c.version :=
    notMem_pair hd (by decide) (hc.notMem hd List.mem_cons_self)
  have hdate : '\n' ∉ pair "Date" c.dateText :=
    notMem_pair hd (by decide) (c.notMem_dateText hd)
  have hkind : '\n' ∉ kind.wireName.toList := notMem_of_isWord hd kind.isWord_wireName
  have hbegin : '\n' ∉ "<METADATA-".toList := by decide
  unfold headerLine
  simp only [List.mem_append, not_or]
  exact ⟨⟨⟨⟨⟨hbegin, hkind⟩, hpairs⟩, hversion⟩, hdate⟩, by decide⟩

theorem notMem_closingLine (kind : Kind) : '\n' ∉ closingLine kind := by
  have hbegin : '\n' ∉ "</METADATA-".toList := by decide
  unfold closingLine
  simp only [List.mem_append, not_or]
  exact ⟨⟨hbegin, notMem_of_isWord (by decide) kind.isWord_wireName⟩, by decide⟩

/-- Cells on one line are on one line together. -/
theorem notMem_fieldsLine {name : String} {cells : List String} (hn : '\n' ∉ name.toList)
    (hc : ∀ cell ∈ cells, '\n' ∉ cell.toList) : '\n' ∉ fieldsLine name cells := by
  unfold fieldsLine
  intro hmem
  rcases List.mem_append.mp hmem with hmem | hmem
  · obtain ⟨field, hfield, hin⟩ := List.mem_flatMap.mp hmem
    rcases List.mem_cons.mp hfield with rfl | hfield
    · simp [hn] at hin
    · obtain ⟨cell, hcell, rfl⟩ := List.mem_map.mp hfield
      have hcell := hc cell hcell
      simp [hcell] at hin
  · simp [hn] at hmem

end Compact

/-- Entities without resolved children have no sections below them. -/
theorem compactEmbedded_of_childless {es : List Entity} (h : ∀ e ∈ es, ∀ k, e.resolved k = [])
    (c : Context) : compactEmbedded (es.map fun e => e.record c) = [] := by
  induction es with
  | nil => rfl
  | cons e es ih =>
    have hnone : (e.record c).compact = [] := by
      rw [Entity.record_eq]
      show compactSections _ = []
      have hsections : (e.kind.childKinds.filterMap fun k =>
          Section.ofRecords? k (c.nested e.head)
            ((e.resolved k).map fun d => d.record (c.nested e.head))) = [] := by
        rw [List.filterMap_eq_nil_iff]
        intro k _
        rw [h e List.mem_cons_self k]
        rfl
      rw [hsections]
      rfl
    show (e.record c).compact ++ compactEmbedded (es.map fun e => e.record c) = []
    rw [hnone, ih fun d hd => h d (List.mem_cons_of_mem _ hd)]
    rfl

/-- The cells of an entity, in the order of the columns. -/
def Context.dues (c : Context) (h : Head) : List String :=
  h.kind.builtinColumns.map (c.due h)

section Childless

variable {kind : Kind} {es : List Entity} {c : Context}

/-- **The lines that a section is made of.** -/
theorem format_eq_lines (hkind : kind ≠ .system) (hne : es ≠ [])
    (hes : ∀ e ∈ es, e.kind = kind ∧ e.head.StrictlyRead ∧ ∀ k, e.resolved k = []) :
    (format kind .compact c es).toList
      = (Compact.headerLine kind c
          :: Compact.fieldsLine "COLUMNS" (kind.builtinColumns.map Column.name)
          :: ((es.map fun e => Compact.fieldsLine "DATA" (c.dues e.head))
            ++ [Compact.closingLine kind])).flatMap (fun line => line ++ ['\n']) := by
  -- strict entities of one kind have the columns of the kind
  have hcolumns : ∀ e ∈ es, e.head.layout.layout.columns = kind.builtinColumns := by
    intro e he
    obtain ⟨hk, hs, -⟩ := hes e he
    rw [hs.layout, Layout.columns_builtin]
    exact congrArg Kind.builtinColumns hk
  have hfirst : Compact.columnsOf (es.map Entity.head) = kind.builtinColumns := by
    cases es with
    | nil => exact absurd rfl hne
    | cons e es => exact hcolumns e List.mem_cons_self
  have hrows : ∀ e ∈ es, kind.builtinColumns.map (c.cell e.head) = c.dues e.head := by
    intro e he
    obtain ⟨rfl, hs, -⟩ := hes e he
    apply List.map_congr_left
    intro column hcolumn
    exact c.cell_eq_due hs.layout hcolumn
  have hdata : (es.map Entity.head).flatMap
        (fun h => Compact.line "DATA" (kind.builtinColumns.map (c.cell h)))
      = (es.map fun e => Compact.fieldsLine "DATA" (c.dues e.head)).flatMap
        fun line => line ++ ['\n'] := by
    rw [List.flatMap_map, List.flatMap_map]
    apply List.flatMap_congr
    intro e he
    rw [hrows e he, Compact.line_eq]
  rw [toList_format_compact hne fun e he => (hes e he).1,
    compactEmbedded_of_childless fun e he => (hes e he).2.2]
  unfold Compact.rows Compact.table
  rw [if_neg hkind, hfirst]
  show Compact.opening kind c ++ (Compact.line "COLUMNS" _ ++ _) ++ [] ++ Compact.closing kind = _
  rw [hdata, Compact.opening_eq, Compact.closing_eq, Compact.line_eq]
  simp

/-! ## §4. Tables -/

/-- Read by line and field, a text is a table of entities: the header, the names
of the columns, a line for each entity with a field for each of its cells, and
the closing tag. -/
def Compact.IsTable (kind : Kind) (c : Context) (es : List Entity) (text : List Char) : Prop :=
  ∃ columns : List Char, ∃ rows : List (List Char),
    linesOf text = headerLine kind c :: columns :: (rows ++ [closingLine kind, []]) ∧
    fieldsOf columns = "<COLUMNS>" :: (kind.builtinColumns.map Column.name ++ ["</COLUMNS>"]) ∧
    rows.map fieldsOf = es.map fun e => "<DATA>" :: (c.dues e.head ++ ["</DATA>"])

/-- **In a table no value of free text holds a tab or a line break.** -/
theorem Compact.IsTable.freeTexts {text : List Char} (h : IsTable kind c es text) :
    ∀ e ∈ es, e.head.FreeTextsOnOneLine := by
  intro e he s hs
  obtain ⟨columns, rows, hlines, -, hrows⟩ := h
  obtain ⟨column, hcolumn, -, hv⟩ := Head.mem_freeTexts.mp hs
  -- the value is a field of the line of its entity
  have hline : "<DATA>" :: (c.dues e.head ++ ["</DATA>"]) ∈ rows.map fieldsOf := by
    rw [hrows]
    exact List.mem_map.mpr ⟨e, he, rfl⟩
  obtain ⟨row, hrow, hfields⟩ := List.mem_map.mp hline
  have hdue : s ∈ c.dues e.head := by
    refine List.mem_map.mpr ⟨column, hcolumn, ?_⟩
    unfold Context.due
    rw [hv]
    rfl
  have hfield : s ∈ fieldsOf row := by
    rw [hfields]
    exact List.mem_cons_of_mem _ (List.mem_append_left _ hdue)
  obtain ⟨piece, hpiece, rfl⟩ := List.mem_map.mp hfield
  rw [String.toList_ofList]
  obtain ⟨htab, hpart⟩ := of_mem_splitOn hpiece
  refine ⟨htab, fun hnewline => ?_⟩
  -- and its line is one of the lines of the text
  have hmem : row ∈ linesOf text := by
    rw [hlines]
    simp [hrow]
  exact (of_mem_splitOn hmem).1 (hpart _ hnewline)

/-- **Without such values a section is a table.** -/
theorem isTable_of_freeTexts (hkind : kind ≠ .system) (hne : es ≠ [])
    (hes : ∀ e ∈ es, e.kind = kind ∧ e.head.StrictlyRead ∧ ∀ k, e.resolved k = [])
    (hc : c.OnOneLine) (hfree : ∀ e ∈ es, e.head.FreeTextsOnOneLine) :
    Compact.IsTable kind c es (format kind .compact c es).toList := by
  have hcells : ∀ e ∈ es, ∀ d ∈ breaks, ∀ cell ∈ c.dues e.head, d ∉ cell.toList := by
    intro e he d hd cell hcell
    obtain ⟨column, hcolumn, rfl⟩ := List.mem_map.mp hcell
    exact hc.notMem_due (hes e he).2.1 (hfree e he) hcolumn hd
  have hnames : ∀ d ∈ breaks, ∀ name ∈ kind.builtinColumns.map Column.name, d ∉ name.toList := by
    intro d hd name hname
    obtain ⟨column, hcolumn, rfl⟩ := List.mem_map.mp hname
    exact Compact.notMem_of_isWord hd (kind.isWord_columnName column hcolumn)
  have hlines : ∀ line ∈ Compact.headerLine kind c
      :: Compact.fieldsLine "COLUMNS" (kind.builtinColumns.map Column.name)
      :: ((es.map fun e => Compact.fieldsLine "DATA" (c.dues e.head))
        ++ [Compact.closingLine kind]), '\n' ∉ line := by
    intro line hline
    rcases List.mem_cons.mp hline with rfl | hline
    · exact Compact.notMem_headerLine hc kind
    rcases List.mem_cons.mp hline with rfl | hline
    · exact Compact.notMem_fieldsLine (by decide) (hnames '\n' (by decide))
    rcases List.mem_append.mp hline with hline | hline
    · obtain ⟨e, he, rfl⟩ := List.mem_map.mp hline
      exact Compact.notMem_fieldsLine (by decide) (hcells e he '\n' (by decide))
    · rw [List.mem_singleton.mp hline]
      exact Compact.notMem_closingLine kind
  refine ⟨Compact.fieldsLine "COLUMNS" (kind.builtinColumns.map Column.name),
    es.map fun e => Compact.fieldsLine "DATA" (c.dues e.head), ?_, ?_, ?_⟩
  · unfold Compact.linesOf
    rw [format_eq_lines hkind hne hes, ← List.append_nil (List.flatMap _ _), splitOn_ended hlines]
    simp
  · exact Compact.fieldsOf_fieldsLine (by decide) (hnames '\t' (by decide))
  · rw [List.map_map]
    apply List.map_congr_left
    intro e he
    exact Compact.fieldsOf_fieldsLine (by decide) (hcells e he '\t' (by decide))

/-- **A section of strictly read entities is a table exactly when no value of
free text holds a tab or a line break.** -/
theorem isTable_iff (hkind : kind ≠ .system) (hne : es ≠ [])
    (hes : ∀ e ∈ es, e.kind = kind ∧ e.head.StrictlyRead ∧ ∀ k, e.resolved k = [])
    (hc : c.OnOneLine) :
    Compact.IsTable kind c es (format kind .compact c es).toList ↔
      ∀ e ∈ es, e.head.FreeTextsOnOneLine :=
  ⟨fun h => h.freeTexts, fun h => isTable_of_freeTexts hkind hne hes hc h⟩

end Childless

/-- A strict search help of some text. -/
def townHelp (text : String) : Entity :=
  ((Entity.plain .searchHelp true).setAll [("SearchHelpID", "TOWN"), ("Value", text)]).value

theorem strictlyRead_townHelp (text : String) : (townHelp text).kind = .searchHelp ∧
    (townHelp text).head.StrictlyRead ∧ ∀ k, (townHelp text).resolved k = [] := by
  obtain ⟨hkind, hread⟩ := Head.strictlyRead_plain_setAll .searchHelp
    [("SearchHelpID", "TOWN"), ("Value", text)]
  refine ⟨hkind, hread, ?_⟩
  intro k
  unfold Entity.resolved
  split <;> rfl

/-- The version, date and resource of an output. -/
def propertyOutput : Context :=
  (Context.fresh "1.00.001" ⟨1058898584, 0⟩).withResource "Property"

theorem onOneLine_propertyOutput : propertyOutput.OnOneLine := by
  unfold Context.OnOneLine
  decide +kernel

/-- Markup, quotes and blanks in a text leave the table as it is. -/
theorem markedUpHelp_isTable :
    Kind.searchHelp ≠ .system ∧ [townHelp "Town, or \"<all>\" & more", townHelp ""] ≠ [] ∧
      (∀ e ∈ [townHelp "Town, or \"<all>\" & more", townHelp ""], e.kind = .searchHelp ∧
        e.head.StrictlyRead ∧ ∀ k, e.resolved k = []) ∧
      propertyOutput.OnOneLine ∧
      Compact.IsTable .searchHelp propertyOutput
        [townHelp "Town, or \"<all>\" & more", townHelp ""]
        (format .searchHelp .compact propertyOutput
          [townHelp "Town, or \"<all>\" & more", townHelp ""]).toList := by
  have hkind : Kind.searchHelp ≠ .system := by decide
  have hne : [townHelp "Town, or \"<all>\" & more", townHelp ""] ≠ [] := by simp
  have hread : ∀ e ∈ [townHelp "Town, or \"<all>\" & more", townHelp ""], e.kind = .searchHelp ∧
      e.head.StrictlyRead ∧ ∀ k, e.resolved k = [] := by
    intro e he
    simp only [List.mem_cons, List.not_mem_nil, or_false] at he
    rcases he with rfl | rfl
    · exact strictlyRead_townHelp _
    · exact strictlyRead_townHelp _
  refine ⟨hkind, hne, hread, onOneLine_propertyOutput, ?_⟩
  exact (isTable_iff hkind hne hread onOneLine_propertyOutput).mpr (by decide +kernel)

/-- **A tab in a text, which strict reading takes, makes two fields of one cell.** -/
theorem tabbedHelp_not_isTable :
    (∀ e ∈ [townHelp "Enter a town\tor a street"], e.kind = .searchHelp ∧
        e.head.StrictlyRead ∧ ∀ k, e.resolved k = []) ∧
      propertyOutput.OnOneLine ∧
      ¬ Compact.IsTable .searchHelp propertyOutput [townHelp "Enter a town\tor a street"]
        (format .searchHelp .compact propertyOutput
          [townHelp "Enter a town\tor a street"]).toList := by
  refine ⟨?_, onOneLine_propertyOutput, ?_⟩
  · intro e he
    rw [List.mem_singleton.mp he]
    exact strictlyRead_townHelp _
  · intro htable
    have hfree := htable.freeTexts _ List.mem_cons_self
    have hbroken : ¬ (townHelp "Enter a town\tor a street").head.FreeTextsOnOneLine := by
      decide +kernel
    exact hbroken hfree

end ListingMetadata
