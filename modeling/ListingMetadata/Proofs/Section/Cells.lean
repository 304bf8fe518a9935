/-
  ListingMetadata.Proofs.Section.Cells
  ────────────────────────────────────
  **WHAT IS WRITTEN OF ENTITIES OF ONE KIND.**

  A cell shows the text of an entity in a column, or else what the column falls
  back to.  The section of entities of one kind has a record for each of them,
  and is written from their heads and the sections embedded in them:

    • `cell_eq`               — a cell,
    • `cell_eq_due`           — a cell of an entity with the built-in columns,
    • `of?_of_kind`           — the section of entities of one kind,
    • `toList_format_compact`, `toList_format_standard` — its text.
-/
import ListingMetadata.Proofs.Layout.Builtin
import ListingMetadata.Proofs.Section.Outline

namespace ListingMetadata

/-! ## §1. Cells -/

namespace Context

/-- What stands in a column of a stamp, or of none, for an entity without a text
in it. -/
def fallback (c : Context) : Option Stamp → String
  | some .version => c.version
  | some .date => c.dateText
  | none => ""

theorem cell_eq (c : Context) (h : Head) (column : Column) :
    c.cell h column = (h.text? column.name).getD (c.fallback column.stamp) := by
  unfold cell
  cases h.text? column.name with
  | some text => rfl
  | none =>
    cases column.stamp with
    | none => rfl
    | some stamp => cases stamp <;> rfl

/-- What is due in a column: the value of its name, rendered by its type, or else
what the column falls back to. -/
def due (c : Context) (h : Head) (column : Column) : String :=
  ((h.values.get? column.name).map column.type.render).getD (c.fallback column.stamp)

/-- **With the built-in columns a cell shows what is due.** -/
theorem cell_eq_due (c : Context) {h : Head} {strict : Bool}
    (hl : h.layout.layout = Layout.builtin h.kind strict) {column : Column}
    (hc : column ∈ h.kind.builtinColumns) : c.cell h column = c.due h column := by
  have htext : h.text? column.name = (h.values.get? column.name).map column.type.render := by
    have hcolumn : h.column? column.name = some column := by
      show h.layout.layout.find? column.name = some column
      rw [hl]
      exact Layout.find?_builtin hc strict
    unfold Head.text?
    rw [hcolumn]
  rw [cell_eq, htext]
  rfl

end Context

/-! ## §2. Sections of entities of one kind -/

namespace Entity

@[simp] theorem head_record (e : Entity) (c : Context) : (e.record c).head = e.head := by
  rw [record_eq]
  rfl

theorem map_head_record (es : List Entity) (c : Context) :
    (es.map fun e => e.record c).map Record.head = es.map head := by
  rw [List.map_map]
  apply List.map_congr_left
  intro e _
  exact head_record e c

end Entity

section OneKind

variable {kind : Kind} {es : List Entity}

/-- **Entities of one kind have a record each in their section.** -/
theorem Section.of?_of_kind (hne : es ≠ []) (hof : ∀ e ∈ es, e.kind = kind) (c : Context) :
    Section.of? kind c es = some (Section.mk kind c (es.map fun e => e.record c)) := by
  have hall : es.filter (fun e => decide (e.kind = kind)) = es := by
    rw [List.filter_eq_self]
    intro e he
    exact decide_eq_true (hof e he)
  unfold Section.of?
  rw [hall]
  cases es with
  | nil => exact absurd rfl hne
  | cons e es => rfl

theorem toList_format (hne : es ≠ []) (hof : ∀ e ∈ es, e.kind = kind) (mode : Mode)
    (c : Context) :
    (format kind mode c es).toList
      = (Section.mk kind c (es.map fun e => e.record c)).text mode := by
  unfold format
  rw [Section.of?_of_kind hne hof]
  exact String.toList_ofList

/-- **The compact form of entities of one kind.** -/
theorem toList_format_compact (hne : es ≠ []) (hof : ∀ e ∈ es, e.kind = kind) (c : Context) :
    (format kind .compact c es).toList
      = Compact.opening kind c ++ Compact.rows kind c (es.map Entity.head)
        ++ compactEmbedded (es.map fun e => e.record c) ++ Compact.closing kind := by
  rw [toList_format hne hof]
  show Compact.opening kind c
      ++ Compact.rows kind c ((es.map fun e => e.record c).map Record.head)
      ++ compactEmbedded (es.map fun e => e.record c) ++ Compact.closing kind = _
  rw [Entity.map_head_record]

theorem standardRecords_eq (kind : Kind) (c : Context) (rs : List Record) :
    standardRecords kind c rs = rs.flatMap (Record.standard kind c) := by
  induction rs with
  | nil => rfl
  | cons r rs ih =>
    rw [List.flatMap_cons, ← ih]
    rfl

theorem standardRecords_map (kind : Kind) (c : Context) (es : List Entity) :
    standardRecords kind c (es.map fun e => e.record c)
      = es.flatMap fun e => Standard.openTag kind.elementName ++ ['\n'] ++ Standard.cells c e.head
          ++ standardSections (e.record c).embedded ++ Standard.closeTag kind.elementName
          ++ ['\n'] := by
  rw [standardRecords_eq, List.flatMap_map]
  apply List.flatMap_congr
  intro e _
  rw [Record.standard_eq, Entity.head_record, standardSections_eq]
  rfl

/-- **The elements of entities of one kind.** -/
theorem toList_format_standard (hne : es ≠ []) (hof : ∀ e ∈ es, e.kind = kind) (c : Context) :
    (format kind .standard c es).toList
      = Standard.opening kind c
        ++ (es.flatMap fun e => Standard.openTag kind.elementName ++ ['\n']
          ++ Standard.cells c e.head ++ standardSections (e.record c).embedded
          ++ Standard.closeTag kind.elementName ++ ['\n'])
        ++ Compact.closing kind := by
  rw [toList_format hne hof, ← standardRecords_map]
  rfl

end OneKind

end ListingMetadata
