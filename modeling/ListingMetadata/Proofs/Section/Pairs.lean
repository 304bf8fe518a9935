/-
  ListingMetadata.Proofs.Section.Pairs
  ────────────────────────────────────
  **WHEN BOTH FORMS SHOW THE SAME CELLS.**

  The compact form takes the columns of a section from its first entity, the
  XML form takes them from each entity.  Both show an entity as pairs of a
  column name and a cell.  These agree as long as the entity has the columns of
  the first by name, and falls back to the same text where it has none:

    • `rows_of_table`, `cells_of_elements` — the pairs in either form,
    • `compact_shows_standard_iff`         — when they agree.
-/
import ListingMetadata.Proofs.Section.Cells
import ListingMetadata.Proofs.Section.Escapes

namespace ListingMetadata

/-! ## §1. The pairs of the compact form -/

namespace Compact

/-- A line of names and a line for each row of cells. -/
def tableOf (names : List String) (rows : List (List String)) : List Char :=
  line "COLUMNS" names ++ rows.flatMap (line "DATA")

/-- The names of the columns. -/
def names (heads : List Head) : List String :=
  (columnsOf heads).map Column.name

/-- The cells of an entity. -/
def row (c : Context) (heads : List Head) (h : Head) : List String :=
  (columnsOf heads).map (c.cell h)

/-- The pairs of a name and the cell below it. -/
def pairs (c : Context) (heads : List Head) (h : Head) : List (String × String) :=
  (names heads).zip (row c heads h)

theorem rows_of_table {kind : Kind} (hk : kind ≠ .system) (c : Context) (heads : List Head) :
    rows kind c heads = tableOf (names heads) (heads.map (row c heads)) := by
  unfold rows
  rw [if_neg hk]
  show line "COLUMNS" (names heads) ++ heads.flatMap (fun h => line "DATA" (row c heads h)) = _
  unfold tableOf
  rw [List.flatMap_map]

theorem pairs_eq (c : Context) (heads : List Head) (h : Head) :
    pairs c heads h = (columnsOf heads).map fun column => (column.name, c.cell h column) :=
  List.zip_map'

end Compact

/-! ## §2. The pairs of the XML form -/

namespace Standard

/-- The element of a name around an escaped text. -/
def element (name : String) (content : List Char) : List Char :=
  openTag name ++ content ++ closeTag name ++ ['\n']

/-- The names of an entity's elements with what stands in them. -/
def contents (c : Context) (h : Head) : List (String × List Char) :=
  h.layout.layout.columns.map fun column => (column.name, escaped (c.cell h column))

/-- The pairs of a name and the text that is read from its element. -/
def pairs (c : Context) (h : Head) : List (String × String) :=
  (contents c h).map fun (name, content) => (name, String.ofList (unescaped content))

theorem cells_of_elements (c : Context) (h : Head) :
    cells c h = (contents c h).flatMap fun (name, content) => element name content := by
  unfold contents
  rw [List.flatMap_map]
  rfl

theorem pairs_eq (c : Context) (h : Head) :
    pairs c h = h.layout.layout.columns.map fun column => (column.name, c.cell h column) := by
  unfold pairs contents
  rw [List.map_map]
  apply List.map_congr_left
  intro column _
  show (column.name, String.ofList (unescaped (escaped (c.cell h column)))) = _
  rw [unescaped_escaped]

end Standard

/-! ## §3. When they agree -/

/-- Two columns show the same pair for an entity: they have one name, and where
the entity has no text under it they fall back to the same. -/
structure Context.Interchangeable (c : Context) (h : Head) (a b : Column) : Prop where
  name : a.name = b.name
  fallback : h.text? a.name = none → c.fallback a.stamp = c.fallback b.stamp

theorem Context.interchangeable_iff {c : Context} {h : Head} {a b : Column} :
    c.Interchangeable h a b ↔ (a.name, c.cell h a) = (b.name, c.cell h b) := by
  rw [Prod.mk.injEq, c.cell_eq, c.cell_eq]
  constructor
  · rintro ⟨hname, hfallback⟩
    refine ⟨hname, ?_⟩
    rw [← hname]
    cases ht : h.text? a.name with
    | some text => rfl
    | none => exact hfallback ht
  · rintro ⟨hname, hcell⟩
    refine ⟨hname, fun ht => ?_⟩
    rw [← hname, ht] at hcell
    exact hcell

instance (c : Context) (h : Head) (a b : Column) : Decidable (c.Interchangeable h a b) :=
  decidable_of_iff _ Context.interchangeable_iff.symm

/-- Lists that give the same under two functions, element by element. -/
theorem map_eq_map_iff_forall₂ {α β γ : Type} {f : α → γ} {g : β → γ} {xs : List α}
    {ys : List β} : xs.map f = ys.map g ↔ List.Forall₂ (fun x y => f x = g y) xs ys := by
  rw [← List.forall₂_eq_eq_eq, List.forall₂_map_left_iff, List.forall₂_map_right_iff]

/-- **The compact form shows the pairs of the XML form exactly when each entity
has the columns of the first, in their order, or such as show the same for it.**
The pairs are those of the text: the names of the first line of the table with
the cells of the entity's line, and the names of the entity's elements with the
texts that are read from them. -/
theorem compact_shows_standard_iff {kind : Kind} (hk : kind ≠ .system) (c : Context)
    {es : List Entity} (hof : ∀ e ∈ es, e.kind = kind) :
    (es ≠ [] →
      (format kind .compact c es).toList
        = Compact.opening kind c
          ++ Compact.tableOf (Compact.names (es.map Entity.head))
            (es.map fun e => Compact.row c (es.map Entity.head) e.head)
          ++ compactEmbedded (es.map fun e => e.record c) ++ Compact.closing kind ∧
      (format kind .standard c es).toList
        = Standard.opening kind c
          ++ (es.flatMap fun e => Standard.openTag kind.elementName ++ ['\n']
            ++ ((Standard.contents c e.head).flatMap fun (name, content) =>
              Standard.element name content)
            ++ standardSections (e.record c).embedded ++ Standard.closeTag kind.elementName
            ++ ['\n'])
          ++ Compact.closing kind) ∧
    ((∀ e ∈ es, Compact.pairs c (es.map Entity.head) e.head = Standard.pairs c e.head) ↔
      ∀ e ∈ es, List.Forall₂ (c.Interchangeable e.head) (Compact.columnsOf (es.map Entity.head))
        e.head.layout.layout.columns) := by
  constructor
  · intro hne
    constructor
    · rw [toList_format_compact hne hof, Compact.rows_of_table hk, List.map_map]
      rfl
    · rw [toList_format_standard hne hof]
      simp only [Standard.cells_of_elements]
  · have hpair : ∀ e : Entity,
        Compact.pairs c (es.map Entity.head) e.head = Standard.pairs c e.head ↔
          List.Forall₂ (c.Interchangeable e.head) (Compact.columnsOf (es.map Entity.head))
            e.head.layout.layout.columns := by
      intro e
      rw [Compact.pairs_eq, Standard.pairs_eq, map_eq_map_iff_forall₂]
      -- equal pairs, column by column
      have hcolumn : (fun a b => (a.name, c.cell e.head a) = (b.name, c.cell e.head b))
          = c.Interchangeable e.head := by
        funext a b
        exact propext Context.interchangeable_iff.symm
      rw [hcolumn]
    constructor
    · intro h e he
      exact (hpair e).mp (h e he)
    · intro h e he
      exact (hpair e).mpr (h e he)

/-! ## §4. A declaration that changes between two entities -/

/-- A registry after the value of edit masks was declared anew, as falling back
to the version. -/
def restamped : Registry :=
  ((Registry.fresh 0).update .editMask
    ⟨"Value", Catalog.text256, true, some .version⟩).invalidateAll

/-- An edit mask from before, with a value. -/
def earlierMask : Entity :=
  ((Entity.fresh .editMask false ((Registry.fresh 0).layout .editMask false).1).setAll
    [("EditMaskID", "PHONE"), ("Value", "[0-9]{8}")]).value

/-- An edit mask from afterwards. -/
def laterMask (pairs : List (String × String)) : Entity :=
  ((Entity.fresh .editMask false (restamped.layout .editMask false).1).setAll pairs).value

/-- The version and date of an output. -/
def summerOutput : Context :=
  Context.fresh "1.00.001" ⟨1058898584, 0⟩

/-- With a value of its own the later mask shows the same in both forms. -/
theorem valuedMask_shows_the_same :
    Kind.editMask ≠ .system ∧
      (∀ e ∈ [earlierMask, laterMask [("EditMaskID", "ZIP"), ("Value", "[0-9]{5}")]],
        e.kind = .editMask) ∧
      ∀ e ∈ [earlierMask, laterMask [("EditMaskID", "ZIP"), ("Value", "[0-9]{5}")]],
        Compact.pairs summerOutput
            ([earlierMask, laterMask [("EditMaskID", "ZIP"), ("Value", "[0-9]{5}")]].map Entity.head)
            e.head
          = Standard.pairs summerOutput e.head := by
  have hkind : Kind.editMask ≠ .system := by decide
  have hof : ∀ e ∈ [earlierMask, laterMask [("EditMaskID", "ZIP"), ("Value", "[0-9]{5}")]],
      e.kind = .editMask := by decide +kernel
  exact ⟨hkind, hof, (compact_shows_standard_iff hkind summerOutput hof).2.mpr (by decide +kernel)⟩

/-- **Without one the XML form shows the version, and the compact form nothing.** -/
theorem unvaluedMask_shows_two_values :
    ¬ ∀ e ∈ [earlierMask, laterMask [("EditMaskID", "ZIP")]],
      Compact.pairs summerOutput
          ([earlierMask, laterMask [("EditMaskID", "ZIP")]].map Entity.head) e.head
        = Standard.pairs summerOutput e.head := by
  decide +kernel

end ListingMetadata
