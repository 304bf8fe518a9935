/-
  ListingMetadata.Proofs.Layout.Builtin
  ─────────────────────────────────────
  **LAYOUTS OF THE BUILT-IN COLUMNS.**

  The built-in columns of a kind have names that differ even without regard to
  case.  So their layout lists them as they are declared, in either mode, and
  the name of a column leads back to the column:

    • `columns_build_of_nodup` — declarations with names of their own,
    • `find?_of_nodup`         — the column of its own name,
    • `columns_builtin`, `find?_builtin` — both for the built-in columns.
-/
import ListingMetadata.Proofs.Layout.Changes
import Mathlib.Data.List.Nodup

namespace ListingMetadata

open Text

/-! ## §1. Columns with names of their own -/

/-- A column whose name is new goes to the end. -/
theorem placeColumn_of_new {strict : Bool} {column : Column} {cs : List Column}
    (h : ∀ c ∈ cs, nameKey strict c.name ≠ nameKey strict column.name) :
    placeColumn strict column cs = cs ++ [column] := by
  rw [← Layout.Change.inColumns_declared]
  apply Layout.Change.inColumns_of_new
  intro hmem
  obtain ⟨c, hc, hkey⟩ := Layout.mem_keysOf.mp hmem
  exact h c hc hkey

namespace Layout

/-- No two columns have the same name in a mode. -/
def NamesDiffer (strict : Bool) (columns : List Column) : Prop :=
  (columns.map fun c => nameKey strict c.name).Nodup

theorem foldl_placeColumn {strict : Bool} {declarations : List Column} :
    ∀ {placed : List Column}, NamesDiffer strict (placed ++ declarations) →
      declarations.foldl (fun cs c => placeColumn strict c cs) placed = placed ++ declarations := by
  -- the columns placed so far grow by one declaration at a time
  induction declarations with
  | nil =>
    intro placed _
    simp
  | cons d ds ih =>
    intro placed h
    have hnew : ∀ c ∈ placed, nameKey strict c.name ≠ nameKey strict d.name := by
      unfold NamesDiffer at h
      rw [List.map_append, List.nodup_append] at h
      intro c hc
      exact h.2.2 _ (List.mem_map.mpr ⟨c, hc, rfl⟩) _ (by simp)
    rw [List.foldl_cons, placeColumn_of_new hnew, ih (by simpa using h)]
    simp

/-- **Declarations with names of their own are listed as they are.** -/
theorem columns_build_of_nodup {kind : Kind} {strict : Bool} {declarations : List Column}
    (h : NamesDiffer strict declarations) :
    (build kind strict declarations).columns = declarations :=
  foldl_placeColumn (by simpa using h)

/-- **The name of a column leads back to it.** -/
theorem find?_of_nodup {l : Layout} (h : NamesDiffer l.strict l.columns) {column : Column}
    (hc : column ∈ l.columns) : l.find? column.name = some column := by
  unfold find?
  unfold NamesDiffer at h
  generalize l.columns = columns at h hc
  induction columns with
  | nil => cases hc
  | cons c cs ih =>
    rw [List.map_cons, List.nodup_cons] at h
    rcases List.mem_cons.mp hc with rfl | hc
    · exact List.find?_cons_of_pos (by simp)
    · have hne : nameKey l.strict c.name ≠ nameKey l.strict column.name := by
        intro heq
        exact h.1 (List.mem_map.mpr ⟨column, hc, heq.symm⟩)
      rw [List.find?_cons_of_neg (by simpa using hne)]
      exact ih h.2 hc

/-! ## §2. The built-in columns -/

theorem namesDiffer_builtin_lenient (kind : Kind) : NamesDiffer false kind.builtinColumns := by
  unfold NamesDiffer nameKey
  cases kind <;> decide +kernel

/-- Names that differ without regard to case differ. -/
theorem NamesDiffer.strict {columns : List Column} (h : NamesDiffer false columns) (strict : Bool) :
    NamesDiffer strict columns := by
  cases strict with
  | false => exact h
  | true =>
    have hnames : (columns.map fun c => lowered c.name)
        = (columns.map Column.name).map lowered := by
      rw [List.map_map]
      rfl
    unfold NamesDiffer at h
    show (columns.map Column.name).Nodup
    exact List.Nodup.of_map lowered (hnames ▸ h)

theorem namesDiffer_builtin (kind : Kind) (strict : Bool) :
    NamesDiffer strict kind.builtinColumns :=
  (namesDiffer_builtin_lenient kind).strict strict

/-- **The built-in layouts list the built-in columns.** -/
theorem columns_builtin (kind : Kind) (strict : Bool) :
    (builtin kind strict).columns = kind.builtinColumns :=
  columns_build_of_nodup (namesDiffer_builtin kind strict)

/-- **A built-in column is found by its name.** -/
theorem find?_builtin {kind : Kind} {column : Column} (h : column ∈ kind.builtinColumns)
    (strict : Bool) : (builtin kind strict).find? column.name = some column := by
  apply find?_of_nodup
  · rw [columns_builtin]
    exact namesDiffer_builtin kind strict
  · rw [columns_builtin]
    exact h

/-- Every name leads to a built-in column, or to none. -/
theorem mem_of_find?_builtin {kind : Kind} {strict : Bool} {name : String} {column : Column}
    (h : (builtin kind strict).find? name = some column) : column ∈ kind.builtinColumns := by
  have hmem : column ∈ (builtin kind strict).columns := List.mem_of_find?_eq_some h
  rw [columns_builtin] at hmem
  exact hmem

end Layout

end ListingMetadata
