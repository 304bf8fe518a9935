/-
  ListingMetadata.Proofs.Entity.StrictlyRead
  ──────────────────────────────────────────
  **ENTITIES WHOSE VALUES FOLLOW THEIR GRAMMARS.**

  A strict entity with the built-in columns of its kind refuses a text that
  breaks the grammar of its column.  So it holds no declared value but such as
  strict reading gives, whatever attributes are set and removed:

    • `strictlyRead_fresh`        — an entity without attributes,
    • `StrictlyRead.set`, `.unset` — one change,
    • `StrictlyRead.setAll`       — all settings in turn,
    • `strictlyRead_plain_setAll` — an entity made with attributes.
-/
import ListingMetadata.Proofs.Entity.Attributes
import ListingMetadata.Proofs.Layout.Builtin

namespace ListingMetadata.Head

/-- A strict head with the built-in columns, each value of which was read by the
type of its column. -/
structure StrictlyRead (h : Head) : Prop where
  strict : h.strict = true
  layout : h.layout.layout = Layout.builtin h.kind true
  values : ∀ column ∈ h.kind.builtinColumns, ∀ v, h.values.get? column.name = some v →
    ∃ text, column.type.strict text = .ok v

theorem strictlyRead_fresh (kind : Kind) {layout : SharedLayout}
    (hl : layout.layout = Layout.builtin kind true) : (fresh kind true layout).StrictlyRead where
  strict := rfl
  layout := hl
  values column _ v hv := by
    have hnone : (fresh kind true layout).values.get? column.name = none := rfl
    rw [hnone] at hv
    cases hv

namespace StrictlyRead

variable {h : Head}

/-- A name leads to the built-in column of this very name, or to none. -/
theorem column?_eq (hs : h.StrictlyRead) {column : Column} (hc : column ∈ h.kind.builtinColumns) :
    h.column? column.name = some column := by
  show h.layout.layout.find? column.name = some column
  rw [hs.layout]
  exact Layout.find?_builtin hc true

/-- A column that a name leads to is found by its own name too. -/
theorem mem_of_column? (hs : h.StrictlyRead) {name : String} {column : Column}
    (hc : h.column? name = some column) : column ∈ h.kind.builtinColumns := by
  have hfind : h.layout.layout.find? name = some column := hc
  rw [hs.layout] at hfind
  exact Layout.mem_of_find?_builtin hfind

/-- A value of a declared column that its type reads strictly. -/
theorem keep_of_strict (hs : h.StrictlyRead) {column : Column}
    (hc : column ∈ h.kind.builtinColumns) {text : String} {v : Value}
    (hv : column.type.strict text = .ok v) : (h.keep column.name v).StrictlyRead where
  strict := hs.strict
  layout := hs.layout
  values other hother w hw := by
    by_cases hname : other.name = column.name
    · -- columns of one name are one column
      have hsame : some other = some column := by
        rw [← hs.column?_eq hother, hname, hs.column?_eq hc]
      cases hsame
      rw [show (h.keep column.name v).values.get? column.name = some v from
        Text.Named.get?_put_self _ _ _] at hw
      cases hw
      exact ⟨text, hv⟩
    · rw [show (h.keep column.name v).values.get? other.name = h.values.get? other.name from
        Text.Named.get?_put_of_ne _ _ hname] at hw
      exact hs.values other hother w hw

/-- A value under a name that is not declared. -/
theorem keep_of_undeclared (hs : h.StrictlyRead) {name : String} (hn : h.column? name = none)
    (v : Value) : (h.keep name v).StrictlyRead where
  strict := hs.strict
  layout := hs.layout
  values other hother w hw := by
    have hname : other.name ≠ name := by
      intro heq
      have hdeclared := hs.column?_eq hother
      rw [heq, hn] at hdeclared
      cases hdeclared
    rw [show (h.keep name v).values.get? other.name = h.values.get? other.name from
      Text.Named.get?_put_of_ne _ _ hname] at hw
    exact hs.values other hother w hw

theorem store (hs : h.StrictlyRead) {name text : String} {h' : Head}
    (hstore : (h.store name text true).value = .ok h') : h'.StrictlyRead := by
  obtain ⟨column, v, hc, hp, rfl⟩ | ⟨hc, rfl⟩ := store_cases hstore
  · have hread : column.type.strict text = .ok v := by
      unfold ValueType.parse at hp
      cases hstrict : column.type.strict text with
      | ok w =>
        rw [hstrict] at hp
        cases hp
        rfl
      | error reason =>
        rw [hstrict] at hp
        cases hp
    exact hs.keep_of_strict (hs.mem_of_column? hc) hread
  · exact hs.keep_of_undeclared hc _

/-- **A setting keeps what was read strictly, or is refused.** -/
theorem set (hs : h.StrictlyRead) (name text : String) : (h.set name text).value.StrictlyRead := by
  unfold Head.set
  rw [hs.strict]
  simp only [Logged.value_bind, value_setWith]
  cases hstore : (h.store name text true).value with
  | ok h' => exact hs.store hstore
  | error f => exact hs

/-- **So does a removal.** -/
theorem unset (hs : h.StrictlyRead) (name : String) : (h.unset name).StrictlyRead where
  strict := hs.strict
  layout := hs.layout
  values column hc v hv := by
    have hkept : h.values.get? column.name = some v := by
      by_cases hname : column.name = h.keptName name
      · rw [hname, show (h.unset name).values.get? (h.keptName name) = none from
          Text.Named.get?_drop_self _ _] at hv
        cases hv
      · rw [show (h.unset name).values.get? column.name = h.values.get? column.name from
          Text.Named.get?_drop_of_ne _ hname] at hv
        exact hv
    exact hs.values column hc v hkept

theorem setAll (hs : h.StrictlyRead) (pairs : List (String × String)) :
    (h.setAll pairs).value.StrictlyRead := by
  unfold Head.setAll
  rw [Logged.value_steps]
  induction pairs generalizing h with
  | nil => exact hs
  | cons p pairs ih => exact ih (hs.set p.1 p.2)

end StrictlyRead

/-- **A strict entity that was made with attributes**, whichever of them were refused. -/
theorem strictlyRead_plain_setAll (kind : Kind) (pairs : List (String × String)) :
    ((Entity.plain kind true).setAll pairs).value.kind = kind ∧
      ((Entity.plain kind true).setAll pairs).value.head.StrictlyRead := by
  have hframe := frame_setAll (fresh kind true (.builtin kind true)) pairs
  exact ⟨kind_eq_of_frame hframe, (strictlyRead_fresh kind rfl).setAll pairs⟩

end ListingMetadata.Head
