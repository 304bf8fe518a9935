/-
  ListingMetadata.Proofs.Entity.Rereading
  ───────────────────────────────────────
  **ATTRIBUTES THAT ARE WRITTEN AND READ AGAIN.**

  What the attributes of an entity are read from, it can be read from again:
  the canonical texts on the wire lead to the same values, in either mode.

    • `ValueType.parse_render_of_parse` — one value,
    • `FromWire.setAll`                 — what is kept, under which names,
    • `FromWire.wire_eq`                — the wire is the values, rendered,
    • `ofWire_wire`                     — the whole head.

  Dates must have a year of four digits in universal time; others are rendered
  as texts that are read as no date.
-/
import ListingMetadata.Document.Build
import ListingMetadata.Proofs.Entity.Attributes
import ListingMetadata.Proofs.Layout.Builtin
import ListingMetadata.Proofs.Text.Named
import ListingMetadata.Proofs.Value.DateRoundTrip
import ListingMetadata.Proofs.Value.RoundTrip

namespace ListingMetadata

open Calendar Text

/-! ## §1. One value -/

/-- A value other than a date of less or more than four digits in the year. -/
def Value.IsPlain : Value → Prop
  | .date d => d.HasPlainYear
  | _ => True

instance : DecidablePred Value.IsPlain
  | .date _ => inferInstanceAs (Decidable (_ ∧ _))
  | .text _ => inferInstanceAs (Decidable True)
  | .int _ => inferInstanceAs (Decidable True)
  | .bool _ => inferInstanceAs (Decidable True)

namespace ValueType

variable {t : ValueType} {text : String} {v : Value}

/-- What is read for a date is one, or a text that lenient reading keeps. -/
theorem date_or_kept (hg : t.grammar = .date) {mode : Bool} (h : t.parse text mode = .ok v) :
    (∃ d, v = .date d) ∨ v = .text text := by
  unfold parse at h
  cases hs : t.strict text with
  | ok w =>
    rw [hs] at h
    cases h
    obtain ⟨d, hd, -⟩ := exists_of_strict_date hg hs
    exact .inl ⟨d, hd⟩
  | error r =>
    rw [hs] at h
    cases mode with
    | true => cases h
    | false =>
      have hv : t.lenient text = v := Except.ok.inj h
      unfold lenient at hv
      rw [coerce?_date hg] at hv
      cases hread : readAnyDate? (trimmed text) with
      | some d =>
        rw [hread] at hv
        exact .inl ⟨d, hv.symm⟩
      | none =>
        rw [hread] at hv
        exact .inr hv.symm

/-- A plain value that a mode reads is read back from its rendering. -/
theorem parse_render_of_parse {mode : Bool} (h : t.parse text mode = .ok v) (hv : v.IsPlain) :
    t.parse (t.render v) mode = .ok v := by
  by_cases hg : t.grammar = .date
  · obtain ⟨d, rfl⟩ | rfl := date_or_kept hg h
    · exact parse_render_of_plainYear hg (nanos_of_parse hg h) hv mode
    · exact h
  · obtain hs | rfl := strict_render_or_kept hg h
    · exact parse_of_strict hs mode
    · exact h

end ValueType

namespace Head

/-! ## §2. One setting -/

theorem set_of_store {h h' : Head} {name text : String}
    (hs : (h.store name text h.strict).value = .ok h') : (h.set name text).value = h' := by
  unfold set
  simp only [Logged.value_bind, value_setWith, hs]
  rfl

theorem store_of_column {h : Head} {name text : String} {column : Column} {v : Value}
    {strict : Bool} (hc : h.column? name = some column)
    (hp : column.type.parse text strict = .ok v) :
    (h.store name text strict).value = .ok (h.keep column.name v) := by
  unfold store
  rw [hc]
  simp only [Logged.value_bind, ValueType.value_read, hp]
  rfl

theorem store_of_undeclared {h : Head} {name : String} (hc : h.column? name = none)
    (text : String) (strict : Bool) :
    (h.store name text strict).value = .ok (h.keep name (.text text)) := by
  unfold store
  rw [hc]
  by_cases hx : isExtension name = true
  · simp only [hx, if_true]
    rfl
  · simp only [hx]
    rfl

/-! ## §3. Heads from the wire -/

/-- A value that a head can have read under a name: one that the column of this
very name reads, or a text under a name that is not declared. -/
inductive Read (h : Head) : String → Value → Prop where
  | declared {column : Column} {text : String} {v : Value} :
      column ∈ h.kind.builtinColumns → column.type.parse text h.strict = .ok v →
        Read h column.name v
  | undeclared {name : String} (text : String) :
      h.column? name = none → Read h name (.text text)

/-- A head with the built-in columns that keeps nothing but what it can have read,
sorted by name. -/
structure FromWire (h : Head) : Prop where
  layout : h.layout = SharedLayout.builtin h.kind h.strict
  sorted : h.values.Sorted
  values : ∀ name v, h.values.get? name = some v → h.Read name v

theorem fromWire_fresh (kind : Kind) (strict : Bool) :
    (fresh kind strict (SharedLayout.builtin kind strict)).FromWire where
  layout := rfl
  sorted := List.Pairwise.nil
  values name v hv := by cases hv

namespace FromWire

variable {h : Head}

/-- A built-in column is found by its name. -/
theorem column?_eq (hw : h.FromWire) {column : Column} (hc : column ∈ h.kind.builtinColumns) :
    h.column? column.name = some column := by
  show h.layout.layout.find? column.name = some column
  rw [hw.layout]
  exact Layout.find?_builtin hc h.strict

theorem mem_of_column? (hw : h.FromWire) {name : String} {column : Column}
    (hc : h.column? name = some column) : column ∈ h.kind.builtinColumns := by
  have hfind : h.layout.layout.find? name = some column := hc
  rw [hw.layout] at hfind
  exact Layout.mem_of_find?_builtin hfind

theorem keep (hw : h.FromWire) {name : String} {v : Value} (hr : h.Read name v) :
    (h.keep name v).FromWire where
  layout := hw.layout
  sorted := hw.sorted.put name v
  values other w hv := by
    -- what can be read does not depend on the values kept so far
    suffices h.Read other w by
      cases this with
      | declared hc hp => exact .declared hc hp
      | undeclared text hc => exact .undeclared text hc
    by_cases hn : other = name
    · subst hn
      rw [show (h.keep other v).values.get? other = some v from Named.get?_put_self _ _ _] at hv
      cases hv
      exact hr
    · rw [show (h.keep name v).values.get? other = h.values.get? other from
        Named.get?_put_of_ne _ _ hn] at hv
      exact hw.values other w hv

theorem set (hw : h.FromWire) (name text : String) : (h.set name text).value.FromWire := by
  obtain hs | hs := set_cases h name text
  · obtain ⟨column, v, hc, hp, he⟩ | ⟨hc, he⟩ := store_cases hs
    · rw [he]
      exact hw.keep (.declared (hw.mem_of_column? hc) hp)
    · rw [he]
      exact hw.keep (.undeclared text hc)
  · rw [hs]
    exact hw

/-- **Settings keep what is read under the names it is read for.** -/
theorem setAll (hw : h.FromWire) (pairs : List (String × String)) :
    (h.setAll pairs).value.FromWire := by
  unfold Head.setAll
  rw [Logged.value_steps]
  induction pairs generalizing h with
  | nil => exact hw
  | cons p pairs ih => exact ih (hw.set p.1 p.2)

end FromWire

/-! ## §4. The wire -/

/-- The text on the wire of a value that is kept under a name. -/
def wireText (h : Head) (name : String) (v : Value) : String :=
  match h.column? name with
  | some column => column.type.render v
  | none => v.labelled

/-- The text of a value that is kept under a name, if the name is not declared. -/
def extraText? (h : Head) (name : String) (v : Value) : Option String :=
  if h.layout.layout.declares name then none else v.text?

theorem extras_eq (h : Head) :
    h.extras = h.values.filterMap fun (name, v) =>
      (h.extraText? name v).map fun s => (name, s) := by
  unfold extras
  apply List.filterMap_congr
  rintro ⟨name, v⟩ -
  show (if h.layout.layout.declares name then none else v.text?.map fun s => (name, s))
    = (if h.layout.layout.declares name then none else v.text?).map fun s => (name, s)
  split <;> rfl

namespace FromWire

variable {h : Head}

theorem knownNames_eq (hw : h.FromWire) :
    h.knownNames = h.kind.builtinColumns.map Column.name := by
  show h.layout.layout.columns.map Column.name = _
  rw [hw.layout]
  show (Layout.builtin h.kind h.strict).columns.map Column.name = _
  rw [Layout.columns_builtin]

theorem mem_knownNames_iff (hw : h.FromWire) {name : String} :
    name ∈ h.knownNames ↔ ∃ column ∈ h.kind.builtinColumns, column.name = name := by
  rw [hw.knownNames_eq, List.mem_map]

theorem nodup_knownNames (hw : h.FromWire) : h.knownNames.Nodup := by
  rw [hw.knownNames_eq]
  exact Layout.namesDiffer_builtin h.kind true

theorem declares_of_mem_knownNames (hw : h.FromWire) {name : String} (hn : name ∈ h.knownNames) :
    h.layout.layout.declares name = true := by
  obtain ⟨column, hc, rfl⟩ := hw.mem_knownNames_iff.mp hn
  show (h.column? column.name).isSome = true
  rw [hw.column?_eq hc]
  rfl

theorem get?_extras (hw : h.FromWire) (name : String) :
    Named.get? h.extras name = (h.values.get? name).bind (h.extraText? name) := by
  rw [extras_eq, Named.get?_filterMap hw.sorted.nodup]

/-- The declared texts and the undeclared ones are under different names. -/
theorem nodup_wire (hw : h.FromWire) :
    (((h.knownNames.filterMap fun n => (h.text? n).map fun s => (n, s)) ++ h.extras).map
      Prod.fst).Nodup := by
  have hknown := Named.map_fst_filterMap_names_sublist h.text? h.knownNames
  have hextras : (h.extras.map Prod.fst).Sublist (h.values.map Prod.fst) := by
    rw [extras_eq]
    exact Named.map_fst_filterMap_sublist h.extraText? h.values
  rw [List.map_append, List.nodup_append]
  refine ⟨hw.nodup_knownNames.sublist hknown, hw.sorted.nodup.sublist hextras, ?_⟩
  rintro name hn _ he rfl
  have hdeclared := hw.declares_of_mem_knownNames (hknown.subset hn)
  refine Named.get?_eq_none_iff.mp ?_ he
  rw [hw.get?_extras]
  simp [extraText?, hdeclared]

/-- **The wire is the values, rendered.** -/
theorem wire_eq (hw : h.FromWire) :
    h.wire = h.values.map fun (name, v) => (name, h.wireText name v) := by
  refine (Named.sorted_ofPairs _).ext (hw.sorted.map _) fun name => ?_
  rw [Named.get?_ofPairs hw.nodup_wire, Named.get?_append, Named.get?_map h.wireText,
    Named.get?_filterMap_names, hw.get?_extras]
  by_cases hn : name ∈ h.knownNames
  · have hdeclared := hw.declares_of_mem_knownNames hn
    rw [if_pos hn]
    obtain ⟨column, hc, rfl⟩ := hw.mem_knownNames_iff.mp hn
    have hcolumn := hw.column?_eq hc
    cases hv : h.values.get? column.name with
    | none => simp [text?, hcolumn, hv]
    | some v => simp [text?, wireText, hcolumn, hv, extraText?, hdeclared]
  · rw [if_neg hn]
    cases hv : h.values.get? name with
    | none => rfl
    | some v =>
      -- a value under a name that is no column's is an undeclared text
      cases hw.values name v hv with
      | declared hc _ => exact absurd (hw.mem_knownNames_iff.mpr ⟨_, hc, rfl⟩) hn
      | undeclared text hc =>
        have hdeclares : h.layout.layout.declares name = false := by
          show (h.column? name).isSome = false
          rw [hc]
          rfl
        simp [wireText, hc, extraText?, hdeclares, Value.text?, Value.labelled]

end FromWire

/-! ## §5. Reading the wire again -/

/-- No date of the head has a year of less or more than four digits. -/
def PlainDates (h : Head) : Prop :=
  ∀ e ∈ h.values, e.2.IsPlain

instance (h : Head) : Decidable h.PlainDates :=
  inferInstanceAs (Decidable (∀ e ∈ h.values, e.2.IsPlain))

/-- Settings that each keep one value keep all of them. -/
theorem setAll_of_sets {g : Head} (text : String → Value → String) (pairs : Named Value)
    (hset : ∀ name v, (name, v) ∈ pairs → ∀ values : Named Value,
      (({ g with values } : Head).set name (text name v)).value
        = { g with values := values.put name v }) (values : Named Value) :
    (({ g with values } : Head).setAll (pairs.map fun (name, v) => (name, text name v))).value
      = { g with values := pairs.foldl (fun m (name, v) => m.put name v) values } := by
  induction pairs generalizing values with
  | nil => rfl
  | cons e pairs ih =>
    obtain ⟨name, v⟩ := e
    show (Head.setAll (({ g with values } : Head).set name (text name v)).value _).value = _
    rw [hset name v List.mem_cons_self]
    exact ih (fun n w hm => hset n w (List.mem_cons_of_mem _ hm)) (values.put name v)

/-- A value that is set by its text on the wire is kept. -/
theorem set_wireText {h : Head} (hw : h.FromWire) (hd : h.PlainDates) {name : String} {v : Value}
    (hm : (name, v) ∈ h.values) (values : Named Value) :
    (({ h with values } : Head).set name (h.wireText name v)).value
      = { h with values := values.put name v } := by
  have hplain : v.IsPlain := hd _ hm
  apply set_of_store
  cases hw.values name v ((Named.get?_eq_some_iff hw.sorted.nodup).mpr hm) with
  | @declared column text _ hc hp =>
    have hcolumn := hw.column?_eq hc
    have hback := ValueType.parse_render_of_parse hp hplain
    rw [wireText, hcolumn]
    exact store_of_column hcolumn hback
  | undeclared text hc =>
    rw [wireText, hc]
    exact store_of_undeclared (h := { h with values }) hc text h.strict

/-- **Attributes that were read are read again from their wire.** -/
theorem ofWire_wire {strict : Bool} {kind : Kind} {attributes : Named String}
    (hd : (ofWire strict kind attributes).value.PlainDates) :
    (ofWire strict kind (ofWire strict kind attributes).value.wire).value
      = (ofWire strict kind attributes).value := by
  have hw : (ofWire strict kind attributes).value.FromWire :=
    (fromWire_fresh kind strict).setAll attributes
  have hframe : (ofWire strict kind attributes).value.frame
      = (kind, strict, none, freshSlots kind, none) := frame_setAll _ _
  generalize (ofWire strict kind attributes).value = h at hd hw hframe
  -- the fresh head is the head without its values
  have hfresh : fresh kind strict (SharedLayout.builtin kind strict) = { h with values := [] } := by
    obtain ⟨k, s, p, l, vs, slots, source⟩ := h
    simp only [frame, Prod.mk.injEq] at hframe
    obtain ⟨rfl, rfl, rfl, rfl, rfl⟩ := hframe
    have hlayout : l = SharedLayout.builtin k s := hw.layout
    subst hlayout
    rfl
  have hvalues : Named.ofPairs h.values = h.values := hw.sorted.ofPairs_eq
  rw [ofWire, hfresh, hw.wire_eq]
  have hset := setAll_of_sets h.wireText h.values (fun name v hm => set_wireText hw hd hm) []
  rw [hset, ← Named.ofPairs, hvalues]

end Head

end ListingMetadata
