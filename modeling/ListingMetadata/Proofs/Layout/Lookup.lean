/-
  ListingMetadata.Proofs.Layout.Lookup
  ────────────────────────────────────
  **LOOKING UP DECLARATIONS, AND LOOKING THEM UP AFTER A CHANGE.**

  Names of one key lead to one declaration.  A declaration or another type for a name
  changes what the names of its key lead to, and nothing else:

    • `find?_congr`        — names of one key,
    • `find?_self`         — a declaration that is found is found by its own name,
    • `find?_change`       — after a change,
    • `find?_replaceType`  — after a change of type,
    • `declares_replaceType_of_declares` — what is declared stays declared.

  Nothing is assumed of the columns; several of them may have one key.
-/
import ListingMetadata.Layout.Registry

namespace ListingMetadata.Layout

/-! ## §1. Declarations and keys -/

section Keys

variable {l : Layout} {name other : String} {c : Column}

theorem find?_eq_none_iff :
    l.find? name = none ↔ ∀ c ∈ l.columns, nameKey l.strict c.name ≠ nameKey l.strict name := by
  unfold find?
  rw [List.find?_eq_none]
  simp only [decide_eq_true_eq, ne_eq]

theorem key_of_find? (h : l.find? name = some c) :
    nameKey l.strict c.name = nameKey l.strict name :=
  of_decide_eq_true (List.find?_eq_some_iff_append.mp h).1

theorem mem_of_find? (h : l.find? name = some c) : c ∈ l.columns :=
  List.mem_of_find?_eq_some h

theorem exists_find? (hc : c ∈ l.columns)
    (hkey : nameKey l.strict c.name = nameKey l.strict name) : ∃ d, l.find? name = some d := by
  cases h : l.find? name with
  | none => exact absurd hkey (find?_eq_none_iff.mp h c hc)
  | some d => exact ⟨d, rfl⟩

theorem find?_congr (h : nameKey l.strict name = nameKey l.strict other) :
    l.find? name = l.find? other := by
  unfold find?
  rw [h]

/-- A declaration that is found is found by its own name. -/
theorem find?_self (h : l.find? name = some c) : l.find? c.name = some c :=
  (find?_congr (key_of_find? h)).trans h

theorem declares_iff : l.declares name = true ↔ ∃ c, l.find? name = some c :=
  Option.isSome_iff_exists

theorem declares_eq_false_iff : l.declares name = false ↔ l.find? name = none :=
  Option.isSome_eq_false_iff.trans Option.isNone_iff_eq_none

end Keys

/-- The first column decides for the names of its key. -/
theorem find?_cons (kind : Kind) (strict : Bool) (c : Column) (cs : List Column) (name : String) :
    find? ⟨kind, strict, c :: cs⟩ name
      = if nameKey strict c.name = nameKey strict name then some c
        else find? ⟨kind, strict, cs⟩ name := by
  unfold find?
  rw [List.find?_cons]
  by_cases h : nameKey strict c.name = nameKey strict name
  · simp only [h, decide_true, if_true]
  · simp only [h, decide_false, if_false]

/-! ## §2. Changes -/

/-- What changes a layout at one name. -/
inductive Change where
  | declared (column : Column)
  | retyped (name : String) (type : ValueType)

namespace Change

/-- The name at which the change is. -/
def name : Change → String
  | declared column => column.name
  | retyped name _ => name

/-- What becomes of the column of the name. -/
def on : Change → Column → Column
  | declared column, _ => column
  | retyped _ type, c => { c with type := type }

/-- The column that the name has if it had none. -/
def new : Change → Column
  | declared column => column
  | retyped name type => Column.optional name type

/-- The first column of the name's key changed, or else a new column at the end. -/
def inColumns (strict : Bool) (ch : Change) : List Column → List Column
  | [] => [ch.new]
  | c :: cs =>
    if nameKey strict c.name = nameKey strict ch.name then ch.on c :: cs
    else c :: inColumns strict ch cs

theorem name_new (ch : Change) : ch.new.name = ch.name := by
  cases ch <;> rfl

/-- The column of the name stays one of its key. -/
theorem key_on {strict : Bool} {ch : Change} {c : Column}
    (h : nameKey strict c.name = nameKey strict ch.name) :
    nameKey strict (ch.on c).name = nameKey strict ch.name := by
  cases ch with
  | declared column => rfl
  | retyped name type => exact h

theorem inColumns_declared (strict : Bool) (column : Column) (cs : List Column) :
    (declared column).inColumns strict cs = placeColumn strict column cs := by
  induction cs with
  | nil => rfl
  | cons c cs ih =>
    unfold inColumns placeColumn
    rw [ih]
    rfl

theorem inColumns_retyped (strict : Bool) (name : String) (type : ValueType) (cs : List Column) :
    (retyped name type).inColumns strict cs = retype strict name type cs := by
  induction cs with
  | nil => rfl
  | cons c cs ih =>
    unfold inColumns retype
    rw [ih]
    rfl

end Change

/-- The layout after a change. -/
def change (l : Layout) (ch : Change) : Layout :=
  { l with columns := ch.inColumns l.strict l.columns }

theorem replaceType_eq_change (l : Layout) (name : String) (type : ValueType) :
    l.replaceType name type = l.change (.retyped name type) := by
  unfold replaceType change
  rw [Change.inColumns_retyped]

/-- **A change reaches the names of its key, and no other.** -/
theorem find?_change (l : Layout) (ch : Change) (other : String) :
    (l.change ch).find? other
      = if nameKey l.strict other = nameKey l.strict ch.name
        then some (((l.find? other).map ch.on).getD ch.new) else l.find? other := by
  obtain ⟨kind, strict, cs⟩ := l
  induction cs with
  | nil =>
    show find? ⟨kind, strict, [ch.new]⟩ other = _
    rw [find?_cons, ch.name_new]
    by_cases h : nameKey strict other = nameKey strict ch.name
    · rw [if_pos h, if_pos h.symm]
      rfl
    · rw [if_neg h, if_neg (Ne.symm h)]
  | cons c cs ih =>
    rw [find?_cons]
    show find? ⟨kind, strict, ch.inColumns strict (c :: cs)⟩ other = _
    unfold Change.inColumns
    by_cases hc : nameKey strict c.name = nameKey strict ch.name
    · -- the first column of the name is the one that changes
      rw [if_pos hc, find?_cons, Change.key_on hc, hc]
      by_cases h : nameKey strict other = nameKey strict ch.name
      · rw [if_pos h, if_pos h.symm, if_pos h.symm]
        rfl
      · rw [if_neg h, if_neg (Ne.symm h), if_neg (Ne.symm h)]
    · rw [if_neg hc, find?_cons]
      by_cases hco : nameKey strict c.name = nameKey strict other
      · have hne : nameKey strict other ≠ nameKey strict ch.name := fun he => hc (hco.trans he)
        rw [if_pos hco, if_pos hco, if_neg hne]
      · rw [if_neg hco, if_neg hco]
        exact ih

/-! ## §3. Another type for a name -/

/-- What a name leads to once another type is given to it. -/
def retyped (l : Layout) (name : String) (type : ValueType) : Column :=
  match l.find? name with
  | some c => { c with type := type }
  | none => Column.optional name type

/-- **Another type for a name reaches the names of its key, and no other.** -/
theorem find?_replaceType (l : Layout) (name : String) (type : ValueType) (other : String) :
    (l.replaceType name type).find? other
      = if nameKey l.strict other = nameKey l.strict name then some (l.retyped name type)
        else l.find? other := by
  rw [replaceType_eq_change, find?_change]
  by_cases h : nameKey l.strict other = nameKey l.strict name
  · have hretyped : ((l.find? name).map (Change.retyped name type).on).getD
        (Change.retyped name type).new = l.retyped name type := by
      unfold retyped
      cases l.find? name <;> rfl
    rw [if_pos h, find?_congr h, hretyped]
    exact if_pos h
  · rw [if_neg h]
    exact if_neg h

/-- The declaration has the name that it had, or is a new one of this name. -/
theorem name_retyped (l : Layout) (name : String) (type : ValueType) :
    (l.retyped name type).name = ((l.find? name).map Column.name).getD name := by
  unfold retyped
  cases l.find? name <;> rfl

theorem declares_replaceType_of_declares {l : Layout} {name other : String} (type : ValueType)
    (h : l.declares other = true) :
    (l.replaceType name type).declares other = true := by
  obtain ⟨c, hc⟩ := declares_iff.mp h
  rw [declares_iff, find?_replaceType]
  split
  · exact ⟨_, rfl⟩
  · exact ⟨c, hc⟩

end ListingMetadata.Layout
