/-
  ListingMetadata.Proofs.Entity.Legible
  ─────────────────────────────────────
  **HEADS THAT CAN BE READ BY NAME.**

  A head is legible when its layout compares names in its mode, when no name is kept
  twice, and when texts alone are kept under names that are not declared and, as long as
  no type was replaced, values read as declared under all others.  New heads are, and
  every operation on attributes leaves them so:

    • `legible_fresh`  — a new head, with a layout of its mode,
    • `Edit.frame`     — what an operation on attributes leaves,
    • `Edit.legible`   — that it keeps heads legible,
    • `legible_setAll` — many settings.
-/
import ListingMetadata.Proofs.Entity.Resolved
import ListingMetadata.Proofs.Entity.Attributes
import ListingMetadata.Proofs.Layout.Lookup
import ListingMetadata.Proofs.Text.Named

namespace ListingMetadata

open Text

theorem Text.Named.Sorted.drop {α : Type} {m : Named α} (h : m.Sorted) (name : String) :
    (m.drop name).Sorted :=
  h.filter _

namespace Head

variable {h h' : Head}

/-! ## §1. The property -/

/-- No type of the layout was replaced for this head. -/
def UnchangedTypes (h : Head) : Prop :=
  ∀ serial, h.layout.mark ≠ .changed serial

/-- What is kept can be read by name. -/
structure Legible (h : Head) : Prop where
  /-- The layout tells names apart in the mode of the head. -/
  mode : h.layout.layout.strict = h.strict
  /-- No name is kept twice. -/
  sorted : h.values.Sorted
  /-- What is kept under a name that is not declared is a text. -/
  texts : ∀ name v, h.values.get? name = some v → h.column? name = none → ∃ s, v = .text s
  /-- What is kept under the name of a column was read, in some mode, as its type says. -/
  parsed : h.UnchangedTypes → ∀ name c v, h.column? name = some c →
    h.values.get? c.name = some v → ∃ text strict, c.type.parse text strict = .ok v

/-- A new head is legible. -/
theorem legible_fresh (kind : Kind) {strict : Bool} {layout : SharedLayout}
    (hmode : layout.layout.strict = strict) : (fresh kind strict layout).Legible where
  mode := hmode
  sorted := List.Pairwise.nil
  texts name v hv := by cases hv
  parsed _ name c v _ hv := by cases hv

/-- How far children are resolved does not matter. -/
theorem legible_core_iff : h.core.Legible ↔ h.Legible :=
  ⟨fun hl => ⟨hl.mode, hl.sorted, hl.texts, hl.parsed⟩,
    fun hl => ⟨hl.mode, hl.sorted, hl.texts, hl.parsed⟩⟩

theorem Legible.of_core (hl : h.Legible) (e : h'.core = h.core) : h'.Legible := by
  rw [← legible_core_iff, e, legible_core_iff]
  exact hl

/-- Nor does the place. -/
theorem Legible.placed (hl : h.Legible) (p : Option String) (s : Option Nat) :
    (h.placed p s).Legible :=
  ⟨hl.mode, hl.sorted, hl.texts, hl.parsed⟩

/-! ## §2. Single changes -/

theorem Legible.keep (hl : h.Legible) {name : String} {v : Value}
    (hv : h.column? name = none → ∃ s, v = .text s)
    (hparsed : ∀ c, h.column? name = some c → ∃ text strict, c.type.parse text strict = .ok v) :
    (h.keep name v).Legible where
  mode := hl.mode
  sorted := hl.sorted.put name v
  texts other w hw hother := by
    replace hw : (h.values.put name v).get? other = some w := hw
    by_cases hn : other = name
    · subst hn
      rw [Named.get?_put_self] at hw
      cases hw
      exact hv hother
    · rw [Named.get?_put_of_ne _ _ hn] at hw
      exact hl.texts other w hw hother
  parsed hu other c w hc hw := by
    replace hc : h.column? other = some c := hc
    replace hw : (h.values.put name v).get? c.name = some w := hw
    by_cases hn : c.name = name
    · -- the name under which it is kept leads to the same column
      rw [hn, Named.get?_put_self] at hw
      cases hw
      exact hparsed c (hn ▸ Layout.find?_self hc)
    · rw [Named.get?_put_of_ne _ _ hn] at hw
      exact hl.parsed hu other c w hc hw

theorem Legible.store (hl : h.Legible) {name text : String} {strict : Bool}
    (hs : (h.store name text strict).value = .ok h') : h'.Legible := by
  obtain ⟨column, v, hc, hp, rfl⟩ | ⟨hnone, rfl⟩ := store_cases hs
  · -- the name of a column is declared, by that column
    have hself : h.column? column.name = some column := Layout.find?_self hc
    refine hl.keep (fun hnone => ?_) fun c hc' => ?_
    · rw [hself] at hnone
      cases hnone
    · rw [hself] at hc'
      cases hc'
      exact ⟨text, strict, hp⟩
  · refine hl.keep (fun _ => ⟨text, rfl⟩) fun c hc => ?_
    rw [hnone] at hc
    cases hc

theorem Legible.unset (hl : h.Legible) (name : String) : (h.unset name).Legible where
  mode := hl.mode
  sorted := hl.sorted.drop _
  texts other v hv hother := by
    replace hv : (h.values.drop (h.keptName name)).get? other = some v := hv
    by_cases hn : other = h.keptName name
    · rw [hn, Named.get?_drop_self] at hv
      cases hv
    · rw [Named.get?_drop_of_ne _ hn] at hv
      exact hl.texts other v hv hother
  parsed hu other c v hc hv := by
    replace hv : (h.values.drop (h.keptName name)).get? c.name = some v := hv
    by_cases hn : c.name = h.keptName name
    · rw [hn, Named.get?_drop_self] at hv
      cases hv
    · rw [Named.get?_drop_of_ne _ hn] at hv
      exact hl.parsed hu other c v hc hv

theorem Legible.replaceType (hl : h.Legible) (serial : Nat) (name : String) (type : ValueType) :
    (h.replaceType serial name type).Legible where
  mode := hl.mode
  sorted := hl.sorted
  texts other v hv hother := by
    apply hl.texts other v hv
    -- what is not declared now was not declared before
    have hnot : (h.layout.layout.replaceType name type).declares other = false :=
      Layout.declares_eq_false_iff.mpr hother
    rw [column?, ← Layout.declares_eq_false_iff, ← Bool.not_eq_true]
    intro hbefore
    rw [Layout.declares_replaceType_of_declares type hbefore] at hnot
    cases hnot
  parsed hu := absurd rfl (hu serial)

/-! ## §3. Operations on attributes -/

/-- The second head is what one operation on attributes makes of the first. -/
inductive Edit (h : Head) : Head → Prop where
  | same : Edit h h
  | stored {h' : Head} {name text : String} {strict : Bool}
      (hs : (h.store name text strict).value = .ok h') : Edit h h'
  | unset (name : String) : Edit h (h.unset name)
  | retyped (serial : Nat) (name : String) (type : ValueType) :
      Edit h (h.replaceType serial name type)

theorem edit_set (h : Head) (name text : String) : h.Edit (h.set name text).value := by
  obtain hs | hs := set_cases h name text
  · exact .stored hs
  · rw [hs]
    exact .same

theorem edit_setWith {name text : String} {strict : Bool}
    (hs : (h.setWith name text strict).value = .ok h') : h.Edit h' :=
  .stored (value_setWith h name text strict ▸ hs)

theorem Edit.frame (e : h.Edit h') : h'.frame = h.frame := by
  cases e with
  | same => rfl
  | stored hs => exact frame_store hs
  | unset name => exact frame_unset h name
  | retyped serial name type => exact frame_replaceType h serial name type

/-- **Every operation on attributes keeps a head legible.** -/
theorem Edit.legible (e : h.Edit h') (hl : h.Legible) : h'.Legible := by
  cases e with
  | same => exact hl
  | stored hs => exact hl.store hs
  | unset name => exact hl.unset name
  | retyped serial name type => exact hl.replaceType serial name type

theorem legible_setAll (hl : h.Legible) (pairs : List (String × String)) :
    (h.setAll pairs).value.Legible := by
  unfold setAll
  rw [Logged.value_steps]
  induction pairs generalizing h with
  | nil => exact hl
  | cons p pairs ih => exact ih ((edit_set h p.1 p.2).legible hl)

end Head

end ListingMetadata
