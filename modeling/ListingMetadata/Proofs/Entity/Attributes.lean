/-
  ListingMetadata.Proofs.Entity.Attributes
  ────────────────────────────────────────
  **ATTRIBUTES LEAVE THE PLACE OF AN ENTITY ALONE.**

  Setting and removing attributes and replacing their types change what an
  entity holds on its own.  Its kind, mode, place, source and progress stay.
-/
import ListingMetadata.Entity.Basic

namespace ListingMetadata

namespace Head

/-! ## §1. The frame of a head -/

/-- All of a head that attributes have no part in. -/
def frame (h : Head) : Kind × Bool × Option String × List (Kind × Progress) × Option Nat :=
  (h.kind, h.strict, h.parentPath, h.slots, h.source)

theorem kind_eq_of_frame {h h' : Head} (e : h.frame = h'.frame) : h.kind = h'.kind :=
  (Prod.mk.injEq .. ▸ e).1

theorem parentPath_eq_of_frame {h h' : Head} (e : h.frame = h'.frame) :
    h.parentPath = h'.parentPath := by
  unfold frame at e
  simp only [Prod.mk.injEq] at e
  exact e.2.2.1

theorem slots_eq_of_frame {h h' : Head} (e : h.frame = h'.frame) : h.slots = h'.slots := by
  unfold frame at e
  simp only [Prod.mk.injEq] at e
  exact e.2.2.2.1

theorem source_eq_of_frame {h h' : Head} (e : h.frame = h'.frame) : h.source = h'.source := by
  unfold frame at e
  simp only [Prod.mk.injEq] at e
  exact e.2.2.2.2

theorem progress?_eq_of_frame {h h' : Head} (e : h.frame = h'.frame) (k : Kind) :
    h.progress? k = h'.progress? k := by
  unfold progress?
  rw [slots_eq_of_frame e]

/-! ## §2. Operations on attributes -/

theorem frame_unset (h : Head) (name : String) : (h.unset name).frame = h.frame := rfl

theorem frame_replaceType (h : Head) (serial : Nat) (name : String) (type : ValueType) :
    (h.replaceType serial name type).frame = h.frame := rfl

/-- What a setting does that is not refused: under a declared name it keeps the value
that is read, under any other the text. -/
theorem store_cases {h h' : Head} {name text : String} {strict : Bool}
    (hs : (h.store name text strict).value = .ok h') :
    (∃ column v, h.column? name = some column ∧ column.type.parse text strict = .ok v
      ∧ h' = h.keep column.name v) ∨
    (h.column? name = none ∧ h' = h.keep name (.text text)) := by
  unfold store at hs
  cases hc : h.column? name with
  | some column =>
    rw [hc] at hs
    simp only [Logged.value_bind, ValueType.value_read] at hs
    cases hp : column.type.parse text strict with
    | ok v =>
      rw [hp] at hs
      exact .inl ⟨column, v, rfl, hp, (Except.ok.inj hs).symm⟩
    | error f =>
      rw [hp] at hs
      cases hs
  | none =>
    rw [hc] at hs
    refine .inr ⟨rfl, ?_⟩
    by_cases hx : isExtension name = true
    · simp only [hx, if_true] at hs
      exact (Except.ok.inj hs).symm
    · simp only [hx] at hs
      exact (Except.ok.inj hs).symm

theorem frame_store {h h' : Head} {name text : String} {strict : Bool}
    (hs : (h.store name text strict).value = .ok h') : h'.frame = h.frame := by
  obtain ⟨column, v, -, -, rfl⟩ | ⟨-, rfl⟩ := store_cases hs
  · rfl
  · rfl

theorem value_setWith (h : Head) (name text : String) (strict : Bool) :
    (h.setWith name text strict).value = (h.store name text strict).value := by
  unfold setWith
  simp only [Logged.value_bind]
  cases (h.store name text strict).value with
  | ok h' => rfl
  | error f => rfl

/-- A setting keeps one value, or nothing. -/
theorem set_cases (h : Head) (name text : String) :
    (h.store name text h.strict).value = .ok (h.set name text).value
      ∨ (h.set name text).value = h := by
  unfold set
  simp only [Logged.value_bind, value_setWith]
  cases (h.store name text h.strict).value with
  | ok h' => exact .inl rfl
  | error f => exact .inr rfl

theorem frame_set (h : Head) (name text : String) : (h.set name text).value.frame = h.frame := by
  obtain hs | hs := set_cases h name text
  · exact frame_store hs
  · rw [hs]

theorem frame_setAll (h : Head) (pairs : List (String × String)) :
    (h.setAll pairs).value.frame = h.frame := by
  unfold setAll
  rw [Logged.value_steps]
  induction pairs generalizing h with
  | nil => rfl
  | cons p pairs ih => exact (ih _).trans (frame_set h p.1 p.2)

/-- Setting attributes declares no names. -/
theorem layout_set (h : Head) (name text : String) :
    (h.set name text).value.layout = h.layout := by
  obtain hs | hs := set_cases h name text
  · obtain ⟨column, v, -, -, hkeep⟩ | ⟨-, hkeep⟩ := store_cases hs
    · rw [hkeep]
      rfl
    · rw [hkeep]
      rfl
  · rw [hs]

theorem layout_setAll (h : Head) (pairs : List (String × String)) :
    (h.setAll pairs).value.layout = h.layout := by
  unfold setAll
  rw [Logged.value_steps]
  induction pairs generalizing h with
  | nil => rfl
  | cons p pairs ih => exact (ih _).trans (layout_set h p.1 p.2)

end Head

end ListingMetadata
