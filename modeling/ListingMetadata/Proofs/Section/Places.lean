/-
  ListingMetadata.Proofs.Section.Places
  ─────────────────────────────────────
  **WHERE SECTIONS AND ENTITIES STAND IN AN OUTPUT.**

  A spot tells an entity from all others that are written: its kind and number
  in its section, then those of the entities above it.  A section has the place
  of its kind below the entity for which it is embedded:

      section  Table  of  [(Class, 1), (Resource, 0)]
      entity   [(Table, 4), (Class, 1), (Resource, 0)]

  Both are counted in the trees that are passed, whatever is written of them.

    • `Batch.listed`          — the entities of a section,
    • `Batch.kinds`           — the kinds of the sections at a spot, in order,
    • `mem_listed_cases`      — who they are,
    • `kinds_of_suffix`       — where nothing may stand, nothing stands below,
    • `Batch.induct`          — induction from the spots below to those above.
-/
import ListingMetadata.Proofs.Entity.Placing
import ListingMetadata.Section.Context

namespace ListingMetadata

/-! ## §1. Spots and places -/

/-- The kind and the number of an entity in its section, then those of the
entities above it, the nearest first.  Nothing stands for the output itself. -/
abbrev Spot := List (Kind × Nat)

/-- The kind of a section and the spot of the entity that it is embedded for. -/
structure Place where
  kind : Kind
  above : Spot
deriving DecidableEq, Repr

/-- The spot of an entity by its number in a section. -/
def Place.seat (p : Place) (i : Nat) : Spot :=
  (p.kind, i) :: p.above

/-- What is passed to be written: entities, of which those of a kind are, and the
context of the output. -/
structure Batch where
  kind : Kind
  context : Context
  entities : List Entity

namespace Batch

/-- The entities of a kind at a spot, in their order: at the top those passed,
and at an entity its resolved children of a kind that may stand below it. -/
def listed (b : Batch) : Spot → Kind → List Entity
  | [], k => if k = b.kind then b.entities.filter fun e => decide (e.kind = b.kind) else []
  | (j, i) :: s, k =>
    match (b.listed s j)[i]? with
    | some e => if k ∈ e.kind.childKinds then e.resolved k else []
    | none => []

/-- The entity at a spot. -/
def entity? (b : Batch) : Spot → Option Entity
  | [] => none
  | (k, i) :: s => (b.listed s k)[i]?

/-- The kinds that may stand at a spot, in the order of their sections. -/
def kinds (b : Batch) : Spot → List Kind
  | [] => [b.kind]
  | (k, i) :: s =>
    match b.entity? ((k, i) :: s) with
    | some e => e.kind.childKinds
    | none => []

/-- The context of the sections at a spot: each entity on the way has set the
value that it contributes. -/
def contextAt (b : Batch) : Spot → Context
  | [] => b.context
  | (k, i) :: s =>
    match b.entity? ((k, i) :: s) with
    | some e => (b.contextAt s).nested e.head
    | none => b.contextAt s

/-! ## §2. At an entity -/

section

variable {b : Batch} {s : Spot} {e : Entity}

theorem listed_of_entity (h : b.entity? s = some e) {k : Kind} (hk : k ∈ e.kind.childKinds) :
    b.listed s k = e.resolved k := by
  cases s with
  | nil => cases h
  | cons x s =>
    obtain ⟨j, i⟩ := x
    have h : (b.listed s j)[i]? = some e := h
    simp only [listed, h, if_pos hk]

theorem listed_of_not_child (h : b.entity? s = some e) {k : Kind} (hk : k ∉ e.kind.childKinds) :
    b.listed s k = [] := by
  cases s with
  | nil => cases h
  | cons x s =>
    obtain ⟨j, i⟩ := x
    have h : (b.listed s j)[i]? = some e := h
    simp only [listed, h, if_neg hk]

/-- Nobody is listed below a number that nobody has. -/
theorem listed_of_none {x : Kind × Nat} (h : b.entity? (x :: s) = none) (k : Kind) :
    b.listed (x :: s) k = [] := by
  have h : (b.listed s x.1)[x.2]? = none := h
  simp only [listed, h]

theorem kinds_of_none {x : Kind × Nat} (h : b.entity? (x :: s) = none) :
    b.kinds (x :: s) = [] := by
  simp only [kinds, h]

theorem kinds_of_entity (h : b.entity? s = some e) : b.kinds s = e.kind.childKinds := by
  cases s with
  | nil => cases h
  | cons x s => simp only [kinds, h]

theorem contextAt_of_entity {k : Kind} {i : Nat} (h : b.entity? ((k, i) :: s) = some e) :
    b.contextAt ((k, i) :: s) = (b.contextAt s).nested e.head := by
  simp only [contextAt, h]

/-- **Who is listed was passed, at the top, or is a resolved child of the entity
above**, of a kind that may stand below it. -/
theorem mem_listed_cases {k : Kind} (h : e ∈ b.listed s k) :
    (s = [] ∧ k = b.kind ∧ e ∈ b.entities ∧ e.kind = k) ∨
      ∃ d, b.entity? s = some d ∧ k ∈ d.kind.childKinds ∧ e ∈ d.resolved k := by
  cases s with
  | nil =>
    left
    by_cases hk : k = b.kind
    · subst hk
      simp only [listed, if_true, List.mem_filter, decide_eq_true_eq] at h
      exact ⟨rfl, rfl, h.1, h.2⟩
    · simp [listed, hk] at h
  | cons x s =>
    right
    cases hx : b.entity? (x :: s) with
    | none =>
      rw [listed_of_none hx] at h
      cases h
    | some d =>
      by_cases hk : k ∈ d.kind.childKinds
      · exact ⟨d, rfl, hk, listed_of_entity hx hk ▸ h⟩
      · rw [listed_of_not_child hx hk] at h
        cases h

/-- A section at a spot is of one of its kinds. -/
theorem mem_kinds_of_mem_listed {k : Kind} (h : e ∈ b.listed s k) : k ∈ b.kinds s := by
  rcases mem_listed_cases h with ⟨rfl, rfl, -⟩ | ⟨d, hd, hk, -⟩
  · exact List.mem_singleton.mpr rfl
  · rw [kinds_of_entity hd]
    exact hk

/-- **A section lists entities of its kind.** -/
theorem kind_of_mem_listed {k : Kind} (h : e ∈ b.listed s k) : e.kind = k := by
  rcases mem_listed_cases h with ⟨-, -, -, hk⟩ | ⟨d, -, -, hmem⟩
  · exact hk
  · exact Entity.kind_of_mem_resolved hmem

theorem nodup_kinds (b : Batch) (s : Spot) : (b.kinds s).Nodup := by
  cases s with
  | nil => simp [kinds]
  | cons x s =>
    cases hx : b.entity? (x :: s) with
    | none =>
      rw [kinds_of_none hx]
      exact List.nodup_nil
    | some d =>
      rw [kinds_of_entity hx]
      exact d.kind.nodup_childKinds

end

/-! ## §3. Further down -/

theorem kinds_cons_of_nil {b : Batch} {s : Spot} (h : b.kinds s = []) (x : Kind × Nat) :
    b.kinds (x :: s) = [] := by
  cases he : b.entity? (x :: s) with
  | none => exact kinds_of_none he
  | some e =>
    have hk : x.1 ∈ b.kinds s := mem_kinds_of_mem_listed (List.mem_of_getElem? he)
    rw [h] at hk
    cases hk

/-- **Nothing stands below a spot where nothing may stand.** -/
theorem kinds_of_suffix {b : Batch} {s t : Spot} (h : b.kinds s = []) (hst : s <:+ t) :
    b.kinds t = [] := by
  obtain ⟨r, rfl⟩ := hst
  induction r with
  | nil => exact h
  | cons x r ih => exact kinds_cons_of_nil ih x

/-! ## §4. Induction -/

/-- Induction over the spots of a tree, for the spot of its entity. -/
theorem induct_entity {b : Batch} {P : Spot → Prop} (bare : ∀ s, b.kinds s = [] → P s)
    (step : ∀ s, (∀ k i, P ((k, i) :: s)) → P s) (e : Entity) :
    ∀ s, b.entity? s = some e → P s := by
  induction e using Entity.induct with
  | step h cs ih =>
    intro s hs
    apply step
    intro k i
    cases hd : b.entity? ((k, i) :: s) with
    | none => exact bare _ (kinds_of_none hd)
    | some d =>
      -- one number further down stands a child, of which the property is known
      have hmem : d ∈ b.listed s k := List.mem_of_getElem? hd
      have hk : k ∈ h.kind.childKinds := kinds_of_entity hs ▸ mem_kinds_of_mem_listed hmem
      rw [listed_of_entity hs hk] at hmem
      exact ih d (Entity.mem_resolved.mp hmem).2.1 _ hd

/-- **What holds of a spot when it holds of all spots below it holds of every
spot**, if it holds where nothing stands. -/
theorem induct {b : Batch} {P : Spot → Prop} (bare : ∀ s, b.kinds s = [] → P s)
    (step : ∀ s, (∀ k i, P ((k, i) :: s)) → P s) (s : Spot) : P s := by
  have below : ∀ k i s, P ((k, i) :: s) := by
    intro k i s
    cases he : b.entity? ((k, i) :: s) with
    | none => exact bare _ (kinds_of_none he)
    | some e => exact induct_entity bare step e _ he
  exact step s fun k i => below k i s

end Batch

end ListingMetadata
