/-
  ListingMetadata.Proofs.Document.Building
  ────────────────────────────────────────
  **THE TREE THAT A DOCUMENT IS BUILT INTO.**

  The resolved children of a built entity are the built children of its node,
  as far as the node takes them: their kind must be permitted, and they must
  have an id.  They stand below the id of the root.
-/
import ListingMetadata.Proofs.Document.Filing
import ListingMetadata.Proofs.Entity.Adding

namespace ListingMetadata.Document

open Entity

/-! ## §1. Building is adding -/

theorem value_buildBelow (strict : Bool) (e : Entity) (ds : List Document) :
    (buildBelow strict e ds).value
      = (ds.map fun d => (d.build strict).value).foldl offered e := by
  induction ds generalizing e with
  | nil => rfl
  | cons d ds ih =>
    unfold buildBelow
    rw [List.map_cons, List.foldl_cons, Logged.value_bind]
    unfold offered
    cases e.add (d.build strict).value with
    | ok e' => exact ih e'
    | error f => exact ih e

theorem value_build (strict : Bool) (d : Document) :
    (d.build strict).value
      = (d.children.map fun c => (c.build strict).value).foldl offered (d.seed strict) := by
  cases d with
  | mk k as cs => exact value_buildBelow strict _ cs

theorem core_build (strict : Bool) (d : Document) :
    (d.build strict).value.head.core = (d.head strict).core := by
  rw [value_build]
  exact core_foldl_offered _ _

@[simp] theorem kind_build (strict : Bool) (d : Document) :
    (d.build strict).value.kind = d.kind :=
  (Head.kind_eq_of_core (core_build strict d)).trans (kind_head strict d)

@[simp] theorem id_build (strict : Bool) (d : Document) :
    (d.build strict).value.id = d.idIn strict :=
  Head.id_eq_of_core (core_build strict d)

@[simp] theorem path_build (strict : Bool) (d : Document) :
    (d.build strict).value.path = d.idIn strict :=
  (Head.path_eq_of_core (core_build strict d)).trans (path_head strict d)

/-! ## §2. The children that a node takes -/

/-- The children of a kind that may stand below a node. -/
def taken (strict : Bool) (d : Document) (k : Kind) : List Document :=
  d.children.filter fun c =>
    decide (c.kind = k) && (d.kind.permits c.kind && decide (c.idIn strict ≠ ""))

theorem mem_taken {strict : Bool} {d c : Document} {k : Kind} :
    c ∈ d.taken strict k ↔
      c ∈ d.children ∧ c.kind = k ∧ d.kind.permits c.kind = true ∧ c.idIn strict ≠ "" := by
  unfold taken
  rw [List.mem_filter, Bool.and_eq_true, Bool.and_eq_true, decide_eq_true_eq, decide_eq_true_eq]

/-- **The resolved children of a built entity.** -/
theorem resolved_build (strict : Bool) (d : Document) (k : Kind) :
    (d.build strict).value.resolved k
      = replaceAll [] ((d.taken strict k).map fun c =>
          (c.build strict).value.placed (some (d.idIn strict)) none) := by
  rw [value_build, resolved_foldl_offered (slotted_seed strict d), resolved_seed, path_seed,
    source_seed, List.filter_map, List.map_map]
  congr 2
  unfold taken
  apply List.filter_congr
  intro c _
  show (decide ((c.build strict).value.kind = k) && accepts _ (c.build strict).value) = _
  unfold accepts
  rw [kind_build, id_build, kind_seed]

theorem mem_resolved_build {strict : Bool} {d : Document} {k : Kind} {e : Entity}
    (h : e ∈ (d.build strict).value.resolved k) :
    ∃ c ∈ d.taken strict k, e = (c.build strict).value.placed (some (d.idIn strict)) none := by
  rw [resolved_build] at h
  rcases mem_replaceAll h with h | h
  · cases h
  · obtain ⟨c, hc, he⟩ := List.mem_map.mp h
    exact ⟨c, hc, he.symm⟩

end ListingMetadata.Document
