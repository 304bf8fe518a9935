/-
  ListingMetadata.Proofs.Entity.Census
  ────────────────────────────────────
  **THE ENTITIES OF A TREE, EACH BY ITS KIND AND PATH.**

  The census of an entity lists it and all that is resolved below it, in the
  order in which their sections are written:

      census e = (kind e, path e) :: lower e
-/
import ListingMetadata.Proofs.Entity.Placing

namespace ListingMetadata.Entity

/-! ## §1. Folds, one level at a time -/

theorem fold_eq {α : Type} (f : Head → List (Entity × α) → α) (e : Entity) :
    e.fold f = f e.head (foldAll f e.children) := by
  cases e
  rfl

/-! ## §2. The census -/

/-- The kind and path of an entity and of all that is resolved below it. -/
def census : Entity → List (Kind × String) :=
  fold fun h results =>
    (h.kind, h.path) :: h.kind.childKinds.flatMap fun k => (resolvedResults h results k).flatten

/-- The kinds and paths of all that is resolved below an entity. -/
def lower (e : Entity) : List (Kind × String) :=
  e.kind.childKinds.flatMap fun k => (e.resolved k).flatMap census

/-- The kinds and paths of all that is resolved below the children of an
entity. -/
def deeper (e : Entity) : List (Kind × String) :=
  e.kind.childKinds.flatMap fun k => (e.resolved k).flatMap lower

theorem census_eq (e : Entity) : e.census = (e.kind, e.path) :: e.lower := by
  unfold census lower
  rw [fold_eq]
  simp only [resolvedResults_foldAll, List.flatMap_def]
  rfl

theorem mem_lower {e : Entity} {x : Kind × String} :
    x ∈ e.lower ↔ ∃ k ∈ e.kind.childKinds, ∃ c ∈ e.resolved k, x ∈ c.census := by
  unfold lower
  simp only [List.mem_flatMap]

theorem mem_deeper {e : Entity} {x : Kind × String} :
    x ∈ e.deeper ↔ ∃ k ∈ e.kind.childKinds, ∃ c ∈ e.resolved k, x ∈ c.lower := by
  unfold deeper
  simp only [List.mem_flatMap]

theorem mem_census {e : Entity} {x : Kind × String} :
    x ∈ e.census ↔ x = (e.kind, e.path) ∨
      ∃ k ∈ e.kind.childKinds, ∃ c ∈ e.resolved k, x ∈ c.census := by
  rw [census_eq, List.mem_cons, mem_lower]

/-- An entity of the tree is its root, a child of the root, or lies deeper. -/
theorem mem_census_iff {e : Entity} {x : Kind × String} :
    x ∈ e.census ↔ x = (e.kind, e.path) ∨
      (∃ k ∈ e.kind.childKinds, ∃ c ∈ e.resolved k, x = (c.kind, c.path)) ∨ x ∈ e.deeper := by
  rw [mem_census, mem_deeper]
  constructor
  · rintro (h | ⟨k, hk, c, hc, hx⟩)
    · exact Or.inl h
    · rw [census_eq, List.mem_cons] at hx
      rcases hx with hx | hx
      · exact Or.inr (Or.inl ⟨k, hk, c, hc, hx⟩)
      · exact Or.inr (Or.inr ⟨k, hk, c, hc, hx⟩)
  · rintro (h | ⟨k, hk, c, hc, hx⟩ | ⟨k, hk, c, hc, hx⟩)
    · exact Or.inl h
    · exact Or.inr ⟨k, hk, c, hc, by rw [hx, census_eq]; exact List.mem_cons_self⟩
    · exact Or.inr ⟨k, hk, c, hc, by rw [census_eq]; exact List.mem_cons_of_mem _ hx⟩

/-! ## §3. Kinds in a census -/

/-- The kind of all that lies below an entity is permitted by a kind that ranks
no higher than the entity. -/
theorem exists_parent_of_mem_lower (e : Entity) :
    ∀ x ∈ e.lower, ∃ k : Kind, k.permits x.1 = true ∧ k.rank ≤ e.kind.rank := by
  induction e using induct with
  | step h cs ih =>
    intro x hx
    obtain ⟨k, hk, c, hc, hx⟩ := mem_lower.mp hx
    have hck : c.kind = k := kind_of_mem_resolved hc
    rw [census_eq, List.mem_cons] at hx
    rcases hx with hx | hx
    · refine ⟨h.kind, ?_, Nat.le_refl _⟩
      rw [hx]
      show h.kind.permits c.kind = true
      rw [hck]
      exact Kind.permits_iff.mpr hk
    · obtain ⟨k', hp, hr⟩ := ih c (mem_resolved.mp hc).2.1 x hx
      refine ⟨k', hp, Nat.le_trans hr ?_⟩
      rw [hck]
      exact Nat.le_of_lt (Kind.rank_lt_of_mem_childKinds hk)

theorem exists_parent_of_mem_deeper {e : Entity} {x : Kind × String} (hx : x ∈ e.deeper) :
    ∃ k : Kind, k.permits x.1 = true ∧ k.rank < e.kind.rank := by
  obtain ⟨k, hk, c, hc, hx⟩ := mem_deeper.mp hx
  obtain ⟨k', hp, hr⟩ := exists_parent_of_mem_lower c x hx
  rw [kind_of_mem_resolved hc] at hr
  exact ⟨k', hp, Nat.lt_of_le_of_lt hr (Kind.rank_lt_of_mem_childKinds hk)⟩

end ListingMetadata.Entity
