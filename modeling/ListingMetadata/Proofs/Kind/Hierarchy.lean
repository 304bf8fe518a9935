/-
  ListingMetadata.Proofs.Kind.Hierarchy
  ─────────────────────────────────────
  **THE KINDS FORM A TREE.**

  A kind stands below one kind only, so the kinds on the way from an entity up
  to its root are fixed by the kind of the entity.  The keys in the header of a
  section are those of the section above it and the key that the entity above it
  contributes.
-/
import ListingMetadata.Kind.Basic

namespace ListingMetadata.Kind

/-! ## §1. The kind above -/

/-- The kind that permits a kind as a child. -/
def parent? : Kind → Option Kind
  | system => none
  | resource => some system
  | foreignKey => some system
  | table => some propertyClass
  | update => some propertyClass
  | updateType => some update
  | lookupType => some lookup
  | validationLookupType => some validationLookup
  | validationExternalType => some validationExternal
  | _ => some resource

theorem parent?_of_mem {parent child : Kind} (h : child ∈ parent.childKinds) :
    child.parent? = some parent := by
  have all : ∀ c ∈ parent.childKinds, c.parent? = some parent := by cases parent <;> decide
  exact all child h

/-- A kind stands below one kind only. -/
theorem parent_unique {p q child : Kind} (hp : child ∈ p.childKinds) (hq : child ∈ q.childKinds) :
    p = q := by
  have hsame := parent?_of_mem hp
  rw [parent?_of_mem hq] at hsame
  exact (Option.some.inj hsame).symm

theorem permits_iff {parent child : Kind} :
    parent.permits child = true ↔ child ∈ parent.childKinds := by
  unfold permits
  rw [List.contains_iff_mem]

/-! ## §2. Kinds further above -/

/-- The first kind is the second or stands somewhere above it. -/
inductive Over : Kind → Kind → Prop where
  | refl (k : Kind) : Over k k
  | child {top parent child : Kind} :
      Over top parent → child ∈ parent.childKinds → Over top child

theorem Over.parent {top middle k : Kind} (hm : middle ∈ top.childKinds) (h : Over middle k) :
    Over top k := by
  induction h with
  | refl => exact .child (.refl top) hm
  | child _ hc ih => exact .child ih hc

theorem Over.rank_le {top k : Kind} (h : Over top k) : k.rank ≤ top.rank := by
  induction h with
  | refl => exact Nat.le_refl _
  | child _ hc ih => exact Nat.le_of_lt (Nat.lt_of_lt_of_le (rank_lt_of_mem_childKinds hc) ih)

/-- A child does not stand above its parent. -/
theorem not_over_of_mem {parent child : Kind} (h : child ∈ parent.childKinds) :
    ¬ Over child parent := by
  intro ho
  have hlt := rank_lt_of_mem_childKinds h
  have hle := ho.rank_le
  omega

/-- **Different children of a kind have nothing in common below them.** -/
theorem Over.eq_of_siblings {parent k₁ k₂ k : Kind} (h₁ : Over k₁ k) (h₂ : Over k₂ k)
    (hm₁ : k₁ ∈ parent.childKinds) (hm₂ : k₂ ∈ parent.childKinds) : k₁ = k₂ := by
  -- both ways up go through the same kinds; the one that ends first would end
  -- inside the other
  induction h₁ with
  | refl =>
    cases h₂ with
    | refl => rfl
    | child h₂ hc =>
      rw [parent_unique hc hm₁] at h₂
      exact absurd h₂ (not_over_of_mem hm₂)
  | child h₁ hc ih =>
    cases h₂ with
    | refl =>
      rw [parent_unique hc hm₂] at h₁
      exact absurd h₁ (not_over_of_mem hm₁)
    | child h₂ hc' =>
      rw [parent_unique hc' hc] at h₂
      exact ih h₂

/-! ## §3. Header keys -/

theorem headerKeys_subset {parent child : Kind} (h : child ∈ parent.childKinds) :
    parent.headerKeys ⊆ child.headerKeys := by
  have all : ∀ c ∈ parent.childKinds, ∀ key ∈ parent.headerKeys, key ∈ c.headerKeys := by
    cases parent <;> decide
  exact fun key => all child h key

theorem contextKey_mem_headerKeys {parent child : Kind} {key : String}
    (h : child ∈ parent.childKinds) (hkey : parent.contextKey? = some key) :
    key ∈ child.headerKeys := by
  have all : ∀ c ∈ parent.childKinds, ∀ key ∈ parent.contextKey?, key ∈ c.headerKeys := by
    cases parent <;> decide
  exact all child h key hkey

/-- What a kind contributes is not in the headers of its own sections. -/
theorem contextKey_notMem_headerKeys {k : Kind} {key : String} (hkey : k.contextKey? = some key) :
    key ∉ k.headerKeys := by
  have all : ∀ key ∈ k.contextKey?, key ∉ k.headerKeys := by cases k <;> decide
  exact all key hkey

/-- Systems alone have children and contribute no key. -/
theorem eq_system_of_contextKey?_eq_none {parent child : Kind} (h : child ∈ parent.childKinds)
    (hkey : parent.contextKey? = none) : parent = system := by
  have all : ∀ c ∈ parent.childKinds, parent.contextKey? = none → parent = system := by
    cases parent <;> decide
  exact all child h hkey

end ListingMetadata.Kind
