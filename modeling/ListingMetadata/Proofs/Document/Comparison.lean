/-
  ListingMetadata.Proofs.Document.Comparison
  ──────────────────────────────────────────
  **WHAT THE FETCHED TREE LOSES, AND WHAT IT ADDS.**

  A node is filed under the trail of its parent, and asked for under the path
  of its parent's entity.  The two agree wherever the root has an id.  Below a
  root without one they differ from the second level on: the trail begins with
  a colon, the path does not.

    • `built_le_live_iff` — nothing is lost exactly when the root has an id,
      or the entities below its children are served by accident,
    • `live_le_built_iff` — nothing is added exactly when whatever is nested
      under the path of a built entity has been built below that path.
-/
import ListingMetadata.Proofs.Document.Live

namespace ListingMetadata.Document

open Entity

/-! ## §1. Built entities are served -/

/-- **What is built below a node whose trail is its path is served there.** -/
theorem serves_of_mem_census_build {strict : Bool} {d : Document} (c : Document) :
    ∀ {k : Kind} {q : String} {n : Document} (s : Option Nat),
      Trail strict (d.idIn strict) d q n → q ≠ "" → c ∈ n.children →
      k.permits c.kind = true → c.idIn strict ≠ "" →
      ∀ x ∈ ((c.build strict).value.placed (some q) s).census, Serves strict d k q x.1 x.2 := by
  -- the path of the entity is the trail of its node, all the way down
  induction c using induct with
  | step c ih =>
    intro k q n s ht hq hn hp hi x hx
    have hpath : ((c.build strict).value.placed (some q) s).path
        = Head.below q (c.idIn strict) := by
      rw [path_placed_some, id_build]
    rw [mem_census, kind_placed, kind_build, hpath] at hx
    rcases hx with hx | ⟨j, hj, e, he, hx⟩
    · rw [hx]
      exact .down ht hn hp hi (.here _ _)
    · rw [resolved_placed, hpath] at he
      obtain ⟨e', he', rfl⟩ := List.mem_map.mp he
      obtain ⟨b, hb, rfl⟩ := mem_resolved_build he'
      obtain ⟨hbc, -, hbp, hbi⟩ := mem_taken.mp hb
      rw [placed_placed] at hx
      have htrail : Trail strict (d.idIn strict) d (Head.below q (c.idIn strict)) c := by
        rw [Head.below_of_ne hq]
        exact ht.child hn
      exact .down ht hn hp hi
        (ih b hbc s htrail (Head.below_ne_empty q hi) hbc hbp hbi x hx)

/-- A child of the root is served, whatever the root is called. -/
theorem served_of_mem_taken {strict : Bool} {d c : Document} {k : Kind}
    (hc : c ∈ d.taken strict k) :
    d.Served strict c.kind (Head.below (d.idIn strict) (c.idIn strict)) := by
  obtain ⟨hd, -, hp, hi⟩ := mem_taken.mp hc
  exact .down (.here _ d) hd hp hi (.here _ _)

theorem served_of_mem_census_build {strict : Bool} {d : Document} (hroot : d.idIn strict ≠ "")
    {x : Kind × String} (hx : x ∈ (d.build strict).value.census) : d.Served strict x.1 x.2 := by
  rw [mem_census, kind_build, path_build] at hx
  rcases hx with hx | ⟨k, hk, e, he, hx⟩
  · rw [hx]
    exact .here _ _
  · obtain ⟨c, hc, rfl⟩ := mem_resolved_build he
    obtain ⟨hd, -, hp, hi⟩ := mem_taken.mp hc
    exact serves_of_mem_census_build c none (.here _ d) hroot hd hp hi x hx

/-! ## §2. A root without an id -/

/-- All that is served below a path that is not empty has a path that goes on
from it. -/
theorem Serves.exists_append {strict : Bool} {d : Document} {k k' : Kind} {p q : String}
    (h : Serves strict d k p k' q) (hp : p ≠ "") : ∃ r, q = p ++ r := by
  induction h with
  | here k p => exact ⟨"", String.append_empty.symm⟩
  | @down k k' p q n c ht hc hk hi _ ih =>
    obtain ⟨r, hr⟩ := ih (Head.below_ne_empty p hi)
    refine ⟨":" ++ c.idIn strict ++ r, ?_⟩
    rw [hr, Head.below_of_ne hp]
    simp only [String.append_assoc]

/-- Below a root without an id, whatever is served deeper than a child of the
root has a path that begins with a colon. -/
theorem exists_colon_of_served {strict : Bool} {d : Document} (hroot : d.idIn strict = "")
    {k parent : Kind} {q : String} (h : d.Served strict k q)
    (hp : parent.permits k = true) (hr : parent.rank < d.kind.rank) : ∃ r, q = ":" ++ r := by
  have hk : k.rank < d.kind.rank :=
    Nat.lt_trans (Kind.rank_lt_of_mem_childKinds (Kind.permits_iff.mp hp)) hr
  have hnot : d.kind.permits k = false := by
    cases hd : d.kind.permits k with
    | false => rfl
    | true =>
      rw [Kind.parent_unique (Kind.permits_iff.mp hp) (Kind.permits_iff.mp hd)] at hr
      exact absurd hr (Nat.lt_irrefl _)
  unfold Served at h
  rw [hroot] at h
  cases h with
  | here => exact absurd hk (Nat.lt_irrefl _)
  | @down _ _ _ _ _ c _ _ hcp hci h =>
    rw [Head.below_empty] at h
    cases h with
    | here => rw [hnot] at hcp; cases hcp
    | @down _ _ _ _ _ b ht _ _ hbi h =>
      -- the path of the child is a trail, and trails below this root begin with a colon
      rw [hroot] at ht
      obtain ⟨r, hr⟩ := ht.eq_or_append.resolve_left hci
      obtain ⟨r', hr'⟩ := h.exists_append (Head.below_ne_empty _ hbi)
      refine ⟨r ++ (":" ++ b.idIn strict ++ r'), ?_⟩
      rw [hr', Head.below_of_ne hci, hr]
      simp only [String.append_assoc, String.empty_append]

/-! ## §3. What is lost -/

/-- **Nothing is lost when the root has an id, and only by accident otherwise.**
Below a root without an id all that lies deeper than its children is lost,
unless a node elsewhere is filed under the very path; such a path begins with a
colon. -/
theorem built_le_live_iff (strict : Bool) (number : Nat) (others : Sources) (d : Document) :
    (∀ x ∈ (d.build strict).value.census, x ∈ (d.live strict number others).census) ↔
      d.idIn strict ≠ "" ∨
        ∀ x ∈ (d.build strict).value.deeper,
          (∃ r, x.2 = ":" ++ r) ∧ d.Served strict x.1 x.2 := by
  constructor
  · intro h
    by_cases hroot : d.idIn strict = ""
    · right
      intro x hx
      have hserved : d.Served strict x.1 x.2 :=
        mem_census_live.mp (h x (mem_census_iff.mpr (Or.inr (Or.inr hx))))
      obtain ⟨parent, hp, hr⟩ := exists_parent_of_mem_deeper hx
      rw [kind_build] at hr
      exact ⟨exists_colon_of_served hroot hserved hp hr, hserved⟩
    · exact Or.inl hroot
  · rintro (hroot | h) x hx
    · exact mem_census_live.mpr (served_of_mem_census_build hroot hx)
    · apply mem_census_live.mpr
      rcases mem_census_iff.mp hx with hx | ⟨k, hk, e, he, hx⟩ | hx
      · rw [hx, kind_build, path_build]
        exact .here _ _
      · obtain ⟨c, hc, rfl⟩ := mem_resolved_build he
        rw [hx, kind_placed, kind_build, path_placed_some, id_build]
        exact served_of_mem_taken hc
      · exact (h x hx).2

/-- A resource without an id, a class below it and a field below the class. -/
def nameless : Document :=
  mk .resource [] [mk .propertyClass [("ClassName", "RES")]
    [mk .table [("SystemName", "ListPrice")] []]]

/-- Below a resource without an id the field is built and is not fetched. -/
theorem nameless_loses_its_field :
    ¬ ∀ x ∈ (nameless.build false).value.census, x ∈ (nameless.live false 0 []).census := by
  decide +kernel

/-! ## §4. What is added -/

/-- Whatever is nested under the path of a built entity, be it below another
node of the same trail, has been built below that path if it may stand there. -/
def NestingsBuilt (strict : Bool) (d : Document) : Prop :=
  ∀ k p n c, (k, p) ∈ (d.build strict).value.census → Trail strict (d.idIn strict) d p n →
    c ∈ n.children → k.permits c.kind = true → c.idIn strict ≠ "" →
    (c.kind, Head.below p (c.idIn strict)) ∈ (d.build strict).value.census

/-- Then all that is served below a built entity has been built. -/
theorem NestingsBuilt.mem_of_serves {strict : Bool} {d : Document} (h : d.NestingsBuilt strict)
    {k k' : Kind} {p q : String} (hs : Serves strict d k p k' q)
    (hkp : (k, p) ∈ (d.build strict).value.census) :
    (k', q) ∈ (d.build strict).value.census := by
  induction hs with
  | here k p => exact hkp
  | @down k k' p q n c ht hc hp hi _ ih => exact ih (h k p n c hkp ht hc hp hi)

/-- **Nothing is added exactly when each nesting has been built.** -/
theorem live_le_built_iff (strict : Bool) (number : Nat) (others : Sources) (d : Document)
    (hroot : d.idIn strict ≠ "") :
    (∀ x ∈ (d.live strict number others).census, x ∈ (d.build strict).value.census) ↔
      d.NestingsBuilt strict := by
  constructor
  · intro h k p n c hkp ht hc hp hi
    have hserved : d.Served strict k p := served_of_mem_census_build hroot hkp
    exact h _ (mem_census_live.mpr (hserved.trans (.down ht hc hp hi (.here _ _))))
  · intro h x hx
    have hself : (d.kind, d.idIn strict) ∈ (d.build strict).value.census := by
      rw [mem_census, kind_build, path_build]
      exact Or.inl rfl
    exact h.mem_of_serves (mem_census_live.mp hx) hself

/-- A resource with a class that has a field, and the class once more without
it. -/
def repeating : Document :=
  mk .resource [("ResourceID", "Property")]
    [mk .propertyClass [("ClassName", "RES")] [mk .table [("SystemName", "ListPrice")] []],
      mk .propertyClass [("ClassName", "RES")] []]

/-- The class that came last is fetched with the field of the one it replaces. -/
theorem repeating_gains_a_field :
    repeating.idIn false ≠ "" ∧
      ¬ ∀ x ∈ (repeating.live false 0 []).census, x ∈ (repeating.build false).value.census := by
  decide +kernel

/-- A resource with a class without fields, and the class once more with one. -/
def completing : Document :=
  mk .resource [("ResourceID", "Property")]
    [mk .propertyClass [("ClassName", "RES")] [],
      mk .propertyClass [("ClassName", "RES")] [mk .table [("SystemName", "ListPrice")] []]]

/-- Here the class that came last has all that is nested under its path. -/
theorem nestingsBuilt_completing :
    completing.idIn false ≠ "" ∧ completing.NestingsBuilt false := by
  have hroot : completing.idIn false ≠ "" := by decide +kernel
  have hadded : ∀ x ∈ (completing.live false 0 []).census,
      x ∈ (completing.build false).value.census := by decide +kernel
  exact ⟨hroot, (live_le_built_iff false 0 [] completing hroot).mp hadded⟩

end ListingMetadata.Document
