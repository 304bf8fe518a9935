/-
  ListingMetadata.Proofs.Source.Exploring
  ───────────────────────────────────────
  **AFTER MATERIALIZING THERE IS NOTHING LEFT TO ASK FOR.**

  A kind that was asked for is fetched or has failed.  Materializing asks for
  every kind of every entity down to the leaves, as children have a lower rank
  than their parent: no slot of the tree is `unfetched` afterwards.

    • `progress?_resolve_ne_unfetched` — one kind,
    • `explored_materialize`           — the whole tree,
    • `Explored.slot?`                 — the slots on the ways of a tree.
-/
import ListingMetadata.Proofs.Source.Departures

namespace ListingMetadata.Entity

variable {sources : Sources}

/-! ## §1. One kind -/

/-- A kind that is asked for is not `unfetched` afterwards. -/
theorem progress?_resolve_ne_unfetched (sources : Sources) (e : Entity) (k : Kind) :
    (e.resolve sources k).value.head.progress? k ≠ some .unfetched := by
  by_cases hu : e.head.progress? k = some .unfetched
  · rw [value_resolve_of_unfetched hu, progress?_fetch_self sources (by rw [hu]; simp)]
    split <;> simp
  · rw [value_resolve_of_ne hu]
    exact hu

/-- How asking for a kind leaves it depends on the core of the entity and on how
it was. -/
theorem progress?_resolve_congr {e e' : Entity} {k : Kind} (hc : e.head.core = e'.head.core)
    (hp : e.head.progress? k = e'.head.progress? k) :
    (e.resolve sources k).value.head.progress? k
      = (e'.resolve sources k).value.head.progress? k := by
  by_cases hu : e.head.progress? k = some .unfetched
  · have hu' : e'.head.progress? k = some .unfetched := hp ▸ hu
    rw [value_resolve_of_unfetched hu, value_resolve_of_unfetched hu',
      progress?_fetch_self sources (by rw [hu]; simp),
      progress?_fetch_self sources (by rw [hu']; simp), brought?_of_core sources hc k]
  · rw [value_resolve_of_ne hu, value_resolve_of_ne (hp ▸ hu), hp]

/-! ## §2. All kinds in turn -/

/-- Each kind that is taken is left as asking the untouched entity leaves it. -/
theorem progress?_foldl_deepened (depth : Nat) {k : Kind} (ks : List Kind) :
    ∀ {e : Entity}, e.BringsInKind sources → ks.Nodup →
      (ks.foldl (deepened sources depth) e).head.progress? k
        = if k ∈ ks then (e.resolve sources k).value.head.progress? k
          else e.head.progress? k := by
  induction ks with
  | nil =>
    intro e _ _
    rfl
  | cons k₁ ks ih =>
    intro e hb hn
    obtain ⟨hk₁, hn⟩ := List.nodup_cons.mp hn
    have hc := core_deepened sources depth e k₁
    rw [List.foldl_cons, ih (hb.of_core hc) hn]
    by_cases h : k = k₁
    · -- no kind comes twice, so what was left in this one stays
      subst h
      rw [if_neg hk₁, if_pos List.mem_cons_self]
      unfold deepened
      rw [head_eachChild]
    · have hsame := progress?_deepened_of_ne depth hb h
      rw [progress?_resolve_congr hc hsame, hsame]
      simp only [List.mem_cons, h, false_or]

/-- No kind of an entity that is materialized is left `unfetched`. -/
theorem progress?_materializeTo_ne_unfetched (depth : Nat) {e : Entity} (hs : e.head.Slotted)
    (hb : e.BringsInKind sources) (k : Kind) :
    (materializeTo sources (depth + 1) e).value.head.progress? k ≠ some .unfetched := by
  rw [value_materializeTo_succ, progress?_foldl_deepened depth _ hb (Kind.nodup_childKinds _)]
  split
  · exact progress?_resolve_ne_unfetched sources e k
  · rename_i hk
    -- an entity has no slot for a kind that may not stand below it
    intro hu
    exact hk (Kind.permits_iff.mp (hs.permits (by rw [hu]; simp)))

/-! ## §3. The whole tree -/

/-- No slot of the entity, nor of any resolved below it, is `unfetched`. -/
def Explored (e : Entity) : Prop :=
  ∀ x, Within x e → ∀ k, x.head.progress? k ≠ some .unfetched

theorem explored_iff {e : Entity} :
    e.Explored ↔ (∀ k, e.head.progress? k ≠ some .unfetched) ∧
      ∀ k, ∀ c ∈ e.resolved k, c.Explored :=
  forall_within_iff

/-- What stands at the end of a way is resolved somewhere in the tree. -/
theorem within_of_at? {w : Way} : ∀ {e x : Entity}, e.at? w = some x → Within x e := by
  induction w with
  | nil =>
    intro e x h
    cases h
    exact .here e
  | cons s w ih =>
    intro e x h
    rw [at?_cons] at h
    obtain ⟨c, hc, hx⟩ := Option.bind_eq_some_iff.mp h
    exact .down (List.mem_of_find?_eq_some hc) (ih hx)

theorem Explored.slot? {e : Entity} (h : e.Explored) (w : Way) (k : Kind) :
    e.slot? w k ≠ some .unfetched := by
  intro hslot
  obtain ⟨x, hx, hk⟩ := Option.bind_eq_some_iff.mp hslot
  exact h x (within_of_at? hx) k hk

/-- An entity of rank zero has no slots. -/
theorem explored_of_rank_zero {e : Entity} (hs : e.head.Slotted) (hrank : e.kind.rank = 0) :
    e.Explored := by
  have hnone : ∀ k, e.head.progress? k = none := by
    intro k
    rw [Head.progress?_eq_none_iff, hs]
    intro hk
    have hlt : k.rank < e.kind.rank := Kind.rank_lt_of_mem_childKinds hk
    omega
  rw [explored_iff]
  constructor
  · intro k
    rw [hnone]
    simp
  · intro k c hc
    have hfetched := (mem_resolved.mp hc).1
    rw [hnone] at hfetched
    cases hfetched

/-- **Materializing down to the rank of an entity explores all of its tree.** -/
theorem explored_materializeTo (hg : sources.Give WellFormed) (depth : Nat) :
    ∀ e : Entity, e.WellFormed → e.AsksInKind sources → e.kind.rank ≤ depth →
      (materializeTo sources depth e).value.Explored := by
  induction depth with
  | zero =>
    intro e he _ hrank
    exact explored_of_rank_zero he.here.slotted (Nat.le_zero.mp hrank)
  | succ depth ih =>
    intro e he hk hrank
    have hs := he.here.slotted
    have hb := hk.bringsInKind
    have hmaterialized : (materializeTo sources (depth + 1) e).value.WellFormed :=
      lasting_wellFormed.materializeTo hg (depth + 1) he
    rw [explored_iff]
    refine ⟨progress?_materializeTo_ne_unfetched depth hs hb, ?_⟩
    intro k c hc
    -- a child stands below a kind that permits it, so it ranks lower
    have hchild : k ∈ e.kind.childKinds := by
      have hfetched := (mem_resolved.mp hc).1
      have hpermits := hmaterialized.here.slotted.permits (by rw [hfetched]; simp)
      exact kind_materializeTo sources (depth + 1) e ▸ Kind.permits_iff.mp hpermits
    have hlt := Kind.rank_lt_of_mem_childKinds hchild
    rw [resolved_materializeTo_succ depth hs hb hchild] at hc
    obtain ⟨d, hd, rfl⟩ := List.mem_map.mp hc
    -- and it asks the source that its parent asks
    have hresolved := lasting_wellFormed.resolve hg he k
    have hsource : d.head.source = e.head.source :=
      (hresolved.here.bound k d hd).trans (Head.source_eq_of_core (core_resolve sources e k))
    have hkind : d.kind = k := kind_of_mem_resolved hd
    exact ih d (hresolved.child hd) (hk.of_source hsource) (by rw [hkind]; omega)

/-- **After materializing, no slot of the tree is left to ask for.** -/
theorem explored_materialize (hg : sources.Give WellFormed) {e : Entity} (he : e.WellFormed)
    (hk : e.AsksInKind sources) : (materialize sources e).value.Explored :=
  explored_materializeTo hg _ e he hk (Nat.le_refl _)

end ListingMetadata.Entity
