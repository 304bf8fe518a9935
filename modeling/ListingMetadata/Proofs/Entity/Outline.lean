/-
  ListingMetadata.Proofs.Entity.Outline
  ─────────────────────────────────────
  **WHAT A READER SEES OF A TREE.**

  Two trees can differ in their sources, in what is known to be fetched and in
  the order in which children of different kinds stand, and still read the
  same.  The outline of a tree leaves these out:

    • `resolved_outline` — the children of the outline are the outlines of the
      children, kind by kind,
    • `census_outline`, `snapshot_outline` — what is made of the children can be
      made of the outline.
-/
import ListingMetadata.Document.Build
import ListingMetadata.Proofs.Entity.Census
import Mathlib.Data.List.Basic

namespace ListingMetadata

/-! ## §1. Settled heads -/

namespace Head

/-- Without a source, and with all children fetched that may stand below. -/
def settled (h : Head) : Head :=
  { h with slots := h.kind.childKinds.map fun k => (k, Progress.fetched), source := none }

@[simp] theorem kind_settled (h : Head) : h.settled.kind = h.kind := rfl

@[simp] theorem wire_settled (h : Head) : h.settled.wire = h.wire := rfl

theorem progress?_settled {h : Head} {k : Kind} (hk : k ∈ h.kind.childKinds) :
    h.settled.progress? k = some .fetched :=
  progress?_of_slots_eq rfl hk

theorem settled_of_core {h h' : Head} (e : h.core = h'.core) : h.settled = h'.settled := by
  show { h.core with slots := h.core.kind.childKinds.map fun k => (k, Progress.fetched),
                     source := none } = h'.settled
  rw [e]
  rfl

theorem kind_eq_of_settled {h h' : Head} (e : h.settled = h'.settled) : h.kind = h'.kind := by
  rw [← kind_settled h, e, kind_settled]

/-- Where a head is placed, its settled form goes along. -/
theorem settled_placed_of_settled {h h' : Head} (e : h.settled = h'.settled) (p : Option String)
    (s t : Option Nat) : (h.placed p s).settled = (h'.placed p t).settled := by
  show (h.settled.placed p none).settled = (h'.settled.placed p none).settled
  rw [e]

end Head

namespace Entity

/-! ## §2. Outlines -/

/-- A tree without sources, all of its children fetched, those of one kind after
those of another. -/
def outline : Entity → Entity :=
  fold fun h results => mk h.settled (h.kind.childKinds.flatMap (resolvedResults h results))

theorem outline_eq (e : Entity) :
    e.outline
      = mk e.head.settled (e.kind.childKinds.flatMap fun k => (e.resolved k).map outline) := by
  unfold outline
  rw [fold_eq]
  show mk _ (e.kind.childKinds.flatMap fun k => resolvedResults e.head _ k) = _
  simp only [resolvedResults_foldAll]

@[simp] theorem head_outline (e : Entity) : e.outline.head = e.head.settled := by
  rw [outline_eq]
  rfl

@[simp] theorem kind_outline (e : Entity) : e.outline.kind = e.kind := by
  unfold kind
  rw [head_outline]
  rfl

@[simp] theorem path_outline (e : Entity) : e.outline.path = e.path := by
  unfold path
  rw [head_outline]
  rfl

/-- Of lists, one for each kind, what is of a kind is the list of that kind. -/
theorem filter_flatMap_kinds {α : Type} {key : α → Kind} {f : Kind → List α}
    (hf : ∀ k, ∀ c ∈ f k, key c = k) {k : Kind} {ks : List Kind} (hn : ks.Nodup) (hk : k ∈ ks) :
    (ks.flatMap f).filter (fun c => decide (key c = k)) = f k := by
  induction ks with
  | nil => cases hk
  | cons j ks ih =>
    obtain ⟨hj, hn⟩ := List.nodup_cons.mp hn
    rw [List.flatMap_cons, List.filter_append]
    by_cases h : k = j
    · -- the list of the kind stays whole, and the kind comes only once
      subst h
      have hself : (f k).filter (fun c => decide (key c = k)) = f k := by
        rw [List.filter_eq_self]
        intro c hc
        exact decide_eq_true (hf k c hc)
      have hrest : (ks.flatMap f).filter (fun c => decide (key c = k)) = [] := by
        rw [List.filter_eq_nil_iff]
        intro c hc hck
        obtain ⟨i, hi, hc⟩ := List.mem_flatMap.mp hc
        have hik : i = k := (hf i c hc).symm.trans (of_decide_eq_true hck)
        exact hj (hik ▸ hi)
      rw [hself, hrest, List.append_nil]
    · have hnone : (f j).filter (fun c => decide (key c = k)) = [] := by
        rw [List.filter_eq_nil_iff]
        intro c hc hck
        exact h ((of_decide_eq_true hck).symm.trans (hf j c hc))
      rw [hnone, List.nil_append]
      exact ih hn ((List.mem_cons.mp hk).resolve_left h)

theorem resolved_outline {e : Entity} {k : Kind} (hk : k ∈ e.kind.childKinds) :
    e.outline.resolved k = (e.resolved k).map outline := by
  have hfetched : e.outline.head.progress? k = some .fetched := by
    rw [head_outline]
    exact Head.progress?_settled hk
  rw [resolved_of_fetched hfetched, outline_eq, children_mk]
  refine filter_flatMap_kinds (f := fun k => (e.resolved k).map outline) ?_
    (Kind.nodup_childKinds e.kind) hk
  intro j c hc
  obtain ⟨b, hb, rfl⟩ := List.mem_map.mp hc
  rw [kind_outline]
  exact kind_of_mem_resolved hb

/-! ## §3. What is made of an outline -/

/-- **The census of a tree is that of its outline.** -/
theorem census_outline (e : Entity) : e.outline.census = e.census := by
  induction e using induct with
  | step h cs ih =>
    rw [census_eq, census_eq, kind_outline, path_outline]
    congr 1
    unfold lower
    rw [kind_outline]
    apply List.flatMap_congr
    intro k hk
    rw [resolved_outline hk, List.flatMap_map]
    apply List.flatMap_congr
    intro c hc
    exact ih c (mem_resolved.mp hc).2.1

theorem snapshot_eq (e : Entity) :
    e.snapshot
      = Document.mk e.kind e.head.wire
          (e.kind.childKinds.flatMap fun k => (e.resolved k).map snapshot) := by
  unfold snapshot
  rw [fold_eq]
  show Document.mk _ _ (e.kind.childKinds.flatMap fun k => resolvedResults e.head _ k) = _
  simp only [resolvedResults_foldAll]
  rfl

theorem kind_snapshot (e : Entity) : e.snapshot.kind = e.kind := by
  rw [snapshot_eq]
  rfl

theorem children_snapshot (e : Entity) :
    e.snapshot.children = e.kind.childKinds.flatMap fun k => (e.resolved k).map snapshot := by
  rw [snapshot_eq]
  rfl

/-- **The snapshot of a tree is that of its outline.** -/
theorem snapshot_outline (e : Entity) : e.outline.snapshot = e.snapshot := by
  induction e using induct with
  | step h cs ih =>
    rw [snapshot_eq, snapshot_eq, kind_outline, head_outline, Head.wire_settled]
    congr 1
    apply List.flatMap_congr
    intro k hk
    rw [resolved_outline hk, List.map_map]
    apply List.map_congr_left
    intro c hc
    exact ih c (mem_resolved.mp hc).2.1

end Entity

end ListingMetadata
