/-
  ListingMetadata.Proofs.Document.Pruning
  ───────────────────────────────────────
  **NODES WITHOUT AN ID, AND ALL BELOW THEM.**

  A node without an id cannot be told from its siblings, so no entity is made
  of it.  The pruned document is the document without such nodes and all that
  is below them; it builds into the same tree.
-/
import ListingMetadata.Proofs.Document.Building
import ListingMetadata.Proofs.Document.Locality

namespace ListingMetadata.Document

open Entity

/-! ## §1. Pruning -/

mutual

/-- A document without the nodes below its root that have no id. -/
def pruned (strict : Bool) : Document → Document
  | mk k as cs => mk k as (prunedAll strict cs)

/-- Of siblings those that have an id, without the nodes below them that have
none. -/
def prunedAll (strict : Bool) : List Document → List Document
  | [] => []
  | c :: cs =>
    if c.idIn strict = "" then prunedAll strict cs
    else c.pruned strict :: prunedAll strict cs

end

theorem prunedAll_eq (strict : Bool) (cs : List Document) :
    prunedAll strict cs
      = (cs.filter fun c => decide (c.idIn strict ≠ "")).map (pruned strict) := by
  induction cs with
  | nil => rfl
  | cons c cs ih =>
    unfold prunedAll
    by_cases h : c.idIn strict = ""
    · rw [if_pos h, List.filter_cons_of_neg (by simp [h]), ih]
    · rw [if_neg h, List.filter_cons_of_pos (by simp [h]), List.map_cons, ih]

theorem children_pruned (strict : Bool) (d : Document) :
    (d.pruned strict).children
      = (d.children.filter fun c => decide (c.idIn strict ≠ "")).map (pruned strict) := by
  cases d with
  | mk k as cs => exact prunedAll_eq strict cs

@[simp] theorem kind_pruned (strict : Bool) (d : Document) :
    (d.pruned strict).kind = d.kind := by
  cases d
  rfl

@[simp] theorem head_pruned (strict : Bool) (d : Document) :
    (d.pruned strict).head strict = d.head strict := by
  cases d
  rfl

@[simp] theorem idIn_pruned (strict : Bool) (d : Document) :
    (d.pruned strict).idIn strict = d.idIn strict := by
  unfold idIn
  rw [head_pruned]

theorem mem_children_pruned {strict : Bool} {d x : Document} :
    x ∈ (d.pruned strict).children ↔
      ∃ c ∈ d.children, c.idIn strict ≠ "" ∧ x = c.pruned strict := by
  rw [children_pruned, List.mem_map]
  simp only [List.mem_filter, decide_eq_true_eq]
  constructor
  · rintro ⟨c, ⟨hc, hi⟩, rfl⟩
    exact ⟨c, hc, hi, rfl⟩
  · rintro ⟨c, hc, hi, rfl⟩
    exact ⟨c, ⟨hc, hi⟩, rfl⟩

/-! ## §2. What is built of a pruned document -/

/-- A tree without an id is passed over. -/
theorem offered_of_id_empty (e : Entity) {child : Entity} (h : child.id = "") :
    e.offered child = e := by
  apply offered_of_not_accepts
  unfold accepts
  simp [h]

/-- **Nodes without an id, and all below them, leave no trace in the tree.** -/
theorem build_pruned (strict : Bool) (d : Document) :
    ((d.pruned strict).build strict).value = (d.build strict).value := by
  induction d using induct with
  | step d ih =>
    have hseed : (d.pruned strict).seed strict = d.seed strict := by
      unfold seed
      rw [head_pruned]
    -- a child without an id is passed over wherever it stands among the others
    have hskip : ∀ (cs : List Document) (e : Entity), (∀ c ∈ cs, c ∈ d.children) →
        (((cs.filter fun c => decide (c.idIn strict ≠ "")).map (pruned strict)).map
          fun c => (c.build strict).value).foldl offered e
        = (cs.map fun c => (c.build strict).value).foldl offered e := by
      intro cs
      induction cs with
      | nil =>
        intro e _
        rfl
      | cons c cs ihs =>
        intro e hcs
        have hrest := fun e => ihs e fun b hb => hcs b (List.mem_cons_of_mem _ hb)
        rw [List.map_cons, List.foldl_cons]
        by_cases h : c.idIn strict = ""
        · rw [List.filter_cons_of_neg (by simp [h]), hrest, offered_of_id_empty e (by simp [h])]
        · rw [List.filter_cons_of_pos (by simp [h]), List.map_cons, List.map_cons,
            List.foldl_cons, ih c (hcs c List.mem_cons_self), hrest]
    rw [value_build, value_build, hseed, children_pruned]
    exact hskip d.children _ fun _ hc => hc

/-! ## §3. Pruning keeps order -/

theorem exists_of_within_pruned {strict : Bool} (d : Document) :
    ∀ {x : Document}, Within x (d.pruned strict) → ∃ n, Within n d ∧ x = n.pruned strict := by
  induction d using induct with
  | step d ih =>
    intro x hx
    cases hx with
    | here => exact ⟨d, .here d, rfl⟩
    | down hy hx =>
      obtain ⟨c, hc, -, rfl⟩ := mem_children_pruned.mp hy
      obtain ⟨n, hn, rfl⟩ := ih c hc hx
      exact ⟨n, .down hc hn, rfl⟩

theorem Orderly.pruned {strict : Bool} {d : Document} (h : Orderly strict d) :
    Orderly strict (d.pruned strict) where
  permitted x hx := by
    obtain ⟨n, hn, rfl⟩ := exists_of_within_pruned d hx
    intro b hb
    obtain ⟨c, hc, -, rfl⟩ := mem_children_pruned.mp hb
    rw [kind_pruned, kind_pruned]
    exact h.permitted n hn c hc
  colonless x hx := by
    obtain ⟨n, hn, rfl⟩ := exists_of_within_pruned d hx
    rw [idIn_pruned]
    exact h.colonless n hn
  distinct x hx := by
    obtain ⟨n, hn, rfl⟩ := exists_of_within_pruned d hx
    rw [children_pruned, List.pairwise_map]
    simp only [kind_pruned, idIn_pruned]
    exact (h.distinct n hn).filter _

end ListingMetadata.Document
