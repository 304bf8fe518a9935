/-
  ListingMetadata.Proofs.Document.Filing
  ──────────────────────────────────────
  **WHERE A DOCUMENT FILES ITS NODES.**

  As a source, a document files each of its nodes under the trail of the node
  above it.  The trail of a node is that of the node above it, a colon and its
  own id, whatever the two are; the trail of the root is its id.

    • `mem_indexedAll`  — the files hold the nodes below a node and no others,
    • `value_leaf`      — a node alone, as an entity.
-/
import ListingMetadata.Proofs.Entity.Attributes
import ListingMetadata.Proofs.Entity.Placing
import ListingMetadata.Source.Basic

namespace ListingMetadata.Document

/-! ## §1. A node alone -/

/-- The head of a node's entity, before it is placed. -/
def head (strict : Bool) (d : Document) : Head :=
  (Head.ofWire strict d.kind d.attributes).value

/-- The id of a node; it may be empty. -/
def idIn (strict : Bool) (d : Document) : String :=
  (d.head strict).id

theorem frame_head (strict : Bool) (d : Document) :
    (d.head strict).frame = (d.kind, strict, none, freshSlots d.kind, none) :=
  Head.frame_setAll _ _

theorem kind_head (strict : Bool) (d : Document) : (d.head strict).kind = d.kind :=
  congrArg (fun f => f.1) (frame_head strict d)

theorem slots_head (strict : Bool) (d : Document) : (d.head strict).slots = freshSlots d.kind :=
  congrArg (fun f => f.2.2.2.1) (frame_head strict d)

theorem parentPath_head (strict : Bool) (d : Document) : (d.head strict).parentPath = none :=
  congrArg (fun f => f.2.2.1) (frame_head strict d)

/-- The path of a root is its id. -/
theorem path_head (strict : Bool) (d : Document) : (d.head strict).path = d.idIn strict := by
  unfold Head.path
  rw [parentPath_head]
  exact Head.below_empty _

theorem slotted_head (strict : Bool) (d : Document) : (d.head strict).Slotted := by
  unfold Head.Slotted
  rw [slots_head, kind_head]
  exact Head.slotted_fresh d.kind strict (SharedLayout.builtin d.kind strict)

/-- The entity of a node without its children. -/
def seed (strict : Bool) (d : Document) : Entity :=
  Entity.mk (d.head strict) []

theorem value_leaf (strict : Bool) (d : Document) : (d.leaf strict).value = d.seed strict := by
  cases d
  rfl

@[simp] theorem kind_seed (strict : Bool) (d : Document) : (d.seed strict).kind = d.kind :=
  kind_head strict d

@[simp] theorem id_seed (strict : Bool) (d : Document) :
    (d.seed strict).id = d.idIn strict := rfl

@[simp] theorem path_seed (strict : Bool) (d : Document) :
    (d.seed strict).path = d.idIn strict :=
  path_head strict d

theorem slotted_seed (strict : Bool) (d : Document) : (d.seed strict).head.Slotted :=
  slotted_head strict d

theorem source_seed (strict : Bool) (d : Document) : (d.seed strict).head.source = none :=
  congrArg (fun f => f.2.2.2.2) (frame_head strict d)

/-- Nothing is resolved below a node alone. -/
theorem resolved_seed (strict : Bool) (d : Document) (k : Kind) :
    (d.seed strict).resolved k = [] := by
  rw [List.eq_nil_iff_forall_not_mem]
  intro c hc
  cases (Entity.mem_resolved.mp hc).2.1

/-! ## §2. Induction over a document -/

mutual

/-- What holds of a document when it holds of its children holds of every
document. -/
theorem induct {P : Document → Prop} (step : ∀ d, (∀ c ∈ d.children, P c) → P d) :
    ∀ d : Document, P d
  | mk k as cs => step (mk k as cs) (inductAll step cs)

theorem inductAll {P : Document → Prop} (step : ∀ d, (∀ c ∈ d.children, P c) → P d) :
    ∀ cs : List Document, ∀ c ∈ cs, P c
  | [], _, hc => by cases hc
  | d :: ds, c, hc => by
    rcases List.mem_cons.mp hc with h | h
    · rw [h]
      exact induct step d
    · exact inductAll step ds c h

end

/-! ## §3. Trails -/

/-- The second node is the first or lies below it, and the second text is its
trail if the first is the trail of the first. -/
inductive Trail (strict : Bool) : String → Document → String → Document → Prop where
  | here (p : String) (d : Document) : Trail strict p d p d
  | down {p q : String} {d c n : Document} :
      c ∈ d.children → Trail strict (p ++ ":" ++ c.idIn strict) c q n → Trail strict p d q n

/-- A trail goes on to the children of its end. -/
theorem Trail.child {strict : Bool} {p q : String} {d n c : Document} (h : Trail strict p d q n)
    (hc : c ∈ n.children) : Trail strict p d (q ++ ":" ++ c.idIn strict) c := by
  induction h with
  | here p d => exact .down hc (.here _ c)
  | down hd _ ih => exact .down hd (ih hc)

/-- A trail begins with the one that it goes on from. -/
theorem Trail.eq_or_append {strict : Bool} {p q : String} {d n : Document}
    (h : Trail strict p d q n) : q = p ∨ ∃ r, q = p ++ ":" ++ r := by
  induction h with
  | here p d => exact Or.inl rfl
  | @down p q d c n hc _ ih =>
    right
    rcases ih with ih | ⟨r, ih⟩
    · exact ⟨_, ih⟩
    · refine ⟨c.idIn strict ++ ":" ++ r, ?_⟩
      rw [ih]
      simp only [String.append_assoc]

/-! ## §4. The files -/

theorem value_indexedAll_cons (strict : Bool) (p : String) (d : Document) (ds : List Document) :
    (indexedAll strict p (d :: ds)).value
      = [(⟨d.kind, p⟩, d)] ++ (indexedAll strict (p ++ ":" ++ d.idIn strict) d.children).value
        ++ (indexedAll strict p ds).value := by
  cases d
  rfl

theorem mem_indexedAll_iff {strict : Bool} {p : String} {ds : List Document}
    {entry : Request × Document} :
    entry ∈ (indexedAll strict p ds).value ↔ ∃ d ∈ ds, entry = (⟨d.kind, p⟩, d) ∨
      entry ∈ (indexedAll strict (p ++ ":" ++ d.idIn strict) d.children).value := by
  induction ds with
  | nil =>
    constructor
    · intro h
      cases h
    · rintro ⟨d, hd, -⟩
      cases hd
  | cons d ds ih =>
    rw [value_indexedAll_cons, List.mem_append, List.mem_append, List.mem_singleton, ih]
    simp only [List.mem_cons, exists_eq_or_imp]

/-- **The files of a document.**  What is filed below a node is each node below
it, under the trail of the node above that one. -/
theorem mem_indexedAll {strict : Bool} (d : Document) :
    ∀ {p : String} {r : Request} {c : Document},
      (r, c) ∈ (indexedAll strict p d.children).value ↔
        ∃ n, Trail strict p d r.path n ∧ c ∈ n.children ∧ c.kind = r.kind := by
  induction d using induct with
  | step d ih =>
    intro p r c
    rw [mem_indexedAll_iff]
    -- an entry is a child, under the trail itself, or comes from below a child
    constructor
    · rintro ⟨b, hb, he | hd⟩
      · cases he
        exact ⟨d, .here p d, hb, rfl⟩
      · obtain ⟨n, ht, hc, hk⟩ := (ih b hb).mp hd
        exact ⟨n, .down hb ht, hc, hk⟩
    · rintro ⟨n, ht, hc, hk⟩
      cases ht with
      | here =>
        refine ⟨c, hc, Or.inl ?_⟩
        rw [hk]
      | down hb ht => exact ⟨_, hb, Or.inr ((ih _ hb).mpr ⟨n, ht, hc, hk⟩)⟩

theorem mem_filed {α : Type} {entries : List (Request × α)} {r : Request} {x : α} :
    x ∈ filed entries r ↔ (r, x) ∈ entries := by
  unfold filed
  rw [List.mem_map]
  constructor
  · rintro ⟨⟨r', x'⟩, he, rfl⟩
    obtain ⟨hm, hr⟩ := List.mem_filter.mp he
    rw [← of_decide_eq_true hr]
    exact hm
  · intro hm
    exact ⟨(r, x), List.mem_filter.mpr ⟨hm, by simp⟩, rfl⟩

end ListingMetadata.Document
