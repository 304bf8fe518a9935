/-
  ListingMetadata.Proofs.Document.Agreement
  ─────────────────────────────────────────
  **FETCHED OR BUILT, AN ORDERLY DOCUMENT READS THE SAME.**

  In an orderly document a request below a node finds the children of that node
  and no others, in their order.  So level by level the fetched tree gets the
  children that the built tree has, and their outlines are the same:

    • `Counterparts.child`                 — from a node to its children,
    • `Counterparts.outline_materializeTo` — one node, fetched and built,
    • `live_readsAs_built`                 — the whole document.
-/
import ListingMetadata.Proofs.Document.Live
import ListingMetadata.Proofs.Document.Pruning
import ListingMetadata.Proofs.Section.Outline

namespace ListingMetadata

/-! ## §1. Trees that read the same -/

/-- Two trees have the same snapshot, the same entities at the same paths, and
the same sections in either form under every context. -/
structure Entity.ReadsAs (e e' : Entity) : Prop where
  snapshot : e.snapshot = e'.snapshot
  census : e.census = e'.census
  format : ∀ kind mode context, format kind mode context [e] = format kind mode context [e']

/-- Trees with the same outline read the same. -/
theorem Entity.readsAs_of_outline_eq {e e' : Entity} (h : e.outline = e'.outline) :
    e.ReadsAs e' where
  snapshot := by rw [← snapshot_outline e, h, snapshot_outline]
  census := by rw [← census_outline e, h, census_outline]
  format kind mode context := by
    rw [← format_outline kind mode context e, h, format_outline]

namespace Document

open Entity

/-! ## §2. Requests below a node -/

/-- Among the entries, what lies below a node of a trail stands as the node
files it. -/
def Local (strict : Bool) (entries : List (Request × Document)) (p : String)
    (d : Document) : Prop :=
  ∀ k q, Kind.Over d.kind k → Onward p q →
    filed entries ⟨k, q⟩ = filed (indexedAll strict p d.children).value ⟨k, q⟩

theorem Local.child {strict : Bool} {entries : List (Request × Document)} {p : String}
    {d c : Document} (h : Local strict entries p d) (ho : Orderly strict d)
    (hc : c ∈ d.children) (hid : c.idIn strict ≠ "") :
    Local strict entries (p ++ ":" ++ c.idIn strict) c := by
  intro k q hk hq
  rw [h k q (hk.parent (ho.mem_childKinds hc)) hq.of_child]
  exact filed_indexedAll_child ho hc hid hq hk

/-- The children that an orderly node takes are told apart by their ids. -/
theorem replaceAll_taken {strict : Bool} {d : Document} (h : Orderly strict d) (k : Kind)
    {f : Document → Entity} (hk : ∀ c, (f c).kind = c.kind)
    (hi : ∀ c, (f c).id = c.idIn strict) :
    replaceAll [] ((d.taken strict k).map f) = (d.taken strict k).map f := by
  apply replaceAll_eq_append
  rw [List.nil_append, List.pairwise_map]
  have hdistinct : (d.taken strict k).Pairwise fun a b =>
      a.kind = b.kind → a.idIn strict = b.idIn strict → a.idIn strict = "" :=
    (h.distinct d (.here d)).filter _
  apply hdistinct.imp_of_mem
  intro a b ha _ hab hsame
  rw [hk, hk, hi, hi] at hsame
  exact (mem_taken.mp ha).2.2.2 (hab hsame.1 hsame.2)

/-- The children of a node that is built are the built children that it takes. -/
theorem resolved_build_of_orderly {strict : Bool} {d : Document} (h : Orderly strict d)
    (k : Kind) :
    (d.build strict).value.resolved k
      = (d.taken strict k).map fun c =>
          (c.build strict).value.placed (some (d.idIn strict)) none := by
  rw [resolved_build]
  apply replaceAll_taken h k
  · intro c
    rw [kind_placed, kind_build]
  · intro c
    rw [id_placed, id_build]

/-! ## §3. Fetched and built -/

/-- An entity to be fetched below and a built entity, both of one node: they
look alike by themselves, the first finds below its path what the node has
filed, and the second has the children that the node takes. -/
structure Counterparts (strict : Bool) (number : Nat) (root c : Document) (e b : Entity) :
    Prop where
  orderly : Orderly strict c
  bud : Bud number e
  kind : e.kind = c.kind
  path_ne : e.path ≠ ""
  filed : Local strict (root.files strict) e.path c
  head : b.head.settled = e.head.settled
  children : ∀ k, b.resolved k
    = (c.taken strict k).map fun x => (x.build strict).value.placed (some e.path) none

section Fetched

variable {strict : Bool} {number : Nat} {others : Sources} {root c : Document} {e b : Entity}

theorem Counterparts.kind_eq (h : Counterparts strict number root c e b) : b.kind = e.kind :=
  Head.kind_eq_of_settled h.head

/-- The children of counterparts are counterparts again. -/
theorem Counterparts.child (h : Counterparts strict number root c e b) {x : Document}
    (hx : x ∈ c.children) (hid : x.idIn strict ≠ "") :
    Counterparts strict number root x (x.bud strict number (some e.path))
      ((x.build strict).value.placed (some e.path) none) where
  orderly := h.orderly.child hx
  bud := bud_isBud strict number _ x
  kind := kind_bud strict number _ x
  path_ne := by
    rw [path_bud]
    exact Head.below_ne_empty _ hid
  filed := by
    -- the path of the child is its trail, so it finds what its node has filed
    rw [path_bud, Head.below_of_ne h.path_ne]
    exact h.filed.child h.orderly hx hid
  head := by
    rw [head_placed]
    exact Head.settled_placed_of_settled (Head.settled_of_core (core_build strict x)) _ _ _
  children j := by
    rw [resolved_placed, resolved_build_of_orderly (h.orderly.child hx), List.map_map]
    apply List.map_congr_left
    intro y _
    show ((y.build strict).value.placed _ none).placed _ none = _
    rw [placed_placed, path_bud, path_placed_some, id_build]

/-- So are the root of a document to be fetched and the built document. -/
theorem counterparts_root (ho : Orderly strict root) (hroot : root.idIn strict ≠ "") :
    Counterparts strict number root root (root.bud strict number none)
      (root.build strict).value where
  orderly := ho
  bud := bud_isBud strict number none root
  kind := kind_bud strict number none root
  path_ne := by
    rw [path_bud_none]
    exact hroot
  filed := by
    rw [path_bud_none]
    intro k q _ _
    rfl
  head := by
    rw [Head.settled_of_core (core_build strict root)]
    rfl
  children k := by
    rw [path_bud_none]
    exact resolved_build_of_orderly ho k

/-- **A request below a node brings the children that the node takes.** -/
theorem Counterparts.resolved_resolve (h : Counterparts strict number root c e b) {k : Kind}
    (hk : k ∈ e.kind.childKinds) :
    (e.resolve (root.amongSources strict number others) k).value.resolved k
      = (c.taken strict k).map (Document.bud strict number (some e.path)) := by
  have hover : Kind.Over c.kind k := .child (.refl c.kind) (h.kind ▸ hk)
  rw [amongSources, resolved_resolve_of_bud h.bud hk, h.filed k e.path hover (Or.inl rfl),
    filed_indexedAll_self, List.filter_filter, h.kind]
  have htaken : (c.children.filter fun x =>
      (decide (x.kind = k) && (c.kind.permits x.kind && decide (x.idIn strict ≠ "")))
        && decide (x.kind = k)) = c.taken strict k := by
    unfold taken
    apply List.filter_congr
    intro x _
    cases decide (x.kind = k) <;> simp
  rw [htaken]
  exact replaceAll_taken h.orderly k (kind_bud strict number _) (id_bud strict number _)

end Fetched

/-- **Materializing one of two counterparts leaves the outline of the other.** -/
theorem Counterparts.outline_materializeTo {strict : Bool} {number : Nat} {others : Sources}
    {root : Document} (c : Document) :
    ∀ (depth : Nat) {e b : Entity}, Counterparts strict number root c e b →
      c.kind.rank ≤ depth →
      (materializeTo (root.amongSources strict number others) depth e).value.outline
        = b.outline := by
  induction c using induct with
  | step c ih =>
    intro depth e b h hdepth
    have hsettled : (materializeTo (root.amongSources strict number others) depth
        e).value.head.settled = b.head.settled :=
      (Head.settled_of_core (core_materializeTo _ depth e)).trans h.head.symm
    rw [outline_eq, outline_eq, hsettled, kind_materializeTo, h.kind_eq]
    congr 1
    -- kind by kind, both trees have a child for each node that is taken
    apply List.flatMap_congr
    intro k hk
    have hrank := Kind.rank_lt_of_mem_childKinds hk
    rw [h.kind] at hrank
    obtain ⟨less, rfl⟩ : ∃ less, depth = less + 1 := ⟨depth - 1, by omega⟩
    rw [resolved_materializeTo_succ less h.bud.slotted (bringsInKind_amongSources h.bud) hk,
      h.resolved_resolve hk, h.children, List.map_map, List.map_map, List.map_map]
    apply List.map_congr_left
    intro x hx
    obtain ⟨hxc, hxk, -, hxi⟩ := mem_taken.mp hx
    have hless : x.kind.rank ≤ less := by
      rw [hxk]
      omega
    exact ih x hxc less (h.child hxc hxi) hless

/-- The fetched tree has the outline of the built one. -/
theorem outline_live {strict : Bool} {d : Document} (ho : Orderly strict d)
    (hroot : d.idIn strict ≠ "") (number : Nat) (others : Sources) :
    (d.live strict number others).outline = (d.build strict).value.outline := by
  rw [live_eq]
  exact (Counterparts.outline_materializeTo d d.kind.rank (counterparts_root ho hroot)
    (Nat.le_refl _))

/-- **Fetched and built, an orderly document reads the same.**  Nodes without an
id are in neither tree, and nothing that is below them. -/
theorem live_readsAs_built {strict : Bool} {d : Document} (ho : Orderly strict d)
    (hroot : d.idIn strict ≠ "") (number : Nat) (others : Sources) :
    (d.live strict number others).ReadsAs (d.build strict).value ∧
      ((d.pruned strict).live strict number others).ReadsAs (d.build strict).value ∧
      ((d.pruned strict).build strict).value = (d.build strict).value := by
  have hpruned := outline_live ho.pruned (by rw [idIn_pruned]; exact hroot) number others
  rw [build_pruned] at hpruned
  exact ⟨readsAs_of_outline_eq (outline_live ho hroot number others),
    readsAs_of_outline_eq hpruned, build_pruned strict d⟩

/-- A resource with a class that has a field, and a class without a name that has
one as well. -/
def halfNamed : Document :=
  mk .resource [("ResourceID", "Property")]
    [mk .propertyClass [("ClassName", "RES")] [mk .table [("SystemName", "ListPrice")] []],
      mk .propertyClass [] [mk .table [("SystemName", "ListDate")] []]]

/-- The class without a name and its field are in neither tree of this
resource. -/
theorem halfNamed_readsAs_built :
    Orderly false halfNamed ∧ halfNamed.idIn false ≠ "" ∧
      ((halfNamed.live false 0 []).ReadsAs (halfNamed.build false).value ∧
        ((halfNamed.pruned false).live false 0 []).ReadsAs (halfNamed.build false).value ∧
        ((halfNamed.pruned false).build false).value = (halfNamed.build false).value) ∧
      (halfNamed.build false).value.census
        = [(.resource, "Property"), (.propertyClass, "Property:RES"),
            (.table, "Property:RES:ListPrice")] := by
  have horderly : Orderly false halfNamed := by decide +kernel
  have hroot : halfNamed.idIn false ≠ "" := by decide +kernel
  exact ⟨horderly, hroot, live_readsAs_built horderly hroot 0 [], by decide +kernel⟩

end Document

end ListingMetadata
