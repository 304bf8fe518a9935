/-
  ListingMetadata.Proofs.Document.Live
  ────────────────────────────────────
  **THE TREE THAT IS FETCHED FROM A DOCUMENT.**

  A document can also be bound as a source and fetched from, kind by kind and
  level by level.  What the fetched tree then holds is told by the document
  alone:

      an entity of a kind and path has below it every node that is nested
      under a node with this path as its trail, if the kind permits it and it
      has an id.

  The two texts need not come from the same nodes, so a fetched tree can hold
  more than the built one, and less.
-/
import ListingMetadata.Proofs.Document.Building
import ListingMetadata.Proofs.Entity.Census
import ListingMetadata.Proofs.Source.Materializing

namespace ListingMetadata

namespace Document

open Entity

/-! ## §1. The fetched tree -/

/-- The tree of a document that is bound as the source of a number and fetched
whole, other sources being there as well. -/
def live (strict : Bool) (number : Nat) (others : Sources) (d : Document) : Entity :=
  let bound := (d.bind number strict).value
  (bound.2.materialize ((number, bound.1) :: others)).value

/-- What a document serves below an entity of a kind and path, the entity
included. -/
inductive Serves (strict : Bool) (d : Document) : Kind → String → Kind → String → Prop where
  | here (k : Kind) (p : String) : Serves strict d k p k p
  | down {k k' : Kind} {p q : String} {n c : Document} :
      Trail strict (d.idIn strict) d p n → c ∈ n.children →
      k.permits c.kind = true → c.idIn strict ≠ "" →
      Serves strict d c.kind (Head.below p (c.idIn strict)) k' q → Serves strict d k p k' q

/-- A document serves an entity of a kind and path somewhere below its root. -/
def Served (strict : Bool) (d : Document) (k : Kind) (p : String) : Prop :=
  Serves strict d d.kind (d.idIn strict) k p

theorem Serves.trans {strict : Bool} {d : Document} {k₁ k₂ k₃ : Kind} {p₁ p₂ p₃ : String}
    (h : Serves strict d k₁ p₁ k₂ p₂) (h' : Serves strict d k₂ p₂ k₃ p₃) :
    Serves strict d k₁ p₁ k₃ p₃ := by
  induction h with
  | here k p => exact h'
  | down ht hc hk hi _ ih => exact .down ht hc hk hi (ih h')

/-! ## §2. Entities before they are fetched below -/

/-- An entity of which nothing is fetched, bound to a source. -/
structure Bud (number : Nat) (e : Entity) : Prop where
  slots : e.head.slots = freshSlots e.kind
  source : e.head.source = some number

theorem Bud.slotted {number : Nat} {e : Entity} (h : Bud number e) : e.head.Slotted := by
  unfold Head.Slotted
  rw [h.slots]
  exact Head.slotted_fresh e.kind true (SharedLayout.builtin e.kind true)

theorem Bud.unfetched {number : Nat} {e : Entity} (h : Bud number e) {k : Kind}
    (hk : k ∈ e.kind.childKinds) : e.head.progress? k = some .unfetched :=
  Head.progress?_of_slots_eq h.slots hk

/-- The entity of a node, placed and bound. -/
def bud (strict : Bool) (number : Nat) (p : Option String) (c : Document) : Entity :=
  (c.seed strict).placed p (some number)

@[simp] theorem kind_bud (strict : Bool) (number : Nat) (p : Option String) (c : Document) :
    (c.bud strict number p).kind = c.kind := by
  unfold bud
  rw [kind_placed, kind_seed]

@[simp] theorem id_bud (strict : Bool) (number : Nat) (p : Option String) (c : Document) :
    (c.bud strict number p).id = c.idIn strict := by
  unfold bud
  rw [id_placed, id_seed]

@[simp] theorem path_bud (strict : Bool) (number : Nat) (p : String) (c : Document) :
    (c.bud strict number (some p)).path = Head.below p (c.idIn strict) :=
  path_placed_some _ p _

theorem bud_isBud (strict : Bool) (number : Nat) (p : Option String) (c : Document) :
    Bud number (c.bud strict number p) where
  slots := by
    rw [kind_bud]
    exact slots_head strict c
  source := rfl

/-! ## §3. What a document answers -/

section Answers

variable {strict : Bool} {number : Nat} {others : Sources}
  {entries : List (Request × Document)} {e : Entity}

theorem brought?_of_bud (h : Bud number e) (k : Kind) :
    e.brought? ((number, .document strict entries) :: others) k
      = some ((filed entries ⟨k, e.path⟩).map fun c => (c.leaf strict).value) := by
  have hsource : Sources.source? ((number, .document strict entries) :: others) number
      = some (.document strict entries) := by
    unfold Sources.source?
    exact List.lookup_cons_self
  unfold brought?
  rw [h.source, Option.bind_some, hsource]
  show some (Logged.each _ _).value = _
  rw [Logged.value_each]

/-- Every node is filed under its own kind. -/
def FiledByKind (entries : List (Request × Document)) : Prop :=
  ∀ r c, (r, c) ∈ entries → c.kind = r.kind

theorem filedByKind_indexedAll (strict : Bool) (p : String) (d : Document) :
    FiledByKind (indexedAll strict p d.children).value := by
  intro r c h
  obtain ⟨n, -, -, hk⟩ := (mem_indexedAll d).mp h
  exact hk

theorem bringsInKind_of_bud (hf : FiledByKind entries) (h : Bud number e) :
    e.BringsInKind ((number, .document strict entries) :: others) := by
  intro k found hb c hc
  rw [brought?_of_bud h] at hb
  obtain ⟨b, hb', rfl⟩ := List.mem_map.mp (Option.some.inj hb ▸ hc)
  rw [value_leaf, kind_seed]
  exact hf _ _ (mem_filed.mp hb')

/-- The children of a kind that are fetched below an entity: those filed under
its path that may stand there. -/
theorem resolved_resolve_of_bud (h : Bud number e) {k : Kind} (hk : k ∈ e.kind.childKinds) :
    (e.resolve ((number, .document strict entries) :: others) k).value.resolved k
      = replaceAll []
          (((filed entries ⟨k, e.path⟩).filter fun c =>
              decide (c.kind = k) && (e.kind.permits c.kind && decide (c.idIn strict ≠ ""))).map
            (bud strict number (some e.path))) := by
  rw [resolved_resolve_self h.slotted (h.unfetched hk) (brought?_of_bud h k), h.source,
    List.filter_map, List.map_map]
  simp only [value_leaf, Function.comp_def]
  congr 2
  apply List.filter_congr
  intro c _
  unfold accepts
  rw [kind_seed, id_seed]

end Answers

/-! ## §4. The census of a fetched tree -/

/-- What a document files as a source. -/
def files (strict : Bool) (d : Document) : List (Request × Document) :=
  (indexedAll strict (d.idIn strict) d.children).value

theorem mem_files {strict : Bool} {d c : Document} {r : Request} :
    (r, c) ∈ d.files strict ↔
      ∃ n, Trail strict (d.idIn strict) d r.path n ∧ c ∈ n.children ∧ c.kind = r.kind :=
  mem_indexedAll d

/-- A document alone among the sources, and other sources. -/
def amongSources (strict : Bool) (number : Nat) (others : Sources) (d : Document) : Sources :=
  (number, .document strict (d.files strict)) :: others

@[simp] theorem path_bud_none (strict : Bool) (number : Nat) (c : Document) :
    (c.bud strict number none).path = c.idIn strict :=
  path_head strict c

theorem live_eq (strict : Bool) (number : Nat) (others : Sources) (d : Document) :
    d.live strict number others
      = (materializeTo (d.amongSources strict number others) d.kind.rank
          (d.bud strict number none)).value := by
  unfold live materialize bind amongSources files
  simp only [Logged.value_bind, Logged.value_pure, value_leaf, path_seed]
  show (materializeTo _ (d.bud strict number none).kind.rank (d.bud strict number none)).value = _
  rw [kind_bud]

section Fetched

variable {strict : Bool} {number : Nat} {others : Sources} {d : Document} {e : Entity}

theorem bringsInKind_amongSources (h : Bud number e) :
    e.BringsInKind (d.amongSources strict number others) :=
  bringsInKind_of_bud (filedByKind_indexedAll strict (d.idIn strict) d) h

/-- What is fetched below an entity are nodes nested under its path. -/
theorem exists_of_mem_fetched (h : Bud number e) {k : Kind} (hk : k ∈ e.kind.childKinds)
    {y : Entity}
    (hy : y ∈ (e.resolve (d.amongSources strict number others) k).value.resolved k) :
    ∃ n c, Trail strict (d.idIn strict) d e.path n ∧ c ∈ n.children ∧ c.kind = k ∧
      e.kind.permits c.kind = true ∧ c.idIn strict ≠ "" ∧
      y = c.bud strict number (some e.path) := by
  rw [amongSources, resolved_resolve_of_bud h hk] at hy
  rcases mem_replaceAll hy with hy | hy
  · cases hy
  obtain ⟨c, hc, rfl⟩ := List.mem_map.mp hy
  rw [List.mem_filter, mem_filed, mem_files, Bool.and_eq_true, Bool.and_eq_true,
    decide_eq_true_eq, decide_eq_true_eq] at hc
  obtain ⟨⟨n, ht, hn, -⟩, hck, hp, hi⟩ := hc
  exact ⟨n, c, ht, hn, hck, hp, hi, rfl⟩

variable (others) in
/-- Every node nested under the path of an entity that may stand there is
fetched below it, or a namesake is. -/
theorem exists_fetched_of_trail (h : Bud number e) {n c : Document}
    (ht : Trail strict (d.idIn strict) d e.path n) (hn : c ∈ n.children)
    (hp : e.kind.permits c.kind = true) (hi : c.idIn strict ≠ "") :
    ∃ b : Document, b.kind = c.kind ∧ b.idIn strict = c.idIn strict ∧
      b.bud strict number (some e.path) ∈
        (e.resolve (d.amongSources strict number others) c.kind).value.resolved c.kind := by
  have hmem : c.bud strict number (some e.path) ∈
      ((filed (d.files strict) ⟨c.kind, e.path⟩).filter fun b =>
        decide (b.kind = c.kind) && (e.kind.permits b.kind && decide (b.idIn strict ≠ ""))).map
        (bud strict number (some e.path)) := by
    apply List.mem_map_of_mem
    rw [List.mem_filter, mem_filed, mem_files]
    exact ⟨⟨n, ht, hn, rfl⟩, by simp [hp, hi]⟩
  obtain ⟨y, hy, hyk, hyi⟩ := @exists_mem_replaceAll [] _ _ (Or.inr hmem)
  rw [amongSources, resolved_resolve_of_bud h (Kind.permits_iff.mp hp)]
  rcases mem_replaceAll hy with hy' | hy'
  · cases hy'
  obtain ⟨b, -, rfl⟩ := List.mem_map.mp hy'
  rw [kind_bud, kind_bud] at hyk
  rw [id_bud, id_bud] at hyi
  exact ⟨b, hyk, hyi, hy⟩

end Fetched

/-- The entities of a materialized tree are those that the document serves below
its root. -/
theorem mem_census_materializeTo {strict : Bool} {number : Nat} (others : Sources) (d : Document)
    (depth : Nat) :
    ∀ {e : Entity}, Bud number e → e.kind.rank ≤ depth → ∀ {k : Kind} {q : String},
      (k, q) ∈ (materializeTo (d.amongSources strict number others) depth e).value.census ↔
        Serves strict d e.kind e.path k q := by
  -- on the depth; an entity and the document hand on the same kind and path
  induction depth with
  | zero =>
    intro e _ hr k q
    -- a kind of rank zero has no children, whoever asks
    have hnone : ∀ c : Kind, c ∉ e.kind.childKinds := by
      intro c hc
      have hlt := Kind.rank_lt_of_mem_childKinds hc
      omega
    show (k, q) ∈ e.census ↔ _
    rw [mem_census]
    constructor
    · rintro (h | ⟨c, hc, -⟩)
      · cases h
        exact .here _ _
      · exact absurd hc (hnone c)
    · intro h
      cases h with
      | here => exact Or.inl rfl
      | down _ _ hk _ _ => exact absurd (Kind.permits_iff.mp hk) (hnone _)
  | succ depth ih =>
    intro e hbud hr k q
    have hin : e.BringsInKind (d.amongSources strict number others) :=
      bringsInKind_amongSources hbud
    rw [mem_census, kind_materializeTo, path_materializeTo]
    constructor
    · rintro (h | ⟨j, hj, c, hc, hx⟩)
      · cases h
        exact .here _ _
      · rw [resolved_materializeTo_succ depth hbud.slotted hin hj] at hc
        obtain ⟨y, hy, rfl⟩ := List.mem_map.mp hc
        obtain ⟨n, b, ht, hn, rfl, hp, hi, rfl⟩ := exists_of_mem_fetched hbud hj hy
        have hrank := Kind.rank_lt_of_mem_childKinds hj
        have hs := (ih (bud_isBud strict number _ b) (by rw [kind_bud]; omega)).mp hx
        rw [kind_bud, path_bud] at hs
        exact .down ht hn hp hi hs
    · intro h
      cases h with
      | here => exact Or.inl rfl
      | @down _ _ _ _ n c ht hn hp hi hs =>
        right
        have hj : c.kind ∈ e.kind.childKinds := Kind.permits_iff.mp hp
        have hrank := Kind.rank_lt_of_mem_childKinds hj
        obtain ⟨b, hbk, hbi, hb⟩ := exists_fetched_of_trail others hbud ht hn hp hi
        refine ⟨c.kind, hj, _, ?_, (ih (bud_isBud strict number (some e.path) b) ?_).mpr ?_⟩
        · rw [resolved_materializeTo_succ depth hbud.slotted hin hj]
          exact List.mem_map_of_mem hb
        · rw [kind_bud, hbk]
          omega
        · rw [kind_bud, path_bud, hbk, hbi]
          exact hs

/-- **The entities of the fetched tree, by kind and path.** -/
theorem mem_census_live {strict : Bool} {number : Nat} {others : Sources} {d : Document}
    {k : Kind} {q : String} :
    (k, q) ∈ (d.live strict number others).census ↔ d.Served strict k q := by
  have hrank : (d.bud strict number none).kind.rank ≤ d.kind.rank :=
    Nat.le_of_eq (congrArg Kind.rank (kind_bud strict number none d))
  rw [live_eq, mem_census_materializeTo others d _ (bud_isBud strict number none d) hrank,
    kind_bud, path_bud_none]
  rfl

end Document

end ListingMetadata
