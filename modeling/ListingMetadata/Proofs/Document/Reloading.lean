/-
  ListingMetadata.Proofs.Document.Reloading
  ─────────────────────────────────────────
  **A SNAPSHOT IS BUILT INTO THE TREE THAT IT WAS TAKEN OF.**

  A document may hold attributes under names in any case, texts that no grammar
  takes, children that may not stand where they do, and several under one id.
  What building makes of it, the snapshot of the tree holds in canonical form,
  the children kind by kind; so building the snapshot makes the same tree.

    • `Entity.Matches`       — trees that are the same, kind by kind,
    • `head_snapshot`        — what the root of a snapshot holds on its own,
    • `resolved_rebuilt`     — no child is lost, and none moves among its kind,
    • `progress?_rebuilt`    — the same kinds of children are left open,
    • `matches_rebuilt`      — the snapshot's tree, by induction on the document,
    • `snapshot_reloads`     — the tree and its snapshot.
-/
import ListingMetadata.Proofs.Entity.Outline
import ListingMetadata.Proofs.Entity.Rereading
import ListingMetadata.Proofs.Entity.WellFormed

namespace ListingMetadata

open Calendar Text

namespace Entity

/-! ## §1. Trees that match -/

/-- The entities are of one kind, id and path, declare the same names, have the same
values, texts and undeclared texts, know as much about their children of each kind,
and these match one by one. -/
inductive Matches : Entity → Entity → Prop where
  | intro {e e' : Entity} (kind : e.kind = e'.kind) (id : e.id = e'.id) (path : e.path = e'.path)
      (names : e.head.knownNames = e'.head.knownNames)
      (value : ∀ name, e.head.value? name = e'.head.value? name)
      (text : ∀ name, e.head.text? name = e'.head.text? name)
      (extras : e.head.extras = e'.head.extras)
      (state : ∀ k, e.state? k = e'.state? k)
      (children : ∀ k, List.Forall₂ Matches (e.resolved k) (e'.resolved k)) : Matches e e'

/-- Entities match that differ but in their progress, if they know as much about
their children and these match. -/
theorem matches_of_core {e e' : Entity} (hcore : e.head.core = e'.head.core)
    (hp : ∀ k, e.head.progress? k = e'.head.progress? k)
    (hc : ∀ k, List.Forall₂ Matches (e.resolved k) (e'.resolved k)) : e.Matches e' := by
  obtain ⟨h, cs⟩ := e
  obtain ⟨h', cs'⟩ := e'
  have hstate : ∀ k, (mk h cs).state? k = (mk h' cs').state? k := by
    intro k
    unfold state?
    rw [hp k, (hc k).length_eq]
  exact .intro (Head.kind_eq_of_core hcore) (Head.id_eq_of_core hcore)
    (Head.path_eq_of_core hcore) (Head.eq_of_core hcore Head.knownNames fun _ => rfl)
    (fun name => Head.eq_of_core hcore (·.value? name) fun _ => rfl)
    (fun name => Head.eq_of_core hcore (·.text? name) fun _ => rfl)
    (Head.eq_of_core hcore Head.extras fun _ => rfl) hstate hc

@[simp] theorem state?_placed (e : Entity) (p : Option String) (s : Option Nat) (k : Kind) :
    (e.placed p s).state? k = e.state? k := by
  unfold state?
  rw [resolved_placed, List.length_map, head_placed]
  rfl

theorem Matches.children {e e' : Entity} (h : e.Matches e') (k : Kind) :
    List.Forall₂ (fun c c' => c ∈ e.children ∧ c.Matches c') (e.resolved k) (e'.resolved k) := by
  obtain ⟨-, -, -, -, -, -, -, -, hchildren⟩ := h
  exact (List.forall₂_and_left _ _).mpr ⟨fun c hc => (mem_resolved.mp hc).2.1, hchildren k⟩

/-- Where trees that match are placed, they match. -/
theorem Matches.placed {e e' : Entity} (h : e.Matches e') (p : String) (s s' : Option Nat) :
    (e.placed (some p) s).Matches (e'.placed (some p) s') := by
  induction e using induct generalizing e' p with
  | step head cs ih =>
    have hchildren := h.children
    obtain ⟨hkind, hid, -, hnames, hvalue, htext, hextras, hstate, -⟩ := h
    -- the path below another entity depends on the id alone, not on the path before
    have hplace : ((mk head cs).placed (some p) s).path = (e'.placed (some p) s').path := by
      rw [path_placed_some, path_placed_some, hid]
    refine .intro ?_ ?_ hplace ?_ ?_ ?_ ?_ ?_ ?_
    · rw [kind_placed, kind_placed, hkind]
    · rw [id_placed, id_placed, hid]
    · rw [head_placed, head_placed]
      exact hnames
    · rw [head_placed, head_placed]
      exact hvalue
    · rw [head_placed, head_placed]
      exact htext
    · rw [head_placed, head_placed]
      exact hextras
    · intro k
      rw [state?_placed, state?_placed, hstate]
    · intro k
      rw [resolved_placed, resolved_placed, hplace, List.forall₂_map_left_iff,
        List.forall₂_map_right_iff]
      exact (hchildren k).imp fun c c' ⟨hc, hmatches⟩ => ih c hc hmatches _

/-- Trees that match have the same snapshot. -/
theorem Matches.snapshot_eq {e e' : Entity} (h : e.Matches e') : e.snapshot = e'.snapshot := by
  induction e using induct generalizing e' with
  | step head cs ih =>
    have hchildren := h.children
    obtain ⟨hkind, -, -, hnames, -, htext, hextras, -, -⟩ := h
    have hwire : (mk head cs).head.wire = e'.head.wire := by
      unfold Head.wire
      rw [hnames, hextras]
      simp only [htext]
    rw [Entity.snapshot_eq, Entity.snapshot_eq, hkind, hwire]
    congr 1
    apply List.flatMap_congr
    intro k _
    rw [← List.forall₂_eq_eq_eq, List.forall₂_map_left_iff, List.forall₂_map_right_iff]
    exact (hchildren k).imp fun c c' ⟨hc, hmatches⟩ => ih c hc hmatches

/-- A snapshot does not tell where the tree is placed. -/
theorem snapshot_placed (e : Entity) :
    ∀ (p : Option String) (s : Option Nat), (e.placed p s).snapshot = e.snapshot := by
  induction e using induct with
  | step h cs ih =>
    intro p s
    rw [snapshot_eq, snapshot_eq, kind_placed, head_placed]
    congr 1
    apply List.flatMap_congr
    intro k _
    rw [resolved_placed, List.map_map]
    apply List.map_congr_left
    intro c hc
    exact ih c (mem_resolved.mp hc).2.1 _ s

/-! ## §2. Plain dates -/

/-- No date in the tree has a year of less or more than four digits. -/
def PlainDates (e : Entity) : Prop :=
  ∀ x, Within x e → x.head.PlainDates

theorem PlainDates.child {e c : Entity} {k : Kind} (h : e.PlainDates) (hc : c ∈ e.resolved k) :
    c.PlainDates :=
  fun x hx => h x (.down hc hx)

/-- What is within a tree is within the placed tree, placed itself. -/
theorem Within.placed {x e : Entity} (h : Within x e) (s : Option Nat) :
    ∀ p, ∃ q, Within (x.placed q s) (e.placed p s) := by
  induction h with
  | here => exact fun p => ⟨p, .here _⟩
  | @down c e k hc _ ih =>
    intro p
    obtain ⟨q, hq⟩ := ih (some (e.placed p s).path)
    refine ⟨q, .down (k := k) ?_ hq⟩
    rw [resolved_placed]
    exact List.mem_map_of_mem hc

theorem PlainDates.of_placed {e : Entity} {p : Option String} {s : Option Nat}
    (h : (e.placed p s).PlainDates) : e.PlainDates := by
  intro x hx
  obtain ⟨q, hq⟩ := hx.placed s p
  have hplain := h _ hq
  rw [head_placed] at hplain
  exact hplain

/-- The dates of an entity and of all below it are plain. -/
def hasPlainDates : Entity → Bool :=
  fold fun h results => decide h.PlainDates && results.all Prod.snd

theorem plainDates_of_hasPlainDates {e : Entity} (h : e.hasPlainDates = true) : e.PlainDates := by
  intro x hx
  induction hx with
  | here =>
    unfold hasPlainDates at h
    rw [fold_eq, Bool.and_eq_true, decide_eq_true_eq] at h
    exact h.1
  | @down c e k hc _ ih =>
    unfold hasPlainDates at h
    rw [fold_eq, foldAll_eq_map, Bool.and_eq_true, List.all_map, List.all_eq_true] at h
    exact ih (h.2 c (mem_resolved.mp hc).2.1)

end Entity

namespace Document

open Entity

/-! ## §3. What building leaves open -/

/-- A kind without children in the built tree is as in a fresh one. -/
theorem progress?_build_of_childless {strict : Bool} {d : Document} {k : Kind}
    (h : (d.build strict).value.resolved k = []) :
    (d.build strict).value.head.progress? k = (d.head strict).progress? k := by
  rw [value_build]
  apply progress?_foldl_offered_of_not_accepts
  intro e he hk
  obtain ⟨c, hc, rfl⟩ := List.mem_map.mp he
  rw [kind_build] at hk
  by_contra ha
  rw [Bool.not_eq_false, accepts_iff, kind_build, id_build, kind_seed] at ha
  -- a child that is accepted leaves one of its id among the resolved ones
  rw [resolved_build] at h
  have hc' : c ∈ d.taken strict k := mem_taken.mpr ⟨hc, hk, ha⟩
  obtain ⟨y, hy, -⟩ := exists_mem_replaceAll (.inr (List.mem_map_of_mem hc'))
  rw [h] at hy
  cases hy

theorem progress?_of_resolved_ne_nil {e : Entity} {k : Kind} (h : e.resolved k ≠ []) :
    e.head.progress? k = some .fetched := by
  by_contra hp
  exact h (resolved_of_not_fetched hp)

/-! ## §4. Snapshots of built trees -/

section Rebuilt

variable {strict : Bool} {d : Document}

/-- **The head of a snapshot is the head that was built.** -/
theorem head_snapshot (hd : (d.build strict).value.PlainDates) :
    (d.build strict).value.snapshot.head strict = d.head strict := by
  have hcore := core_build strict d
  have hplain : (d.head strict).PlainDates := by
    rw [← Head.eq_of_core hcore Head.PlainDates fun _ => rfl]
    exact hd _ (.here _)
  rw [snapshot_eq, head]
  show (Head.ofWire strict (d.build strict).value.kind _).value = _
  rw [kind_build, Head.eq_of_core hcore Head.wire fun _ => rfl]
  exact Head.ofWire_wire hplain

/-- A child of a built tree comes of a document whose tree has plain dates, too. -/
theorem exists_of_mem_resolved (hd : (d.build strict).value.PlainDates) {k : Kind} {e : Entity}
    (he : e ∈ (d.build strict).value.resolved k) :
    ∃ c ∈ d.children, e = (c.build strict).value.placed (some (d.idIn strict)) none
      ∧ (c.build strict).value.PlainDates := by
  obtain ⟨c, hc, rfl⟩ := mem_resolved_build he
  exact ⟨c, (mem_taken.mp hc).1, rfl, (hd.child he).of_placed⟩

/-- The snapshot of a child has the id of the child. -/
theorem idIn_snapshot (hd : (d.build strict).value.PlainDates) {k : Kind} {e : Entity}
    (he : e ∈ (d.build strict).value.resolved k) : e.snapshot.idIn strict = e.id := by
  obtain ⟨c, -, rfl, hplain⟩ := exists_of_mem_resolved hd he
  rw [snapshot_placed, id_placed, id_build, idIn, head_snapshot hplain]
  rfl

/-- The snapshots of the children of a built tree have permitted kinds, and ids. -/
theorem taken_snapshot_eq_filter (hd : (d.build strict).value.PlainDates) (k : Kind) :
    (d.build strict).value.snapshot.taken strict k
      = (d.build strict).value.snapshot.children.filter fun c => decide (c.kind = k) := by
  apply List.filter_congr
  intro c hc
  rw [children_snapshot] at hc
  obtain ⟨j, hj, hc⟩ := List.mem_flatMap.mp hc
  obtain ⟨e, he, rfl⟩ := List.mem_map.mp hc
  have hpermits : (d.build strict).value.kind.permits e.kind = true := by
    rw [kind_of_mem_resolved he]
    exact Kind.permits_iff.mpr hj
  have hnamed : e.id ≠ "" := (lasting_wellFormed.build strict d).here.named j e he
  rw [kind_snapshot, kind_snapshot, idIn_snapshot hd he, hpermits, decide_eq_true hnamed,
    Bool.and_true, Bool.and_true]

/-- **A snapshot loses no child when it is built.** -/
theorem taken_snapshot (hd : (d.build strict).value.PlainDates) (k : Kind) :
    (d.build strict).value.snapshot.taken strict k
      = ((d.build strict).value.resolved k).map snapshot := by
  by_cases hk : k ∈ (d.build strict).value.kind.childKinds
  · rw [taken_snapshot_eq_filter hd, children_snapshot]
    refine filter_flatMap_kinds (f := fun k => ((d.build strict).value.resolved k).map snapshot) ?_
      (Kind.nodup_childKinds _) hk
    intro j c hc
    obtain ⟨e, he, rfl⟩ := List.mem_map.mp hc
    rw [kind_snapshot, kind_of_mem_resolved he]
  · -- of a kind that may not stand there, neither has children
    have hslotted := (lasting_wellFormed.build strict d).here.slotted
    have hnone : (d.build strict).value.resolved k = [] := by
      apply resolved_of_not_fetched
      intro hp
      exact hk (Kind.permits_iff.mp (hslotted.permits (by rw [hp]; simp)))
    rw [hnone, List.map_nil, List.eq_nil_iff_forall_not_mem]
    intro c hc
    obtain ⟨-, rfl, hpermits, -⟩ := mem_taken.mp hc
    rw [kind_snapshot] at hpermits
    exact hk (Kind.permits_iff.mp hpermits)

/-- The children of the tree that a snapshot is built into. -/
theorem resolved_rebuilt (hd : (d.build strict).value.PlainDates) (k : Kind) :
    ((d.build strict).value.snapshot.build strict).value.resolved k
      = ((d.build strict).value.resolved k).map fun e =>
          (e.snapshot.build strict).value.placed (some (d.idIn strict)) none := by
  have hroot : (d.build strict).value.snapshot.idIn strict = d.idIn strict := by
    rw [idIn, head_snapshot hd]
    rfl
  rw [resolved_build, taken_snapshot hd, hroot, List.map_map]
  refine replaceAll_eq_append ?_
  -- they have the ids of the children of the tree, which differ
  rw [List.nil_append, List.pairwise_map]
  have hdistinct := (lasting_wellFormed.build strict d).here.distinct k
  rw [List.Nodup, List.pairwise_map] at hdistinct
  refine hdistinct.imp_of_mem ?_
  rintro a b ha hb hne ⟨-, hsame⟩
  rw [Function.comp_apply, Function.comp_apply, id_placed, id_placed, id_build, id_build,
    idIn_snapshot hd ha, idIn_snapshot hd hb] at hsame
  exact hne hsame

/-- The snapshot's tree knows as much about its children. -/
theorem progress?_rebuilt (hd : (d.build strict).value.PlainDates) (k : Kind) :
    ((d.build strict).value.snapshot.build strict).value.head.progress? k
      = (d.build strict).value.head.progress? k := by
  have hresolved := resolved_rebuilt hd k
  -- a kind is fetched exactly where it has children
  by_cases hnone : (d.build strict).value.resolved k = []
  · rw [hnone, List.map_nil] at hresolved
    rw [progress?_build_of_childless hresolved, progress?_build_of_childless hnone,
      head_snapshot hd]
  · rw [progress?_of_resolved_ne_nil hnone]
    apply progress?_of_resolved_ne_nil
    rw [hresolved]
    simpa using hnone

end Rebuilt

/-- **The snapshot of a built tree is built into a tree that matches it.** -/
theorem matches_rebuilt {strict : Bool} {d : Document} (hd : (d.build strict).value.PlainDates) :
    ((d.build strict).value.snapshot.build strict).value.Matches (d.build strict).value := by
  induction d using induct with
  | step d ih =>
    -- heads and progress agree at the root, and the children match by the induction
    refine matches_of_core ?_ (progress?_rebuilt hd) fun k => ?_
    · rw [core_build, head_snapshot hd, core_build]
    · rw [resolved_rebuilt hd, List.forall₂_map_left_iff, List.forall₂_same]
      intro e he
      obtain ⟨c, hc, rfl, hplain⟩ := exists_of_mem_resolved hd he
      rw [snapshot_placed]
      exact (ih c hc hplain).placed _ none none

/-- **A snapshot reloads to the same tree.**  Whatever a document holds, if no date in
its tree has a year of less or more than four digits, the snapshot of the tree is
built into a tree that matches it, and that has the same snapshot. -/
theorem snapshot_reloads (strict : Bool) (d : Document)
    (hd : (d.build strict).value.PlainDates) :
    ((d.build strict).value.snapshot.build strict).value.Matches (d.build strict).value ∧
      ((d.build strict).value.snapshot.build strict).value.snapshot
        = (d.build strict).value.snapshot :=
  ⟨matches_rebuilt hd, (matches_rebuilt hd).snapshot_eq⟩

/-- A resource with names in any case, one of them twice, an undeclared one and a
date of another zone.  Below it an object stands before two classes of one id, and
a field and a class without an id are in between. -/
def untidy : Document :=
  mk .resource
    [("ClassDate", "2004-06-01T08:30:00-04:00"), ("ResourceID", "Land"), ("X-Site", " a"),
      ("classcount", " 2 "), ("resourceid", "Property")]
    [mk .object [("ObjectType", "Photo")] [],
      mk .propertyClass [("ClassName", "RES")] [mk .table [("SystemName", "ListPrice")] []],
      mk .table [("SystemName", "Lost")] [],
      mk .propertyClass [("VisibleName", "Lost")] [],
      mk .propertyClass [("ClassName", "RES")]
        [mk .table [("Searchable", "yes"), ("SystemName", "City")] []]]

/-- The snapshot of its tree: canonical names and texts, and the children kind by
kind. -/
def tidied : Document :=
  mk .resource
    [("ClassCount", "2"), ("ClassDate", "2004-06-01T12:30:00Z"), ("ResourceID", "Property"),
      ("X-Site", " a")]
    [mk .propertyClass [("ClassName", "RES")]
        [mk .table [("Searchable", "1"), ("SystemName", "City")] []],
      mk .object [("ObjectType", "Photo")] []]

theorem untidy_reloads :
    (untidy.build false).value.PlainDates ∧ (untidy.build false).value.snapshot = tidied ∧
      (((untidy.build false).value.snapshot.build false).value.Matches (untidy.build false).value ∧
        ((untidy.build false).value.snapshot.build false).value.snapshot
          = (untidy.build false).value.snapshot) := by
  have hbuilt : (untidy.build false).value.hasPlainDates = true ∧
      (untidy.build false).value.snapshot = tidied := by decide +kernel
  have hplain := plainDates_of_hasPlainDates hbuilt.1
  exact ⟨hplain, hbuilt.2, snapshot_reloads false untidy hplain⟩

end Document

end ListingMetadata
