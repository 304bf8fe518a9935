/-
  ListingMetadata.Proofs.Section.Apart
  ────────────────────────────────────
  **HEADERS TELL SECTIONS APART.**

  In compact form a section is not nested in the row of its entity, so its
  header alone tells whose children it lists.  This is enough: sections of one
  kind with the same values in their headers are one section, if siblings have
  ids of their own.

    • `above_eq`               — two spots with the same values are one spot,
    • `nodup_headings`         — sections of well-formed trees,
    • `headings_apart`         — sections of all trees that runs make.
-/
import ListingMetadata.Proofs.Section.Once
import ListingMetadata.Proofs.Workbench.WellFormed

namespace ListingMetadata

/-! ## §1. Siblings -/

theorem Entity.id_of_system {e : Entity} (h : e.kind = .system) : e.id = "System" := by
  have hkind : e.head.kind = .system := h
  unfold Entity.id Head.id
  rw [hkind]
  rfl

/-- Positions of one key in a list of distinct keys are one position. -/
theorem getElem?_inj_of_nodup_map {α β : Type} {f : α → β} {l : List α} (hl : (l.map f).Nodup)
    {i j : Nat} {x y : α} (hx : l[i]? = some x) (hy : l[j]? = some y) (h : f x = f y) : i = j := by
  have hi : i < (l.map f).length := by
    rw [List.length_map]
    exact (List.getElem?_eq_some_iff.mp hx).1
  have hsame : (l.map f)[i]? = (l.map f)[j]? := by
    rw [List.getElem?_map, List.getElem?_map, hx, hy]
    exact congrArg some h
  exact (List.getElem?_inj hi hl).mp hsame

namespace Batch

/-- All sections list siblings with ids of their own. -/
def Distinct (b : Batch) : Prop :=
  ∀ s k, ((b.listed s k).map Entity.id).Nodup

section

variable {b : Batch} {s : Spot}

theorem wellFormed_of_mem_listed (hb : ∀ e ∈ b.entities, e.WellFormed) :
    ∀ {s : Spot} {k : Kind} {e : Entity}, e ∈ b.listed s k → e.WellFormed := by
  intro s
  induction s with
  | nil =>
    intro k e he
    rcases mem_listed_cases he with ⟨-, -, hpassed, -⟩ | ⟨d, hd, -⟩
    · exact hb e hpassed
    · cases hd
  | cons x s ih =>
    intro k e he
    rcases mem_listed_cases he with ⟨hs, -⟩ | ⟨d, hd, -, hchild⟩
    · cases hs
    · exact (ih (List.mem_of_getElem? hd)).child hchild

/-- Well-formed trees with ids of their own have distinct ids everywhere. -/
theorem distinct_of_wellFormed (hb : ∀ e ∈ b.entities, e.WellFormed)
    (hids : (b.entities.map Entity.id).Nodup) : b.Distinct := by
  intro s k
  cases s with
  | nil =>
    unfold listed
    split
    · exact hids.sublist (List.filter_sublist.map Entity.id)
    · exact List.nodup_nil
  | cons x s =>
    cases hx : b.entity? (x :: s) with
    | none =>
      rw [listed_of_none hx]
      exact List.nodup_nil
    | some d =>
      have hd := wellFormed_of_mem_listed hb (List.mem_of_getElem? hx)
      by_cases hk : k ∈ d.kind.childKinds
      · rw [listed_of_entity hx hk]
        exact hd.here.distinct k
      · rw [listed_of_not_child hx hk]
        exact List.nodup_nil

/-! ## §2. What a header names -/

theorem rank_le_of_mem_listed :
    ∀ {s : Spot} {k : Kind} {e : Entity}, e ∈ b.listed s k → k.rank ≤ b.kind.rank := by
  intro s
  induction s with
  | nil =>
    intro k e he
    rcases mem_listed_cases he with ⟨-, rfl, -⟩ | ⟨d, hd, -⟩
    · exact Nat.le_refl _
    · cases hd
  | cons x s ih =>
    intro k e he
    rcases mem_listed_cases he with ⟨hs, -⟩ | ⟨d, hd, hk, -⟩
    · cases hs
    · have hmem := List.mem_of_getElem? (l := b.listed s x.1) hd
      have hle := ih hmem
      have hlt := Kind.rank_lt_of_mem_childKinds hk
      rw [kind_of_mem_listed hmem] at hlt
      omega

/-- The value of a key in headers at a spot. -/
def valueAt (b : Batch) (s : Spot) (key : String) : String :=
  ((b.contextAt s).get? key).getD ""

variable {k : Kind} {i : Nat} {e : Entity} {key : String}

theorem valueAt_self (h : b.entity? ((k, i) :: s) = some e) (hkey : k.contextKey? = some key) :
    b.valueAt ((k, i) :: s) key = e.id := by
  have hkind : e.head.kind = k := kind_of_mem_listed (List.mem_of_getElem? (l := b.listed s k) h)
  unfold valueAt
  rw [contextAt_of_entity h]
  unfold Context.nested
  rw [hkind, hkey]
  show ((Context.set _ key e.head.id).get? key).getD "" = e.head.id
  rw [Context.get?_set_self]
  rfl

theorem valueAt_of_ne (h : b.entity? ((k, i) :: s) = some e) (hkey : k.contextKey? ≠ some key) :
    b.valueAt ((k, i) :: s) key = b.valueAt s key := by
  have hkind : e.head.kind = k := kind_of_mem_listed (List.mem_of_getElem? (l := b.listed s k) h)
  unfold valueAt
  rw [contextAt_of_entity h]
  unfold Context.nested
  rw [hkind]
  cases hk : k.contextKey? with
  | none => rfl
  | some own =>
    have hne : key ≠ own := by
      rintro rfl
      exact hkey hk
    show ((Context.set _ own e.head.id).get? key).getD "" = _
    rw [Context.get?_set_of_ne _ _ hne]

/-- What is listed below an entity is not of the kind at the top. -/
theorem ne_kind_of_mem_listed_cons {x : Kind × Nat} (h : e ∈ b.listed (x :: s) k) :
    k ≠ b.kind := by
  rcases mem_listed_cases h with ⟨hnil, -⟩ | ⟨d, hd, hk, -⟩
  · cases hnil
  · have hmem := List.mem_of_getElem? (l := b.listed s x.1) hd
    have hle := rank_le_of_mem_listed hmem
    have hlt := Kind.rank_lt_of_mem_childKinds hk
    rw [kind_of_mem_listed hmem] at hlt
    rintro rfl
    omega

/-- **Where entities of one kind are listed at two spots, and headers of the kind
have the same values there, the spots are the same.** -/
theorem above_eq (hb : b.Distinct) :
    ∀ {s t : Spot} {k : Kind} {e e' : Entity}, e ∈ b.listed s k → e' ∈ b.listed t k →
      (∀ key ∈ k.headerKeys, b.valueAt s key = b.valueAt t key) → s = t := by
  intro s
  induction s with
  | nil =>
    intro t k e e' he he' _
    cases t with
    | nil => rfl
    | cons y t =>
      rcases mem_listed_cases he with ⟨-, hk, -⟩ | ⟨d, hd, -⟩
      · exact absurd hk (ne_kind_of_mem_listed_cons he')
      · cases hd
  | cons x s ih =>
    intro t k e e' he he' hv
    rcases mem_listed_cases he with ⟨hnil, -⟩ | ⟨d, hd, hk, -⟩
    · cases hnil
    rcases mem_listed_cases he' with ⟨-, hk', -⟩ | ⟨d', hd', hk', -⟩
    · exact absurd hk' (ne_kind_of_mem_listed_cons he)
    cases t with
    | nil => cases hd'
    | cons y t =>
      obtain ⟨j, i⟩ := x
      obtain ⟨j', i'⟩ := y
      have hmem : d ∈ b.listed s j := List.mem_of_getElem? hd
      have hmem' : d' ∈ b.listed t j' := List.mem_of_getElem? hd'
      -- the entities above are of one kind, as a kind stands below one kind only
      have hj : j = j' := by
        rw [← kind_of_mem_listed hmem, ← kind_of_mem_listed hmem']
        exact Kind.parent_unique hk hk'
      subst hj
      rw [kind_of_mem_listed hmem] at hk
      -- so headers of their kind have the same values, and the spots above agree
      have hup : ∀ key ∈ j.headerKeys, b.valueAt s key = b.valueAt t key := by
        intro key hkey
        have hne : j.contextKey? ≠ some key :=
          fun h => Kind.contextKey_notMem_headerKeys h hkey
        rw [← valueAt_of_ne hd hne, ← valueAt_of_ne hd' hne]
        exact hv key (Kind.headerKeys_subset hk hkey)
      have hst : s = t := ih hmem hmem' hup
      subst hst
      -- and their ids are what the headers name, or those of systems
      have hid : d.id = d'.id := by
        cases hc : j.contextKey? with
        | none =>
          have hsystem := Kind.eq_system_of_contextKey?_eq_none hk hc
          rw [Entity.id_of_system ((kind_of_mem_listed hmem).trans hsystem),
            Entity.id_of_system ((kind_of_mem_listed hmem').trans hsystem)]
        | some key =>
          rw [← valueAt_self hd hc, ← valueAt_self hd' hc]
          exact hv key (Kind.contextKey_mem_headerKeys hk hc)
      rw [getElem?_inj_of_nodup_map (hb s j) hd hd' hid]

end

/-! ## §3. Outputs -/

/-- The kind of a section and the values in its header. -/
def heading (b : Batch) (p : Place) : Kind × List String :=
  (p.kind, ((b.contextAt p.above).header p.kind).map Prod.snd)

/-- The kinds and header values of the sections of an output, in the order in which
they are opened. -/
def headings (b : Batch) (mode : Mode) : List (Kind × List String) :=
  ((b.pieces mode []).filterMap Piece.opened?).map b.heading

theorem heading_eq (b : Batch) (p : Place) :
    b.heading p = (p.kind, p.kind.headerKeys.map (b.valueAt p.above)) := by
  unfold heading Context.header
  rw [List.map_map]
  rfl

/-- Sections that are headed alike are one section. -/
theorem place_eq {b : Batch} (hb : b.Distinct) {p q : Place} (hp : b.listed p.above p.kind ≠ [])
    (hq : b.listed q.above q.kind ≠ []) (h : b.heading p = b.heading q) : p = q := by
  obtain ⟨k, s⟩ := p
  obtain ⟨k', t⟩ := q
  rw [heading_eq, heading_eq] at h
  obtain ⟨hk, hvalues⟩ := Prod.mk.inj h
  have hk : k = k' := hk
  subst hk
  obtain ⟨e, he⟩ := List.exists_mem_of_ne_nil _ hp
  obtain ⟨e', he'⟩ := List.exists_mem_of_ne_nil _ hq
  have hst : s = t := above_eq hb he he' (List.map_inj_left.mp hvalues)
  rw [hst]

/-- **No two sections have the same kind and the same values in their headers**, if
siblings have ids of their own. -/
theorem nodup_headings {b : Batch} (hb : b.Distinct) (mode : Mode) : (b.headings mode).Nodup := by
  have hplaces : ((b.pieces mode []).filterMap Piece.opened?).Nodup := by
    apply (b.nodup_pieces mode).filterMap
    intro m n p hm hn
    rw [Piece.opened?_eq_some hm, Piece.opened?_eq_some hn]
  have hlisted : ∀ p ∈ (b.pieces mode []).filterMap Piece.opened?,
      b.listed p.above p.kind ≠ [] := by
    intro p hp
    obtain ⟨m, hm, hopened⟩ := List.mem_filterMap.mp hp
    rw [Piece.opened?_eq_some hopened] at hm
    exact opening_mem_pieces.mp hm
  refine List.Nodup.map_on ?_ hplaces
  intro p hp q hq h
  exact place_eq hb (hlisted p hp) (hlisted q hq) h

end Batch

/-- The tree was made by a run, in whatever way. -/
def Workbench.Makes (e : Entity) : Prop :=
  ∃ ts name, (run ts).entities.get? name = some e

/-- **Headers tell the sections of an output apart**, in either form: for trees that
were made by runs and have ids of their own, no two sections have the same kind
and the same values in their headers. -/
theorem headings_apart {es : List Entity} (hmade : ∀ e ∈ es, Workbench.Makes e)
    (hids : (es.map Entity.id).Nodup) (kind : Kind) (c : Context) (mode : Mode) :
    Batch.WrittenAs ⟨kind, c, es⟩ mode (Batch.pieces ⟨kind, c, es⟩ mode []) ∧
      (Batch.headings ⟨kind, c, es⟩ mode).Nodup := by
  refine ⟨Batch.writtenAs_pieces _ mode, Batch.nodup_headings ?_ mode⟩
  apply Batch.distinct_of_wellFormed _ hids
  intro e he
  obtain ⟨ts, name, hnamed⟩ := hmade e he
  exact (Workbench.all_wellFormed_run ts).named name e hnamed

/-- A table in a class of the same id in either of two resources. -/
def sameClasses : List Workbench.Task :=
  [.create "property" .resource true .plain [("ResourceID", "Property")],
    .create "agent" .resource true .plain [("ResourceID", "Agent")],
    .create "class" .propertyClass true .plain [("ClassName", "RES")],
    .create "table" .table true .plain [("SystemName", "LP")],
    .add "class" "table" false, .add "property" "class" false, .add "agent" "class" false]

/-- The two resources. -/
def twoResources : List Entity :=
  ["property", "agent"].filterMap (Workbench.run sameClasses).entities.get?

theorem twoResources_headings_apart :
    (∀ e ∈ twoResources, Workbench.Makes e) ∧ (twoResources.map Entity.id).Nodup ∧
      Batch.headings ⟨.resource, Context.fresh "1.00.001" ⟨0, 0⟩, twoResources⟩ .compact
        = [(.resource, []), (.propertyClass, ["Property"]), (.table, ["Property", "RES"]),
          (.propertyClass, ["Agent"]), (.table, ["Agent", "RES"])] ∧
      (Batch.headings ⟨.resource, Context.fresh "1.00.001" ⟨0, 0⟩, twoResources⟩
        .compact).Nodup := by
  have hmade : ∀ e ∈ twoResources, Workbench.Makes e := by
    intro e he
    obtain ⟨name, -, hnamed⟩ := List.mem_filterMap.mp he
    exact ⟨sameClasses, name, hnamed⟩
  have hids : (twoResources.map Entity.id).Nodup := by decide +kernel
  refine ⟨hmade, hids, by decide +kernel, ?_⟩
  exact (headings_apart hmade hids .resource (Context.fresh "1.00.001" ⟨0, 0⟩) .compact).2

end ListingMetadata
