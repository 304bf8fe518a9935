/-
  ListingMetadata.Proofs.Layout.History
  ─────────────────────────────────────
  **A REGISTRY TOLD BY ITS HISTORY.**

  What is declared and what is handed out go separate ways: a layout that was handed
  out stays as it is until all are dropped, however the declarations change.  So a
  look-up comes to the declarations of the time of the first one of its pair since
  then:

      look up, declare, look up            →  the same, as before the declaration
      look up, declare, drop, look up      →  another one, as after it

    • `firstLookUp_eq_some_iff` — the first look-up of a pair,
    • `handedOut?_after`        — the layout that was handed out, if there is one,
    • `cachedCount_after`       — how many were handed out,
    • `layout_after`            — what a look-up comes to.

  The proofs are by induction on the history, the latest deed first.
-/
import ListingMetadata.Layout.Registry
import Mathlib.Data.List.Dedup
import Mathlib.Data.List.Perm.Basic

namespace ListingMetadata

theorem SharedLayout.eq_of_parts {a b : SharedLayout} (hmark : a.mark = b.mark)
    (hlayout : a.layout = b.layout) : a = b := by
  obtain ⟨m, l⟩ := a
  obtain ⟨m', l'⟩ := b
  exact congrArg₂ SharedLayout.mk hmark hlayout

namespace Registry

/-! ## §1. Histories -/

/-- What is done with a registry. -/
inductive Deed where
  /-- The layout of a pair is looked up, by a caller or to make an entity. -/
  | lookUp (kind : Kind) (strict : Bool)
  /-- A layout is built that is not handed out. -/
  | build (kind : Kind) (strict : Bool)
  | update (kind : Kind) (column : Column)
  | add (kind : Kind) (column : Column)
  | invalidateAll
deriving DecidableEq

/-- The registry after a deed. -/
def step (r : Registry) : Deed → Registry
  | .lookUp kind strict => (r.layout kind strict).2
  | .build _ _ => r
  | .update kind column => r.update kind column
  | .add kind column => r.add kind column
  | .invalidateAll => r.invalidateAll

/-- The registry after a history, the latest deed first. -/
def after (id : Nat) : List Deed → Registry
  | [] => fresh id
  | d :: deeds => (after id deeds).step d

/-- The declarations of a kind after a history. -/
def declared (kind : Kind) : List Deed → List Column
  | [] => kind.builtinColumns
  | .update k column :: deeds =>
    if k = kind then replaceDeclaration column (declared kind deeds) else declared kind deeds
  | .add k column :: deeds =>
    if k = kind then declared kind deeds ++ [column] else declared kind deeds
  | _ :: deeds => declared kind deeds

/-- What came before the first look-up of a pair since all layouts were dropped, if
there was one. -/
def firstLookUp (kind : Kind) (strict : Bool) : List Deed → Option (List Deed)
  | [] => none
  | .invalidateAll :: _ => none
  | .lookUp k s :: deeds =>
    (firstLookUp kind strict deeds).or (if (k, s) = (kind, strict) then some deeds else none)
  | _ :: deeds => firstLookUp kind strict deeds

/-- The pairs looked up since all layouts were dropped. -/
def lookedUp : List Deed → List (Kind × Bool)
  | [] => []
  | .invalidateAll :: _ => []
  | .lookUp kind strict :: deeds => (kind, strict) :: lookedUp deeds
  | _ :: deeds => lookedUp deeds

/-- How often all layouts were dropped. -/
def drops (deeds : List Deed) : Nat :=
  deeds.count .invalidateAll

/-- Unless all layouts are dropped, the first look-up stays the first, or the deed is it. -/
theorem firstLookUp_cons_eq_some_iff {kind : Kind} {strict : Bool} {d : Deed}
    {deeds earlier : List Deed} :
    firstLookUp kind strict (d :: deeds) = some earlier ↔
      d ≠ .invalidateAll ∧ (firstLookUp kind strict deeds = some earlier ∨
        firstLookUp kind strict deeds = none ∧ d = .lookUp kind strict ∧ deeds = earlier) := by
  cases d with
  | lookUp k s => simp [firstLookUp, Option.or_eq_some_iff, and_assoc]
  | build k s => simp [firstLookUp]
  | update k column => simp [firstLookUp]
  | add k column => simp [firstLookUp]
  | invalidateAll => simp [firstLookUp]

/-- **The first look-up of a pair**: nothing was dropped after it, and the pair was not
looked up between the last drop and it. -/
theorem firstLookUp_eq_some_iff {kind : Kind} {strict : Bool} {deeds earlier : List Deed} :
    firstLookUp kind strict deeds = some earlier ↔
      ∃ later, deeds = later ++ .lookUp kind strict :: earlier ∧ .invalidateAll ∉ later ∧
        firstLookUp kind strict earlier = none := by
  constructor
  · intro h
    induction deeds with
    | nil => cases h
    | cons d deeds ih =>
      obtain ⟨hd, hbefore | ⟨hnone, rfl, rfl⟩⟩ := firstLookUp_cons_eq_some_iff.mp h
      · obtain ⟨later, rfl, hlater, hearlier⟩ := ih hbefore
        exact ⟨d :: later, rfl, List.not_mem_cons_of_ne_of_not_mem hd.symm hlater, hearlier⟩
      · exact ⟨[], rfl, List.not_mem_nil, hnone⟩
  · rintro ⟨later, rfl, hlater, hearlier⟩
    induction later with
    | nil =>
      exact firstLookUp_cons_eq_some_iff.mpr ⟨by simp, .inr ⟨hearlier, rfl, rfl⟩⟩
    | cons d later ih =>
      have hd : d ≠ .invalidateAll := fun h => hlater (h ▸ List.mem_cons_self)
      exact firstLookUp_cons_eq_some_iff.mpr
        ⟨hd, .inl (ih (List.not_mem_of_not_mem_cons hlater))⟩

/-! ## §2. Declarations -/

theorem declarations_declare (r : Registry) (k kind : Kind) (change : List Column → List Column) :
    (r.declare k change).declarations kind
      = if k = kind then change (r.declarations k) else r.declarations kind := by
  unfold declare declarations
  rw [List.find?_cons, List.find?_filter]
  by_cases h : k = kind
  · simp only [h, decide_true, if_true, Option.map_some, Option.getD_some]
  · simp only [h, decide_false, if_false]
    -- of the other kinds what is found is what was found before
    congr 3
    funext p
    by_cases hp : p.1 = kind
    · simp [hp, Ne.symm h]
    · simp [hp]

/-- A look-up changes no declarations. -/
theorem declarations_layout (r : Registry) (k kind : Kind) (strict : Bool) :
    (r.layout k strict).2.declarations kind = r.declarations kind := by
  unfold layout
  split <;> rfl

/-- **The declarations of a registry are those of its history.** -/
theorem declarations_after (id : Nat) (kind : Kind) (deeds : List Deed) :
    (after id deeds).declarations kind = declared kind deeds := by
  induction deeds with
  | nil => rfl
  | cons d deeds ih =>
    cases d with
    | lookUp k s => exact (declarations_layout _ k kind s).trans ih
    | build k s => exact ih
    | invalidateAll => exact ih
    | update k column =>
      refine (declarations_declare _ k kind _).trans ?_
      rw [declared]
      split
      · rename_i h
        rw [h, ih]
      · exact ih
    | add k column =>
      refine (declarations_declare _ k kind _).trans ?_
      rw [declared]
      split
      · rename_i h
        rw [h, ih]
      · exact ih

theorem build_after (id : Nat) (kind : Kind) (strict : Bool) (deeds : List Deed) :
    (after id deeds).build kind strict = Layout.build kind strict (declared kind deeds) := by
  rw [build, declarations_after]

/-! ## §3. Layouts handed out -/

/-- What a look-up hands out: the layout that was handed out, or a new one. -/
theorem layout_layout (r : Registry) (kind : Kind) (strict : Bool) :
    (r.layout kind strict).1.layout
      = (r.handedOut? kind strict).getD (r.build kind strict) := by
  unfold layout
  split <;> rename_i h <;> rw [h] <;> rfl

theorem mark_layout (r : Registry) (kind : Kind) (strict : Bool) :
    (r.layout kind strict).1.mark = .issued r.id r.generation := by
  unfold layout
  split <;> rfl

/-- A look-up adds what it hands out, and nothing else. -/
theorem handedOut?_layout (r : Registry) (k kind : Kind) (s strict : Bool) :
    (r.layout k s).2.handedOut? kind strict
      = (r.handedOut? kind strict).or
          (if (k, s) = (kind, strict) then some (r.build kind strict) else none) := by
  unfold layout
  split
  · rename_i l hl
    split
    · rename_i hpair
      obtain ⟨rfl, rfl⟩ := Prod.mk.inj hpair
      rw [hl, Option.some_or]
    · exact Option.or_none.symm
  · rename_i hnone
    -- the new layout is behind all others, and it is found for its own pair only
    have hnew : [r.build k s].find? (fun l => decide (l.kind = kind) && decide (l.strict = strict))
        = if (k, s) = (kind, strict) then some (r.build kind strict) else none := by
      split
      · rename_i hpair
        obtain ⟨rfl, rfl⟩ := Prod.mk.inj hpair
        simp [build, Layout.build]
      · rename_i hpair
        simpa [build, Layout.build, Prod.ext_iff] using hpair
    show (r.cached ++ [r.build k s]).find? _ = _
    rw [List.find?_append, hnew]
    rfl

/-- What is looked up is handed out from then on. -/
theorem handedOut?_layout_self (r : Registry) (kind : Kind) (strict : Bool) :
    (r.layout kind strict).2.handedOut? kind strict = some (r.layout kind strict).1.layout := by
  rw [handedOut?_layout, if_pos rfl, layout_layout]
  cases r.handedOut? kind strict <;> rfl

/-- What was handed out is looked up again. -/
theorem layout_of_handedOut? {r : Registry} {kind : Kind} {strict : Bool} {l : Layout}
    (h : r.handedOut? kind strict = some l) :
    (r.layout kind strict).1 = ⟨.issued r.id r.generation, l⟩ := by
  unfold layout
  rw [h]

/-- **The layout that was handed out for a pair is that of the declarations before its
first look-up.** -/
theorem handedOut?_after (id : Nat) (kind : Kind) (strict : Bool) (deeds : List Deed) :
    (after id deeds).handedOut? kind strict
      = (firstLookUp kind strict deeds).map fun earlier =>
          Layout.build kind strict (declared kind earlier) := by
  induction deeds with
  | nil => rfl
  | cons d deeds ih =>
    cases d with
    | lookUp k s =>
      refine (handedOut?_layout _ k kind s strict).trans ?_
      rw [ih, firstLookUp, build_after, Option.map_or]
      split <;> rfl
    | build k s => exact ih
    | update k column => exact ih
    | add k column => exact ih
    | invalidateAll => rfl

/-- A layout that was handed out is handed out until all are dropped. -/
theorem handedOut?_step {r : Registry} {kind : Kind} {strict : Bool} {l : Layout}
    (h : r.handedOut? kind strict = some l) {d : Deed} (hd : d ≠ .invalidateAll) :
    (r.step d).handedOut? kind strict = some l := by
  cases d with
  | lookUp k s =>
    refine (handedOut?_layout r k kind s strict).trans ?_
    rw [h, Option.some_or]
  | build k s => exact h
  | update k column => exact h
  | add k column => exact h
  | invalidateAll => exact absurd rfl hd

theorem kind_of_handedOut? {r : Registry} {kind : Kind} {strict : Bool} {l : Layout}
    (h : r.handedOut? kind strict = some l) : l.kind = kind ∧ l.strict = strict := by
  have hfound := List.find?_some h
  simpa using hfound

/-- A registry hands out layouts of the mode that is asked for. -/
theorem strict_layout (r : Registry) (kind : Kind) (strict : Bool) :
    (r.layout kind strict).1.layout.strict = strict := by
  unfold layout
  cases h : r.handedOut? kind strict with
  | some l => exact (kind_of_handedOut? h).2
  | none => rfl

theorem id_step (r : Registry) (d : Deed) : (r.step d).id = r.id := by
  cases d with
  | lookUp k s =>
    show (r.layout k s).2.id = r.id
    unfold layout
    split <;> rfl
  | _ => rfl

theorem generation_step (r : Registry) (d : Deed) :
    (r.step d).generation = r.generation + if d = .invalidateAll then 1 else 0 := by
  cases d with
  | lookUp k s =>
    show (r.layout k s).2.generation = r.generation
    unfold layout
    split <;> rfl
  | _ => rfl

theorem id_after (id : Nat) (deeds : List Deed) : (after id deeds).id = id := by
  induction deeds with
  | nil => rfl
  | cons d deeds ih => exact (id_step _ d).trans ih

/-- The generation of a registry counts the times that all layouts were dropped. -/
theorem generation_after (id : Nat) (deeds : List Deed) :
    (after id deeds).generation = drops deeds := by
  induction deeds with
  | nil => rfl
  | cons d deeds ih =>
    rw [after, generation_step, ih, drops, drops, List.count_cons]
    simp

/-! ## §4. The number of layouts handed out -/

/-- The pairs of the layouts handed out, in their order. -/
def handedOutPairs (r : Registry) : List (Kind × Bool) :=
  r.cached.map fun l => (l.kind, l.strict)

theorem handedOut?_eq_none_iff {r : Registry} {kind : Kind} {strict : Bool} :
    r.handedOut? kind strict = none ↔ (kind, strict) ∉ r.handedOutPairs := by
  unfold handedOut? handedOutPairs
  simp [List.find?_eq_none, Prod.ext_iff]

/-- A look-up adds its pair, unless it is there. -/
theorem handedOutPairs_layout (r : Registry) (kind : Kind) (strict : Bool) :
    (r.layout kind strict).2.handedOutPairs
      = if (kind, strict) ∈ r.handedOutPairs then r.handedOutPairs
        else r.handedOutPairs ++ [(kind, strict)] := by
  unfold layout
  split
  · rename_i l hl
    have hmem : (kind, strict) ∈ r.handedOutPairs := by
      by_contra h
      rw [handedOut?_eq_none_iff.mpr h] at hl
      cases hl
    exact (if_pos hmem).symm
  · rename_i hnone
    rw [if_neg (handedOut?_eq_none_iff.mp hnone)]
    exact List.map_append

/-- The pairs of the layouts handed out are those looked up, each once. -/
theorem handedOutPairs_after (id : Nat) (deeds : List Deed) :
    (after id deeds).handedOutPairs.Nodup ∧
      ∀ p, p ∈ (after id deeds).handedOutPairs ↔ p ∈ lookedUp deeds := by
  induction deeds with
  | nil => exact ⟨List.nodup_nil, fun p => Iff.rfl⟩
  | cons d deeds ih =>
    obtain ⟨hnodup, hmem⟩ := ih
    cases d with
    | lookUp k s =>
      show ((after id deeds).layout k s).2.handedOutPairs.Nodup ∧
        ∀ p, p ∈ ((after id deeds).layout k s).2.handedOutPairs ↔ p ∈ (k, s) :: lookedUp deeds
      rw [handedOutPairs_layout]
      split
      · rename_i hold
        refine ⟨hnodup, fun p => ?_⟩
        rw [List.mem_cons, hmem]
        exact ⟨.inr, fun h => h.elim (fun heq => heq ▸ (hmem _).mp hold) fun hp => hp⟩
      · rename_i hnew
        refine ⟨List.nodup_append_comm.mp (List.nodup_cons.mpr ⟨hnew, hnodup⟩), fun p => ?_⟩
        rw [List.mem_append, List.mem_singleton, List.mem_cons, hmem, or_comm]
    | build k s => exact ⟨hnodup, hmem⟩
    | update k column => exact ⟨hnodup, hmem⟩
    | add k column => exact ⟨hnodup, hmem⟩
    | invalidateAll => exact ⟨List.nodup_nil, fun p => Iff.rfl⟩

/-- **There are as many layouts handed out as different pairs looked up.** -/
theorem cachedCount_after (id : Nat) (deeds : List Deed) :
    (after id deeds).cachedCount = (lookedUp deeds).dedup.length := by
  obtain ⟨hnodup, hmem⟩ := handedOutPairs_after id deeds
  -- both lists hold the same pairs, each once
  have hperm : (after id deeds).handedOutPairs.Perm (lookedUp deeds).dedup :=
    (List.perm_ext_iff_of_nodup hnodup (List.nodup_dedup _)).mpr fun p => by
      rw [hmem, List.mem_dedup]
  rw [← hperm.length_eq]
  exact (List.length_map _).symm

/-! ## §5. Registries and their histories -/

/-- What is looked up after a history. -/
def sharedAfter (id : Nat) (kind : Kind) (strict : Bool) (deeds : List Deed) : SharedLayout :=
  ⟨.issued id (drops deeds),
    Layout.build kind strict (declared kind ((firstLookUp kind strict deeds).getD deeds))⟩

/-- **A look-up comes to the declarations before the first look-up of its pair**, be it an
earlier one or this. -/
theorem layout_after (id : Nat) (kind : Kind) (strict : Bool) (deeds : List Deed) :
    ((after id deeds).layout kind strict).1 = sharedAfter id kind strict deeds := by
  have hlayout : ((after id deeds).layout kind strict).1.layout
      = (sharedAfter id kind strict deeds).layout := by
    rw [layout_layout, handedOut?_after, build_after, sharedAfter]
    cases firstLookUp kind strict deeds <;> rfl
  have hmark : ((after id deeds).layout kind strict).1.mark
      = (sharedAfter id kind strict deeds).mark := by
    rw [mark_layout, id_after, generation_after, sharedAfter]
  exact SharedLayout.eq_of_parts hmark hlayout

-- what was declared in between waits until all layouts are dropped
example (id : Nat) (column : Column) :
    sharedAfter id .table true [.add .table column, .lookUp .table true]
      = sharedAfter id .table true [] := rfl

end Registry

end ListingMetadata
