/-
  ListingMetadata.Proofs.Source.Materializing
  ───────────────────────────────────────────
  **WHAT FETCHING AND MATERIALIZING LEAVE IN A TREE.**

  A fetch reads nothing of an entity but its kind, path and source, and changes
  nothing but the children of one kind.  So the kinds can be taken one at a
  time, and the children of a materialized entity are those that a fetch of
  the untouched entity brings, each of them materialized:

    • `resolved_resolve_self` / `_of_ne` — one kind asked for,
    • `resolved_materializeTo_succ`      — all kinds, one level.
-/
import ListingMetadata.Proofs.Entity.Adding
import ListingMetadata.Source.Fetching

namespace ListingMetadata.Entity

/-! ## §1. One fetch -/

/-- What comes of asking for the children of a kind: nothing new without a
source, none at all when the source fails. -/
def brought? (sources : Sources) (e : Entity) (k : Kind) : Option (List Entity) :=
  match e.head.source.bind sources.source? with
  | none => some []
  | some source =>
    match (source.answer ⟨k, e.path⟩).value with
    | .ok found => some found
    | .error _ => none

theorem brought?_of_core (sources : Sources) {e e' : Entity} (h : e.head.core = e'.head.core)
    (k : Kind) : e.brought? sources k = e'.brought? sources k := by
  have hpath : e.path = e'.path := Head.path_eq_of_core h
  unfold brought?
  rw [Head.source_eq_of_core h, hpath]

theorem value_takeIn (asked : Kind) (e : Entity) (cs : List Entity) :
    (takeIn asked e cs).value = cs.foldl offered e := by
  induction cs generalizing e with
  | nil => rfl
  | cons c cs ih =>
    unfold takeIn
    rw [List.foldl_cons]
    unfold offered
    cases e.add c with
    | ok e' => exact ih e'
    | error f => exact ih e

theorem value_fetch (sources : Sources) (e : Entity) (k : Kind) :
    (e.fetch sources k).value
      = match e.brought? sources k with
        | some found => found.foldl offered (e.opened k)
        | none => e.withHead (e.head.setProgress k .failed) := by
  unfold fetch brought?
  cases e.head.source with
  | none => rfl
  | some number =>
    show (match sources.source? number with
      | none => _
      | some source => _ : Logged Event Entity).value = _
    rw [Option.bind_some]
    cases sources.source? number with
    | none => rfl
    | some source =>
      simp only [Logged.value_bind]
      cases (source.answer ⟨k, e.path⟩).value with
      | ok found => exact value_takeIn k _ found
      | error f => rfl

/-! ## §2. A kind asked for if it never was -/

theorem value_resolve_of_unfetched {sources : Sources} {e : Entity} {k : Kind}
    (h : e.head.progress? k = some .unfetched) :
    (e.resolve sources k).value = (e.fetch sources k).value := by
  unfold resolve
  rw [if_pos h]

theorem value_resolve_of_ne {sources : Sources} {e : Entity} {k : Kind}
    (h : e.head.progress? k ≠ some .unfetched) : (e.resolve sources k).value = e := by
  unfold resolve
  rw [if_neg h]
  rfl

theorem core_fetch (sources : Sources) (e : Entity) (k : Kind) :
    (e.fetch sources k).value.head.core = e.head.core := by
  rw [value_fetch]
  cases e.brought? sources k with
  | none => rfl
  | some found => exact core_foldl_offered (e.opened k) found

theorem core_resolve (sources : Sources) (e : Entity) (k : Kind) :
    (e.resolve sources k).value.head.core = e.head.core := by
  by_cases h : e.head.progress? k = some .unfetched
  · rw [value_resolve_of_unfetched h]
    exact core_fetch sources e k
  · rw [value_resolve_of_ne h]

theorem slotted_resolve (sources : Sources) {e : Entity} (hs : e.head.Slotted) (k : Kind) :
    (e.resolve sources k).value.head.Slotted := by
  by_cases h : e.head.progress? k = some .unfetched
  · rw [value_resolve_of_unfetched h, value_fetch]
    cases e.brought? sources k with
    | none => exact hs.setProgress k .failed
    | some found => exact slotted_foldl_offered (slotted_opened hs k) found
  · rw [value_resolve_of_ne h]
    exact hs

/-- Whatever is brought for a kind is of that kind. -/
def BringsInKind (sources : Sources) (e : Entity) : Prop :=
  ∀ k found, e.brought? sources k = some found → ∀ c ∈ found, c.kind = k

theorem BringsInKind.of_core {sources : Sources} {e e' : Entity} (h : e.BringsInKind sources)
    (hc : e'.head.core = e.head.core) : e'.BringsInKind sources := by
  intro k found hf
  exact h k found (brought?_of_core sources hc k ▸ hf)

/-- The resolved children of a kind that is asked for: those brought that may
stand there, each in the place of its namesake. -/
theorem resolved_resolve_self {sources : Sources} {e : Entity} {k : Kind} {found : List Entity}
    (hs : e.head.Slotted) (hu : e.head.progress? k = some .unfetched)
    (hf : e.brought? sources k = some found) :
    (e.resolve sources k).value.resolved k
      = replaceAll []
          ((found.filter fun c => decide (c.kind = k) && e.accepts c).map
            (placed (some e.path) e.head.source)) := by
  rw [value_resolve_of_unfetched hu, value_fetch, hf]
  show (found.foldl offered (e.opened k)).resolved k = _
  rw [resolved_foldl_offered (slotted_opened hs k), resolved_opened_self]
  rfl

theorem resolved_resolve_self_of_failed {sources : Sources} {e : Entity} {k : Kind}
    (hu : e.head.progress? k = some .unfetched) (hf : e.brought? sources k = none) :
    (e.resolve sources k).value.resolved k = [] := by
  rw [value_resolve_of_unfetched hu, value_fetch, hf]
  apply resolved_of_not_fetched
  show (e.head.setProgress k .failed).progress? k ≠ some .fetched
  rw [Head.progress?_setProgress_self _ (by rw [hu]; simp)]
  simp

theorem progress?_resolve_of_ne {sources : Sources} {e : Entity} {k k' : Kind}
    (hb : e.BringsInKind sources) (h : k' ≠ k) :
    (e.resolve sources k).value.head.progress? k' = e.head.progress? k' := by
  by_cases hu : e.head.progress? k = some .unfetched
  · rw [value_resolve_of_unfetched hu, value_fetch]
    cases hf : e.brought? sources k with
    | none => exact Head.progress?_setProgress_of_ne _ h
    | some found =>
      show (found.foldl offered (e.opened k)).head.progress? k' = _
      rw [progress?_foldl_offered_of_ne fun c hc => hb k found hf c hc ▸ h.symm]
      exact Head.progress?_setProgress_of_ne _ h
  · rw [value_resolve_of_ne hu]

theorem resolved_resolve_of_ne {sources : Sources} {e : Entity} {k k' : Kind}
    (hs : e.head.Slotted) (hb : e.BringsInKind sources) (h : k' ≠ k) :
    (e.resolve sources k).value.resolved k' = e.resolved k' := by
  by_cases hu : e.head.progress? k = some .unfetched
  · rw [value_resolve_of_unfetched hu, value_fetch]
    cases hf : e.brought? sources k with
    | none =>
      exact resolved_congr (Head.progress?_setProgress_of_ne _ h) rfl
    | some found =>
      have hnone : (found.filter fun c => decide (c.kind = k') && (e.opened k).accepts c) = [] := by
        rw [List.filter_eq_nil_iff]
        intro c hc
        rw [hb k found hf c hc]
        simp [Ne.symm h]
      show (found.foldl offered (e.opened k)).resolved k' = _
      rw [resolved_foldl_offered (slotted_opened hs k), hnone, resolved_opened_of_ne e h]
      rfl
  · rw [value_resolve_of_ne hu]

/-- What asking for a kind leaves in it depends on the core of the entity and on
what was there. -/
theorem resolved_resolve_congr {sources : Sources} {e e' : Entity} {k : Kind}
    (hs : e.head.Slotted) (hs' : e'.head.Slotted) (hc : e.head.core = e'.head.core)
    (hp : e.head.progress? k = e'.head.progress? k) (hr : e.resolved k = e'.resolved k) :
    (e.resolve sources k).value.resolved k = (e'.resolve sources k).value.resolved k := by
  by_cases hu : e.head.progress? k = some .unfetched
  · have hb := brought?_of_core sources hc k
    have hpath : e.path = e'.path := Head.path_eq_of_core hc
    cases hf : e.brought? sources k with
    | none =>
      rw [resolved_resolve_self_of_failed hu hf,
        resolved_resolve_self_of_failed (hp ▸ hu) (hb ▸ hf)]
    | some found =>
      rw [resolved_resolve_self hs hu hf, resolved_resolve_self hs' (hp ▸ hu) (hb ▸ hf), hpath,
        Head.source_eq_of_core hc]
      simp only [accepts_of_core hc]
  · rw [value_resolve_of_ne hu, value_resolve_of_ne (hp ▸ hu), hr]

/-! ## §3. The children of a kind changed one by one -/

theorem head_eachChild (f : Entity → Logged Event Entity) (e : Entity) (k : Kind) :
    (eachChild f e k).value.head = e.head := by
  unfold eachChild
  split <;> rfl

theorem resolved_eachChild_self {f : Entity → Logged Event Entity}
    (hf : ∀ c, (f c).value.kind = c.kind) (e : Entity) (k : Kind) :
    (eachChild f e k).value.resolved k = (e.resolved k).map fun c => (f c).value := by
  by_cases hp : e.head.progress? k = some .fetched
  · rw [resolved_of_fetched (head_eachChild f e k ▸ hp), resolved_of_fetched hp]
    unfold eachChild
    rw [hp]
    show ((Logged.each _ e.children).value).filter _ = _
    rw [Logged.value_each]
    induction e.children with
    | nil => rfl
    | cons c cs ih =>
      by_cases hc : c.kind = k
      · simp only [List.map_cons, hc, if_true, List.filter_cons, hf, decide_true, ih]
      · simp [hc, ih]
  · rw [resolved_of_not_fetched (head_eachChild f e k ▸ hp), resolved_of_not_fetched hp]
    rfl

theorem resolved_eachChild_of_ne {f : Entity → Logged Event Entity}
    (hf : ∀ c, (f c).value.kind = c.kind) (e : Entity) {k k' : Kind} (h : k' ≠ k) :
    (eachChild f e k).value.resolved k' = e.resolved k' := by
  apply resolved_congr
  · rw [head_eachChild]
  · unfold eachChild
    split
    · show ((Logged.each _ e.children).value).filter _ = _
      rw [Logged.value_each]
      induction e.children with
      | nil => rfl
      | cons c cs ih =>
        by_cases hc : c.kind = k
        · have hne : ¬ c.kind = k' := fun hck => h (hck.symm.trans hc)
          simp only [List.map_cons, List.filter_cons, if_pos hc, hf, hne, decide_false, ih,
            Bool.false_eq_true, if_false]
        · simp only [List.map_cons, List.filter_cons, if_neg hc, Logged.value_pure, ih]
    · rfl

/-- Each child in a slot is the change of one that was there, or that one itself. -/
theorem mem_resolved_eachChild {f : Entity → Logged Event Entity}
    (hf : ∀ c, (f c).value.kind = c.kind) {e c : Entity} {k k' : Kind}
    (h : c ∈ (eachChild f e k).value.resolved k') :
    ∃ b ∈ e.resolved k', c = (f b).value ∨ c = b := by
  by_cases hk : k' = k
  · rw [hk, resolved_eachChild_self hf] at h
    obtain ⟨b, hb, rfl⟩ := List.mem_map.mp h
    exact ⟨b, hk ▸ hb, Or.inl rfl⟩
  · rw [resolved_eachChild_of_ne hf e hk] at h
    exact ⟨c, h, Or.inr rfl⟩

/-! ## §4. All kinds in turn -/

/-- A kind asked for, and its children materialized down to a depth. -/
def deepened (sources : Sources) (depth : Nat) (e : Entity) (k : Kind) : Entity :=
  (eachChild (materializeTo sources depth) (e.resolve sources k).value k).value

theorem value_materializeTo_succ (sources : Sources) (depth : Nat) (e : Entity) :
    (materializeTo sources (depth + 1) e).value
      = e.kind.childKinds.foldl (deepened sources depth) e := by
  unfold materializeTo
  rw [Logged.value_steps]
  rfl

theorem core_deepened (sources : Sources) (depth : Nat) (e : Entity) (k : Kind) :
    (deepened sources depth e k).head.core = e.head.core := by
  unfold deepened
  rw [head_eachChild]
  exact core_resolve sources e k

theorem core_foldl_deepened (sources : Sources) (depth : Nat) (e : Entity) (ks : List Kind) :
    (ks.foldl (deepened sources depth) e).head.core = e.head.core := by
  induction ks generalizing e with
  | nil => rfl
  | cons k ks ih => exact (ih _).trans (core_deepened sources depth e k)

/-- Materializing leaves all of an entity's own as it was. -/
theorem core_materializeTo (sources : Sources) (depth : Nat) (e : Entity) :
    (materializeTo sources depth e).value.head.core = e.head.core := by
  cases depth with
  | zero => rfl
  | succ depth =>
    rw [value_materializeTo_succ]
    exact core_foldl_deepened sources depth e _

theorem kind_materializeTo (sources : Sources) (depth : Nat) (e : Entity) :
    (materializeTo sources depth e).value.kind = e.kind :=
  Head.kind_eq_of_core (core_materializeTo sources depth e)

theorem path_materializeTo (sources : Sources) (depth : Nat) (e : Entity) :
    (materializeTo sources depth e).value.path = e.path :=
  Head.path_eq_of_core (core_materializeTo sources depth e)

theorem slotted_deepened (sources : Sources) (depth : Nat) {e : Entity} (hs : e.head.Slotted)
    (k : Kind) : (deepened sources depth e k).head.Slotted := by
  unfold deepened
  rw [head_eachChild]
  exact slotted_resolve sources hs k

theorem resolved_deepened_self (sources : Sources) (depth : Nat) (e : Entity) (k : Kind) :
    (deepened sources depth e k).resolved k
      = ((e.resolve sources k).value.resolved k).map
          fun c => (materializeTo sources depth c).value :=
  resolved_eachChild_self (kind_materializeTo sources depth) _ k

theorem resolved_deepened_of_ne {sources : Sources} (depth : Nat) {e : Entity} {k k' : Kind}
    (hs : e.head.Slotted) (hb : e.BringsInKind sources) (h : k' ≠ k) :
    (deepened sources depth e k).resolved k' = e.resolved k' := by
  unfold deepened
  rw [resolved_eachChild_of_ne (kind_materializeTo sources depth) _ h]
  exact resolved_resolve_of_ne hs hb h

theorem progress?_deepened_of_ne {sources : Sources} (depth : Nat) {e : Entity} {k k' : Kind}
    (hb : e.BringsInKind sources) (h : k' ≠ k) :
    (deepened sources depth e k).head.progress? k' = e.head.progress? k' := by
  unfold deepened
  rw [head_eachChild]
  exact progress?_resolve_of_ne hb h

/-- Kinds that are taken in turn do not meddle with each other. -/
theorem resolved_foldl_deepened {sources : Sources} (depth : Nat) {k : Kind} (ks : List Kind) :
    ∀ {e : Entity}, e.head.Slotted → e.BringsInKind sources → ks.Nodup →
      (ks.foldl (deepened sources depth) e).resolved k
        = if k ∈ ks then ((e.resolve sources k).value.resolved k).map
              fun c => (materializeTo sources depth c).value
          else e.resolved k := by
  induction ks with
  | nil =>
    intro e _ _ _
    rfl
  | cons k₁ ks ih =>
    intro e hs hb hn
    obtain ⟨hk₁, hn⟩ := List.nodup_cons.mp hn
    have hs' := slotted_deepened sources depth hs k₁
    have hc := core_deepened sources depth e k₁
    rw [List.foldl_cons, ih hs' (hb.of_core hc) hn]
    by_cases h : k = k₁
    · -- no kind comes twice, so what was left in this one stays
      subst h
      rw [if_neg hk₁, if_pos List.mem_cons_self]
      exact resolved_deepened_self sources depth e k
    · -- an entity after another kind is asked as the untouched one would be
      have hcongr : ((deepened sources depth e k₁).resolve sources k).value.resolved k
          = (e.resolve sources k).value.resolved k :=
        resolved_resolve_congr hs' hs hc (progress?_deepened_of_ne depth hb h)
          (resolved_deepened_of_ne depth hs hb h)
      rw [hcongr, resolved_deepened_of_ne depth hs hb h]
      simp only [List.mem_cons, h, false_or]

/-- **One level of materializing.**  The children of a materialized entity are
those that asking the untouched entity brings, each of them materialized. -/
theorem resolved_materializeTo_succ {sources : Sources} (depth : Nat) {e : Entity} {k : Kind}
    (hs : e.head.Slotted) (hb : e.BringsInKind sources) (hk : k ∈ e.kind.childKinds) :
    (materializeTo sources (depth + 1) e).value.resolved k
      = ((e.resolve sources k).value.resolved k).map
          fun c => (materializeTo sources depth c).value := by
  rw [value_materializeTo_succ, resolved_foldl_deepened depth _ hs hb (Kind.nodup_childKinds _),
    if_pos hk]

end ListingMetadata.Entity
