/-
  ListingMetadata.Proofs.Source.Ending
  ────────────────────────────────────
  **MATERIALIZING COMES TO AN END.**

  Materializing goes on into children that are not there yet when it begins, as
  sources give them on the way and may give whole trees.  Still it ends: a child
  has a lower rank than its parent, so the rank of an entity bounds the depth:

      system  →  resource  →  class  →  update  →  update type

  Without that bound, materializing is the relation of an entity to the result
  with which the work on it ends, each rule one piece of work that has ended.

    • `ends_materializeTo_iff` — a bound on the depth that cuts nothing short,
    • `ends_iff`               — the one end that every entity comes to.
-/
import ListingMetadata.Source.Fetching

namespace ListingMetadata.Entity

/-! ## §1. Work without a bound -/

mutual

/-- Materializing an entity has ended with a result. -/
inductive Ends (sources : Sources) : Entity → Logged Event Entity → Prop where
  | entity {e : Entity} {x : Logged Event Entity} (h : EndsKinds sources e e.kind.childKinds x) :
      Ends sources e x

/-- Some kinds have been taken in turn: each was asked for, and then the children
that it has. -/
inductive EndsKinds (sources : Sources) : Entity → List Kind → Logged Event Entity → Prop where
  | done (e : Entity) : EndsKinds sources e [] (pure e)
  | next {e : Entity} {k : Kind} {ks : List Kind} {x y : Logged Event Entity}
      (h : EndsKind sources (e.resolve sources k).value k x) (hs : EndsKinds sources x.value ks y) :
      EndsKinds sources e (k :: ks) ((e.resolve sources k >>= fun _ => x) >>= fun _ => y)

/-- The children of a kind have been materialized, if the kind is fetched. -/
inductive EndsKind (sources : Sources) : Entity → Kind → Logged Event Entity → Prop where
  | fetched {e : Entity} {k : Kind} {xs : Logged Event (List Entity)}
      (hp : e.head.progress? k = some .fetched) (h : EndsEach sources k e.children xs) :
      EndsKind sources e k (xs >>= fun cs => pure (mk e.head cs))
  | other {e : Entity} {k : Kind} (hp : e.head.progress? k ≠ some .fetched) :
      EndsKind sources e k (pure e)

/-- Of siblings, those of a kind have been materialized. -/
inductive EndsEach (sources : Sources) : Kind → List Entity → Logged Event (List Entity) → Prop where
  | nil (k : Kind) : EndsEach sources k [] (pure [])
  | own {k : Kind} {c : Entity} {cs : List Entity} {x : Logged Event Entity}
      {xs : Logged Event (List Entity)} (hc : c.kind = k) (h : Ends sources c x)
      (hs : EndsEach sources k cs xs) :
      EndsEach sources k (c :: cs) (x >>= fun c => xs >>= fun cs => pure (c :: cs))
  | other {k : Kind} {c : Entity} {cs : List Entity} {xs : Logged Event (List Entity)}
      (hc : c.kind ≠ k) (hs : EndsEach sources k cs xs) :
      EndsEach sources k (c :: cs) (pure c >>= fun c => xs >>= fun cs => pure (c :: cs))

end

/-! ## §2. The one end -/

section Ends

variable {sources : Sources} {f : Entity → Logged Event Entity}

theorem ends_entity_iff {e : Entity} {x : Logged Event Entity} :
    Ends sources e x ↔ EndsKinds sources e e.kind.childKinds x := by
  constructor
  · intro h
    cases h with
    | entity h => exact h
  · exact .entity

/-- Siblings come to one end if those of the kind do. -/
theorem endsEach_iff {k : Kind} (hf : ∀ c, c.kind = k → ∀ x, Ends sources c x ↔ x = f c)
    (cs : List Entity) (xs : Logged Event (List Entity)) :
    EndsEach sources k cs xs
      ↔ xs = Logged.each (fun c => if c.kind = k then f c else pure c) cs := by
  induction cs generalizing xs with
  | nil =>
    constructor
    · intro h
      cases h
      rfl
    · rintro rfl
      exact .nil k
  | cons c cs ih =>
    unfold Logged.each
    constructor
    · intro h
      cases h with
      | own hc h hs => rw [if_pos hc, (hf c hc _).mp h, (ih _).mp hs]
      | other hc hs => rw [if_neg hc, (ih _).mp hs]
    · rintro rfl
      by_cases hc : c.kind = k
      · rw [if_pos hc]
        exact .own hc ((hf c hc _).mpr rfl) ((ih _).mpr rfl)
      · rw [if_neg hc]
        exact .other hc ((ih _).mpr rfl)

theorem endsKind_iff {k : Kind} (hf : ∀ c, c.kind = k → ∀ x, Ends sources c x ↔ x = f c)
    (e : Entity) (x : Logged Event Entity) : EndsKind sources e k x ↔ x = eachChild f e k := by
  unfold eachChild
  constructor
  · intro h
    cases h with
    | fetched hp h =>
      rw [hp, (endsEach_iff hf _ _).mp h]
    | other hp =>
      split
      · rename_i hfetched
        exact absurd hfetched hp
      · rfl
  · rintro rfl
    split
    · rename_i hp
      exact .fetched hp ((endsEach_iff hf _ _).mpr rfl)
    · rename_i hp
      exact .other hp

/-- Kinds come to one end if the children of each do. -/
theorem endsKinds_iff {ks : List Kind}
    (hf : ∀ k ∈ ks, ∀ c, c.kind = k → ∀ x, Ends sources c x ↔ x = f c) (e : Entity)
    (x : Logged Event Entity) :
    EndsKinds sources e ks x
      ↔ x = Logged.steps (fun e k => do
          let e' ← e.resolve sources k
          eachChild f e' k) e ks := by
  induction ks generalizing e x with
  | nil =>
    constructor
    · intro h
      cases h
      rfl
    · rintro rfl
      exact .done e
  | cons k ks ih =>
    have hk := hf k List.mem_cons_self
    have hrest := ih fun j hj => hf j (List.mem_cons_of_mem k hj)
    constructor
    · intro h
      cases h with
      | next h hs =>
        rw [(endsKind_iff hk _ _).mp h] at hs ⊢
        rw [(hrest _ _).mp hs]
        rfl
    · rintro rfl
      exact .next ((endsKind_iff hk _ _).mpr rfl) ((hrest _ _).mpr rfl)

/-- **A bound that is not below the rank of an entity cuts nothing short.** -/
theorem ends_materializeTo_iff (depth : Nat) :
    ∀ (e : Entity) (x : Logged Event Entity), e.kind.rank ≤ depth →
      (Ends sources e x ↔ x = materializeTo sources depth e) := by
  induction depth with
  | zero =>
    intro e x hrank
    have hnone : e.kind.childKinds = [] := by
      rw [List.eq_nil_iff_forall_not_mem]
      intro k hk
      have hlt : k.rank < e.kind.rank := Kind.rank_lt_of_mem_childKinds hk
      omega
    rw [ends_entity_iff, hnone]
    exact endsKinds_iff (f := pure) (by simp) e x
  | succ depth ih =>
    intro e x hrank
    rw [ends_entity_iff]
    -- what stands below ranks lower, so one level less is enough for it
    have hbelow : ∀ k ∈ e.kind.childKinds, ∀ c : Entity, c.kind = k →
        ∀ x, Ends sources c x ↔ x = materializeTo sources depth c := by
      intro k hk c hc x
      have hlt : k.rank < e.kind.rank := Kind.rank_lt_of_mem_childKinds hk
      exact ih c x (by rw [hc]; omega)
    exact endsKinds_iff hbelow e x

/-- **Materializing any entity comes to an end, and to one alone.** -/
theorem ends_iff (sources : Sources) (e : Entity) (x : Logged Event Entity) :
    Ends sources e x ↔ x = materialize sources e :=
  ends_materializeTo_iff e.kind.rank e x (Nat.le_refl _)

end Ends

end ListingMetadata.Entity
