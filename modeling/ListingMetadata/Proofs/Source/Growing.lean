/-
  ListingMetadata.Proofs.Source.Growing
  ─────────────────────────────────────
  **MATERIALIZING ONLY ADDS, AND ONLY ONCE.**

  What was fetched before stays where it is, with more below it; what has failed
  stays so; and where nothing is left to ask for, materializing does nothing, with
  whatever sources:

    • `grows_materialize`       — the tree before and the tree after,
    • `materialize_of_explored` — once more.
-/
import ListingMetadata.Proofs.Source.Exploring

namespace ListingMetadata

/-! ## §1. Work that leaves everything as it is -/

namespace Logged

variable {ε α β : Type}

theorem each_eq_pure {f : α → Logged ε α} {xs : List α} (h : ∀ x ∈ xs, f x = pure x) :
    each f xs = pure xs := by
  induction xs with
  | nil => rfl
  | cons x xs ih =>
    unfold each
    rw [h x List.mem_cons_self, ih fun y hy => h y (List.mem_cons_of_mem x hy)]
    rfl

theorem steps_eq_pure {f : β → α → Logged ε β} {b : β} {xs : List α}
    (h : ∀ x ∈ xs, f b x = pure b) : steps f b xs = pure b := by
  induction xs with
  | nil => rfl
  | cons x xs ih =>
    unfold steps
    rw [h x List.mem_cons_self]
    show (⟨_, [] ++ _⟩ : Logged ε β) = _
    rw [List.nil_append]
    exact ih fun y hy => h y (List.mem_cons_of_mem x hy)

end Logged

namespace Entity

variable {sources : Sources}

/-! ## §2. The tree before and the tree after -/

/-- The second tree is the first with more resolved: slots that are fetched keep their
entities, each of which has grown itself, and slots that have failed stay failed. -/
inductive Grows : Entity → Entity → Prop where
  | intro {e e' : Entity} (hcore : e'.head.core = e.head.core)
      (hfetched : ∀ k, e.head.progress? k = some .fetched → e'.head.progress? k = some .fetched)
      (hitems : ∀ k, e.head.progress? k = some .fetched →
        List.Forall₂ Grows (e.resolved k) (e'.resolved k))
      (hfailed : ∀ k, e.head.progress? k = some .failed → e'.head.progress? k = some .failed) :
      Grows e e'

theorem grows_self (e : Entity) : Grows e e := by
  induction e using induct with
  | step h cs ih =>
    refine .intro rfl (fun _ hk => hk) ?_ fun _ hk => hk
    intro k _
    rw [List.forall₂_same]
    intro c hc
    exact ih c (mem_resolved.mp hc).2.1

/-- A kind that is not `unfetched` keeps its progress. -/
theorem progress?_materializeTo_of_ne (depth : Nat) {e : Entity} {k : Kind}
    (hb : e.BringsInKind sources) (h : e.head.progress? k ≠ some .unfetched) :
    (materializeTo sources (depth + 1) e).value.head.progress? k = e.head.progress? k := by
  rw [value_materializeTo_succ, progress?_foldl_deepened depth _ hb (Kind.nodup_childKinds _),
    value_resolve_of_ne h, ite_self]

/-- **A materialized tree has grown.** -/
theorem grows_materializeTo (depth : Nat) :
    ∀ e : Entity, e.WellFormed → e.AsksInKind sources →
      Grows e (materializeTo sources depth e).value := by
  induction depth with
  | zero =>
    intro e _ _
    exact grows_self e
  | succ depth ih =>
    intro e he hk
    have hs := he.here.slotted
    have hb := hk.bringsInKind
    refine .intro (core_materializeTo sources (depth + 1) e) ?_ ?_ ?_
    · intro k hfetched
      rw [progress?_materializeTo_of_ne depth hb (by rw [hfetched]; simp)]
      exact hfetched
    · intro k hfetched
      have hchild : k ∈ e.kind.childKinds :=
        Kind.permits_iff.mp (hs.permits (by rw [hfetched]; simp))
      -- a fetched kind is not asked for again, so its entities are those that were there
      rw [resolved_materializeTo_succ depth hs hb hchild,
        value_resolve_of_ne (by rw [hfetched]; simp), List.forall₂_map_right_iff, List.forall₂_same]
      intro c hc
      exact ih c (he.child hc) (hk.of_source (he.here.bound k c hc))
    · intro k hfailed
      rw [progress?_materializeTo_of_ne depth hb (by rw [hfailed]; simp)]
      exact hfailed

theorem grows_materialize {e : Entity} (he : e.WellFormed) (hk : e.AsksInKind sources) :
    Grows e (materialize sources e).value :=
  grows_materializeTo e.kind.rank e he hk

/-! ## §3. Once more -/

theorem resolve_of_ne {e : Entity} {k : Kind} (h : e.head.progress? k ≠ some .unfetched) :
    e.resolve sources k = pure e :=
  if_neg h

theorem eachChild_eq_pure {f : Entity → Logged Event Entity} {e : Entity} {k : Kind}
    (h : ∀ c ∈ e.resolved k, f c = pure c) : eachChild f e k = pure e := by
  unfold eachChild
  split
  · rename_i hp
    have hsame : Logged.each (fun c => if c.kind = k then f c else pure c) e.children
        = pure e.children := by
      apply Logged.each_eq_pure
      intro c hc
      by_cases hck : c.kind = k
      · rw [if_pos hck]
        exact h c (mem_resolved.mpr ⟨hp, hc, hck⟩)
      · rw [if_neg hck]
    rw [hsame]
    cases e
    rfl
  · rfl

/-- **Where nothing is left to ask for, materializing does nothing.** -/
theorem materializeTo_of_explored (sources : Sources) (depth : Nat) :
    ∀ e : Entity, e.Explored → materializeTo sources depth e = pure e := by
  induction depth with
  | zero =>
    intro e _
    rfl
  | succ depth ih =>
    intro e he
    obtain ⟨hhere, hbelow⟩ := explored_iff.mp he
    unfold materializeTo
    apply Logged.steps_eq_pure
    intro k _
    rw [resolve_of_ne (hhere k)]
    exact eachChild_eq_pure fun c hc => ih c (hbelow k c hc)

theorem materialize_of_explored (sources : Sources) {e : Entity} (he : e.Explored) :
    materialize sources e = pure e :=
  materializeTo_of_explored sources e.kind.rank e he

end Entity

end ListingMetadata
