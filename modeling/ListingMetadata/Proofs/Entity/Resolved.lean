/-
  ListingMetadata.Proofs.Entity.Resolved
  ──────────────────────────────────────
  **WHAT A READER SEES OF THE CHILDREN.**

  The children of all kinds stand in one list; a reader sees them kind by kind,
  and only those of a kind that is fetched.  The operations on children are
  described by what a reader sees: which children of a kind are resolved
  afterwards, and what stays as it was.

    • `resolved_congr`                   — what the resolved children depend on,
    • `resolved_opened_self` / `_of_ne`  — a kind opened anew has no children,
    • `resolved_readied`                 — making room for a child shows none.
-/
import ListingMetadata.Entity.Basic
import ListingMetadata.Proofs.Kind.Hierarchy

namespace ListingMetadata

/-! ## §1. Progress -/

namespace Head

/-- The head has a slot for each kind of children that may stand below it, and
no other. -/
def Slotted (h : Head) : Prop :=
  h.slots.map Prod.fst = h.kind.childKinds

/-- A head but for its progress. -/
def core (h : Head) : Head :=
  { h with slots := [] }

@[simp] theorem core_kind (h : Head) : h.core.kind = h.kind := rfl

@[simp] theorem core_id (h : Head) : h.core.id = h.id := rfl

@[simp] theorem core_path (h : Head) : h.core.path = h.path := rfl

@[simp] theorem core_source (h : Head) : h.core.source = h.source := rfl

theorem kind_eq_of_core {h h' : Head} (e : h.core = h'.core) : h.kind = h'.kind := by
  rw [← core_kind h, e, core_kind]

theorem id_eq_of_core {h h' : Head} (e : h.core = h'.core) : h.id = h'.id := by
  rw [← core_id h, e, core_id]

theorem path_eq_of_core {h h' : Head} (e : h.core = h'.core) : h.path = h'.path := by
  rw [← core_path h, e, core_path]

theorem source_eq_of_core {h h' : Head} (e : h.core = h'.core) : h.source = h'.source := by
  rw [← core_source h, e, core_source]

/-- What does not read the progress is the same for heads of one core. -/
theorem eq_of_core {α : Type} {h h' : Head} (e : h.core = h'.core) (f : Head → α)
    (hf : ∀ h : Head, f h.core = f h) : f h = f h' := by
  rw [← hf h, e, hf h']

theorem slots_setProgress_fst (h : Head) (k : Kind) (p : Progress) :
    (h.setProgress k p).slots.map Prod.fst = h.slots.map Prod.fst := by
  unfold setProgress
  rw [List.map_map]
  rfl

theorem Slotted.setProgress {h : Head} (hs : h.Slotted) (k : Kind) (p : Progress) :
    (h.setProgress k p).Slotted := by
  unfold Slotted
  rw [slots_setProgress_fst]
  exact hs

theorem slotted_fresh (kind : Kind) (strict : Bool) (layout : SharedLayout) :
    (fresh kind strict layout).Slotted := by
  show (freshSlots kind).map Prod.fst = kind.childKinds
  unfold freshSlots
  rw [List.map_map]
  exact List.map_id _

theorem progress?_eq_none_iff {h : Head} {k : Kind} :
    h.progress? k = none ↔ k ∉ h.slots.map Prod.fst := by
  unfold progress?
  rw [Option.map_eq_none_iff, List.find?_eq_none]
  constructor
  · intro hn hk
    obtain ⟨s, hs, rfl⟩ := List.mem_map.mp hk
    exact hn s hs (by simp)
  · intro hn s hs hk
    exact hn (List.mem_map.mpr ⟨s, hs, by simpa using hk⟩)

/-- A slotted head has a progress for exactly the kinds that may stand below. -/
theorem Slotted.progress?_ne_none {h : Head} (hs : h.Slotted) {k : Kind}
    (hk : h.kind.permits k = true) : h.progress? k ≠ none := by
  intro hn
  rw [progress?_eq_none_iff, hs] at hn
  exact hn (Kind.permits_iff.mp hk)

theorem Slotted.permits {h : Head} (hs : h.Slotted) {k : Kind}
    (hk : h.progress? k ≠ none) : h.kind.permits k = true := by
  rw [ne_eq, progress?_eq_none_iff, hs, Decidable.not_not] at hk
  exact Kind.permits_iff.mpr hk

/-- Where all kinds have the same progress, each has it. -/
theorem progress?_of_slots_eq {h : Head} {ks : List Kind} {p : Progress}
    (hs : h.slots = ks.map fun k => (k, p)) {k : Kind} (hk : k ∈ ks) : h.progress? k = some p := by
  have hne : h.progress? k ≠ none := by
    rw [ne_eq, progress?_eq_none_iff, hs, List.map_map, Decidable.not_not]
    exact List.mem_map.mpr ⟨k, hk, rfl⟩
  unfold progress? at hne ⊢
  rw [hs] at hne ⊢
  cases hf : (ks.map fun k => (k, p)).find? fun s => decide (s.1 = k) with
  | none => exact absurd (by rw [hf]; rfl) hne
  | some s =>
    obtain ⟨j, -, rfl⟩ := List.mem_map.mp (List.mem_of_find?_eq_some hf)
    rfl

theorem progress?_setProgress (h : Head) (k k' : Kind) (p : Progress) :
    (h.setProgress k p).progress? k'
      = if k' = k then (h.progress? k').map (fun _ => p) else h.progress? k' := by
  unfold progress? setProgress
  simp only [List.find?_map, Option.map_map, Function.comp_def]
  by_cases hk : k' = k
  · subst hk
    rw [if_pos rfl]
    cases hf : h.slots.find? (fun s => decide (s.1 = k')) with
    | none => rfl
    | some s =>
      have hs : s.1 = k' := by simpa using List.find?_some hf
      simp [hs]
  · rw [if_neg hk]
    cases hf : h.slots.find? (fun s => decide (s.1 = k')) with
    | none => rfl
    | some s =>
      have hs : s.1 = k' := by simpa using List.find?_some hf
      simp [hs, hk]

theorem progress?_setProgress_self {h : Head} {k : Kind} (p : Progress)
    (hk : h.progress? k ≠ none) : (h.setProgress k p).progress? k = some p := by
  rw [progress?_setProgress, if_pos rfl]
  obtain ⟨q, hq⟩ := Option.ne_none_iff_exists'.mp hk
  rw [hq]
  rfl

theorem progress?_setProgress_of_ne {h : Head} {k k' : Kind} (p : Progress) (hk : k' ≠ k) :
    (h.setProgress k p).progress? k' = h.progress? k' := by
  rw [progress?_setProgress, if_neg hk]

end Head

namespace Entity

/-! ## §2. Reading and opening -/

@[simp] theorem children_mk (h : Head) (cs : List Entity) : (mk h cs).children = cs := rfl

@[simp] theorem head_withHead (e : Entity) (h : Head) : (e.withHead h).head = h := rfl

theorem mem_resolved {e c : Entity} {k : Kind} :
    c ∈ e.resolved k ↔ e.head.progress? k = some .fetched ∧ c ∈ e.children ∧ c.kind = k := by
  unfold resolved
  split
  · rename_i hp
    simp [hp]
  · rename_i hp
    constructor
    · intro hc
      cases hc
    · rintro ⟨hf, -⟩
      exact absurd hf hp

theorem kind_of_mem_resolved {e c : Entity} {k : Kind} (h : c ∈ e.resolved k) : c.kind = k :=
  (mem_resolved.mp h).2.2

theorem resolved_of_fetched {e : Entity} {k : Kind} (h : e.head.progress? k = some .fetched) :
    e.resolved k = e.children.filter fun c => decide (c.kind = k) := by
  unfold resolved
  rw [h]

theorem resolved_of_not_fetched {e : Entity} {k : Kind}
    (h : e.head.progress? k ≠ some .fetched) : e.resolved k = [] := by
  unfold resolved
  split
  · rename_i hp
    exact absurd hp h
  · rfl

/-- Entities with the same progress of a kind and the same children of it have
the same resolved children of it. -/
theorem resolved_congr {e e' : Entity} {k : Kind}
    (hp : e.head.progress? k = e'.head.progress? k)
    (hc : (e.children.filter fun c => decide (c.kind = k))
      = e'.children.filter fun c => decide (c.kind = k)) :
    e.resolved k = e'.resolved k := by
  unfold resolved
  rw [hp, hc]

theorem slotted_opened {e : Entity} (hs : e.head.Slotted) (k : Kind) :
    (e.opened k).head.Slotted :=
  hs.setProgress k .fetched

theorem resolved_opened_self (e : Entity) (k : Kind) : (e.opened k).resolved k = [] := by
  rw [List.eq_nil_iff_forall_not_mem]
  intro c hc
  obtain ⟨-, hm, hk⟩ := mem_resolved.mp hc
  have hne : c.kind ≠ k := by simpa [opened] using (List.mem_filter.mp hm).2
  exact hne hk

theorem resolved_opened_of_ne (e : Entity) {k k' : Kind} (h : k' ≠ k) :
    (e.opened k).resolved k' = e.resolved k' := by
  apply resolved_congr
  · exact Head.progress?_setProgress_of_ne _ h
  · show ((e.children.filter fun c => decide (c.kind ≠ k)).filter _) = _
    rw [List.filter_filter]
    apply List.filter_congr
    intro c _
    by_cases hc : c.kind = k'
    · simp [hc, h]
    · simp [hc]

theorem progress?_readied_self {e : Entity} {k : Kind} (h : e.head.progress? k ≠ none) :
    (e.readied k).head.progress? k = some .fetched := by
  unfold readied
  split
  · assumption
  · exact Head.progress?_setProgress_self _ h

theorem progress?_readied_of_ne (e : Entity) {k k' : Kind} (h : k' ≠ k) :
    (e.readied k).head.progress? k' = e.head.progress? k' := by
  unfold readied
  split
  · rfl
  · exact Head.progress?_setProgress_of_ne _ h

theorem core_readied (e : Entity) (k : Kind) : (e.readied k).head.core = e.head.core := by
  unfold readied
  split <;> rfl

/-- Being ready for one more child shows no children that were not resolved. -/
theorem resolved_readied (e : Entity) (k k' : Kind) :
    (e.readied k).resolved k' = e.resolved k' := by
  unfold readied
  split
  · rfl
  · rename_i hp
    by_cases h : k' = k
    · subst h
      rw [resolved_opened_self, resolved_of_not_fetched hp]
    · exact resolved_opened_of_ne e h

end Entity

end ListingMetadata
