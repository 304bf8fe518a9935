/-
  ListingMetadata.Proofs.Entity.Paths
  ───────────────────────────────────
  **WHEN PATHS FOLLOW THE TREE.**

  An entity keeps the path of its parent as a text.  The paths of a tree hold
  when the path of each resolved child is made of the path of its parent and
  its own id.  Every step by which trees are made sees to it; a change of
  attributes does as long as the id stays:

    • `lasting_pathsHold`             — all steps but changes of attributes,
    • `pathsHold_withHead_of_id_eq`   — a change that keeps the id,
    • `not_pathsHold_withHead`        — a change of the id above a resolved child.
-/
import ListingMetadata.Proofs.Source.Lasting

namespace ListingMetadata.Entity

/-! ## §1. The property -/

/-- The first entity is the second or is resolved somewhere below it. -/
inductive Within : Entity → Entity → Prop where
  | here (e : Entity) : Within e e
  | down {x c e : Entity} {k : Kind} : c ∈ e.resolved k → Within x c → Within x e

/-- What holds in a whole tree holds of its root and in the trees of the children. -/
theorem forall_within_iff {P : Entity → Prop} {e : Entity} :
    (∀ x, Within x e → P x) ↔ P e ∧ ∀ k, ∀ c ∈ e.resolved k, ∀ x, Within x c → P x := by
  constructor
  · intro h
    exact ⟨h e (.here e), fun k c hc x hx => h x (.down hc hx)⟩
  · rintro ⟨hhere, hbelow⟩ x hx
    cases hx with
    | here => exact hhere
    | down hc hx => exact hbelow _ _ hc x hx

/-- Each resolved child in the tree has the path that its parent and its id
make. -/
def PathsHold (e : Entity) : Prop :=
  ∀ x, Within x e → ∀ k, ∀ c ∈ x.resolved k, c.path = Head.below x.path c.id

theorem pathsHold_iff {e : Entity} :
    e.PathsHold ↔ ∀ k, ∀ c ∈ e.resolved k, c.path = Head.below e.path c.id ∧ c.PathsHold := by
  unfold PathsHold
  rw [forall_within_iff]
  constructor
  · rintro ⟨hhere, hbelow⟩ k c hc
    exact ⟨hhere k c hc, hbelow k c hc⟩
  · intro h
    exact ⟨fun k c hc => (h k c hc).1, fun k c hc => (h k c hc).2⟩

/-- Fewer children at the same path: the paths still hold. -/
theorem PathsHold.of_subset {e e' : Entity} (h : e.PathsHold) (hp : e'.path = e.path)
    (hr : ∀ k c, c ∈ e'.resolved k → c ∈ e.resolved k) : e'.PathsHold := by
  rw [pathsHold_iff] at h ⊢
  intro k c hc
  rw [hp]
  exact h k c (hr k c hc)

/-! ## §2. The steps by which trees are made -/

theorem pathsHold_bare (h : Head) : (mk h []).PathsHold := by
  rw [pathsHold_iff]
  intro k c hc
  cases (mem_resolved.mp hc).2.1

/-- **In a placed tree the paths hold, whatever they were before.** -/
theorem pathsHold_placed (e : Entity) :
    ∀ (p : Option String) (s : Option Nat), (e.placed p s).PathsHold := by
  induction e using induct with
  | step h cs ih =>
    intro p s
    rw [pathsHold_iff]
    intro k c hc
    rw [resolved_placed] at hc
    obtain ⟨b, hb, rfl⟩ := List.mem_map.mp hc
    refine ⟨?_, ih b (mem_resolved.mp hb).2.1 _ s⟩
    rw [path_placed_some, id_placed]

theorem mem_resolved_adopt {e child c : Entity} {k : Kind} (h : c ∈ (e.adopt child).resolved k) :
    c = child.placed (some e.path) e.head.source ∨ c ∈ e.resolved k := by
  obtain ⟨hp, hm, hk⟩ := mem_resolved.mp h
  rcases mem_replaceOrAppend hm with hm | hm
  · exact Or.inl hm
  · right
    rw [← resolved_readied e child.kind k]
    exact mem_resolved.mpr ⟨hp, hm, hk⟩

theorem pathsHold_adopt {e : Entity} (h : e.PathsHold) (child : Entity) :
    (e.adopt child).PathsHold := by
  have hpath : (e.adopt child).path = e.path := Head.path_eq_of_core (core_adopt e child)
  rw [pathsHold_iff] at h ⊢
  intro k c hc
  rw [hpath]
  -- the new child is placed below this path; the others stay where they are
  rcases mem_resolved_adopt hc with hc | hc
  · rw [hc]
    refine ⟨?_, pathsHold_placed child _ _⟩
    rw [path_placed_some, id_placed]
  · exact h k c hc

theorem mem_removeFirst {k : Kind} {id : String} {c : Entity} {cs : List Entity}
    (h : c ∈ removeFirst k id cs) : c ∈ cs := by
  induction cs with
  | nil => cases h
  | cons d cs ih =>
    unfold removeFirst at h
    split at h
    · exact List.mem_cons_of_mem _ h
    · rcases List.mem_cons.mp h with h | h
      · exact List.mem_cons.mpr (Or.inl h)
      · exact List.mem_cons_of_mem _ (ih h)

theorem head_remove (e : Entity) (k : Kind) (id : String) : (e.remove k id).2.head = e.head := by
  unfold remove
  cases e.resolvedChild? k id <;> rfl

theorem mem_resolved_remove {e c : Entity} {k j : Kind} {id : String}
    (h : c ∈ (e.remove k id).2.resolved j) : c ∈ e.resolved j := by
  unfold remove at h
  cases hr : e.resolvedChild? k id with
  | none =>
    rw [hr] at h
    exact h
  | some d =>
    rw [hr] at h
    obtain ⟨hp, hm, hk⟩ := mem_resolved.mp h
    exact mem_resolved.mpr ⟨hp, mem_removeFirst hm, hk⟩

theorem mem_resolved_setProgress {e c : Entity} {k j : Kind}
    (h : c ∈ (e.withHead (e.head.setProgress k .failed)).resolved j) : c ∈ e.resolved j := by
  obtain ⟨hp, hm, hk⟩ := mem_resolved.mp h
  rw [head_withHead, Head.progress?_setProgress] at hp
  by_cases hj : j = k
  · rw [if_pos hj] at hp
    cases hq : e.head.progress? j <;> simp [hq] at hp
  · rw [if_neg hj] at hp
    exact mem_resolved.mpr ⟨hp, hm, hk⟩

theorem mem_resolved_opened {e c : Entity} {k j : Kind} (h : c ∈ (e.opened k).resolved j) :
    c ∈ e.resolved j := by
  by_cases hj : j = k
  · rw [hj, resolved_opened_self] at h
    cases h
  · rw [resolved_opened_of_ne e hj] at h
    exact h

theorem pathsHold_eachChild {e : Entity} (h : e.PathsHold) (k : Kind)
    {f : Entity → Logged Event Entity} (hf : ∀ c, c.PathsHold → (f c).value.PathsHold)
    (hcore : ∀ c, (f c).value.head.core = c.head.core) :
    (Entity.eachChild f e k).value.PathsHold := by
  have hkind : ∀ c, (f c).value.kind = c.kind := fun c => Head.kind_eq_of_core (hcore c)
  have hpath : (Entity.eachChild f e k).value.path = e.path := by
    unfold path
    rw [head_eachChild]
  rw [pathsHold_iff] at h ⊢
  intro j c hc
  rw [hpath]
  by_cases hj : j = k
  · rw [hj, resolved_eachChild_self hkind] at hc
    obtain ⟨b, hb, rfl⟩ := List.mem_map.mp hc
    obtain ⟨hbpath, hbelow⟩ := h k b hb
    have hid : (f b).value.id = b.id := Head.id_eq_of_core (hcore b)
    have hsame : (f b).value.path = b.path := Head.path_eq_of_core (hcore b)
    rw [hid, hsame]
    exact ⟨hbpath, hf b hbelow⟩
  · rw [resolved_eachChild_of_ne hkind e hj] at hc
    exact h j c hc

/-- **The paths hold through every step by which trees are made.** -/
theorem lasting_pathsHold : Lasting PathsHold where
  bare h _ _ := pathsHold_bare h
  placed e p s _ := pathsHold_placed e p s
  resolved e k c h hc := (pathsHold_iff.mp h k c hc).2
  adopt e c h _ _ := pathsHold_adopt h c
  remove e k id h := by
    refine h.of_subset ?_ fun _ _ => mem_resolved_remove
    unfold path
    rw [head_remove]
  opened e k h _ := h.of_subset rfl fun _ _ => mem_resolved_opened
  failed e k h _ := h.of_subset rfl fun _ _ => mem_resolved_setProgress
  eachChild e k f h hf hcore := pathsHold_eachChild h k hf hcore

/-! ## §3. Changes of attributes -/

theorem resolved_withHead {e : Entity} {h : Head} (hf : h.frame = e.head.frame) (k : Kind) :
    (e.withHead h).resolved k = e.resolved k :=
  resolved_congr (Head.progress?_eq_of_frame hf k) rfl

theorem path_withHead {e : Entity} {h : Head} (hf : h.frame = e.head.frame) :
    (e.withHead h).path = Head.below (e.head.parentPath.getD "") h.id := by
  show Head.below (h.parentPath.getD "") h.id = _
  rw [Head.parentPath_eq_of_frame hf]

/-- A change that keeps the id keeps the paths. -/
theorem pathsHold_withHead_of_id_eq {e : Entity} (he : e.PathsHold) {h : Head}
    (hf : h.frame = e.head.frame) (hid : h.id = e.id) : (e.withHead h).PathsHold := by
  refine he.of_subset ?_ fun k c hc => resolved_withHead hf k ▸ hc
  rw [path_withHead hf, hid]
  rfl

/-- Without resolved children there is no path to keep. -/
theorem pathsHold_withHead_of_childless {e : Entity} {h : Head} (hf : h.frame = e.head.frame)
    (hnone : ∀ k, e.resolved k = []) : (e.withHead h).PathsHold := by
  rw [pathsHold_iff]
  intro k c hc
  rw [resolved_withHead hf, hnone k] at hc
  cases hc

/-- **A change of the id breaks the path of every resolved child.** -/
theorem not_pathsHold_withHead {e c : Entity} {k : Kind} (he : e.PathsHold) {h : Head}
    (hf : h.frame = e.head.frame) (hid : h.id ≠ e.id) (hc : c ∈ e.resolved k) :
    ¬ (e.withHead h).PathsHold := by
  intro hafter
  have hbefore : c.path = Head.below e.path c.id := (pathsHold_iff.mp he k c hc).1
  have hnow : c.path = Head.below (e.withHead h).path c.id :=
    (pathsHold_iff.mp hafter k c (by rw [resolved_withHead hf]; exact hc)).1
  -- a child with one path below two parents: the parents have one path too
  have hpath : e.path = (e.withHead h).path := Head.below_inj_left (hbefore.symm.trans hnow)
  rw [path_withHead hf] at hpath
  exact hid (Head.below_inj_right hpath).symm

end ListingMetadata.Entity
