/-
  ListingMetadata.Proofs.Entity.Adding
  ────────────────────────────────────
  **ADDING CHILDREN, ONE OR MANY.**

  Fetching and building add children one by one and pass over those that may
  not stand below the entity.  Both come to one fold, and what it leaves in a
  kind is the fold of `replaceOrAppend` over the children of that kind:

    • `resolved_adopt_self` / `_of_ne`  — one child,
    • `resolved_foldl_offered`          — many children,
    • `replaceAll_eq_append`            — with distinct ids, they are appended.
-/
import ListingMetadata.Proofs.Entity.Placing

namespace ListingMetadata.Entity

/-! ## §1. Lists of siblings -/

/-- Several entities in turn, each in the place of the first of its kind and id,
or else at the end. -/
def replaceAll (siblings cs : List Entity) : List Entity :=
  cs.foldl (fun l c => replaceOrAppend c l) siblings

theorem filter_replaceOrAppend_self (child : Entity) (cs : List Entity) :
    (replaceOrAppend child cs).filter (fun c => decide (c.kind = child.kind))
      = replaceOrAppend child (cs.filter fun c => decide (c.kind = child.kind)) := by
  induction cs with
  | nil => simp [replaceOrAppend]
  | cons c cs ih =>
    by_cases hk : c.kind = child.kind
    · by_cases hi : c.id = child.id
      · simp [replaceOrAppend, hk, hi]
      · simp [replaceOrAppend, hk, hi, ih]
    · simp [replaceOrAppend, hk, ih]

theorem filter_replaceOrAppend_of_ne (child : Entity) {k : Kind} (h : k ≠ child.kind)
    (cs : List Entity) :
    (replaceOrAppend child cs).filter (fun c => decide (c.kind = k))
      = cs.filter fun c => decide (c.kind = k) := by
  have hchild : ¬ child.kind = k := fun e => h e.symm
  induction cs with
  | nil => simp [replaceOrAppend, hchild]
  | cons c cs ih =>
    unfold replaceOrAppend
    split
    · rename_i hm
      have hc : ¬ c.kind = k := fun e => hchild (hm.1 ▸ e)
      simp [hchild, hc]
    · rw [List.filter_cons, List.filter_cons, ih]

theorem mem_replaceOrAppend {child x : Entity} {cs : List Entity}
    (h : x ∈ replaceOrAppend child cs) : x = child ∨ x ∈ cs := by
  induction cs with
  | nil =>
    left
    simpa [replaceOrAppend] using h
  | cons c cs ih =>
    unfold replaceOrAppend at h
    split at h
    · rcases List.mem_cons.mp h with h | h
      · exact Or.inl h
      · exact Or.inr (List.mem_cons_of_mem _ h)
    · rcases List.mem_cons.mp h with h | h
      · exact Or.inr (List.mem_cons.mpr (Or.inl h))
      · rcases ih h with h | h
        · exact Or.inl h
        · exact Or.inr (List.mem_cons_of_mem _ h)

theorem self_mem_replaceOrAppend (child : Entity) (cs : List Entity) :
    child ∈ replaceOrAppend child cs := by
  induction cs with
  | nil => simp [replaceOrAppend]
  | cons c cs ih =>
    unfold replaceOrAppend
    split
    · exact List.mem_cons_self
    · exact List.mem_cons_of_mem _ ih

/-- A sibling stays, or is replaced by its namesake. -/
theorem mem_replaceOrAppend_of_mem {child x : Entity} {cs : List Entity} (h : x ∈ cs) :
    x ∈ replaceOrAppend child cs ∨ (x.kind = child.kind ∧ x.id = child.id) := by
  induction cs with
  | nil => cases h
  | cons c cs ih =>
    unfold replaceOrAppend
    rcases List.mem_cons.mp h with h | h
    · subst h
      split
      · exact Or.inr ‹_›
      · exact Or.inl List.mem_cons_self
    · split
      · exact Or.inl (List.mem_cons_of_mem _ h)
      · rcases ih h with h | h
        · exact Or.inl (List.mem_cons_of_mem _ h)
        · exact Or.inr h

theorem mem_replaceAll {siblings cs : List Entity} {x : Entity}
    (h : x ∈ replaceAll siblings cs) : x ∈ siblings ∨ x ∈ cs := by
  induction cs generalizing siblings with
  | nil => exact Or.inl h
  | cons c cs ih =>
    have hin : x ∈ replaceOrAppend c siblings ∨ x ∈ cs := ih h
    rcases hin with h | h
    · rcases mem_replaceOrAppend h with h | h
      · exact Or.inr (List.mem_cons.mpr (Or.inl h))
      · exact Or.inl h
    · exact Or.inr (List.mem_cons_of_mem _ h)

/-- Each of the siblings and of the entities put among them has its kind and id
in the result. -/
theorem exists_mem_replaceAll {siblings cs : List Entity} {x : Entity}
    (h : x ∈ siblings ∨ x ∈ cs) :
    ∃ y ∈ replaceAll siblings cs, y.kind = x.kind ∧ y.id = x.id := by
  induction cs generalizing siblings x with
  | nil =>
    rcases h with h | h
    · exact ⟨x, h, rfl, rfl⟩
    · cases h
  | cons c cs ih =>
    -- a sibling that the first one replaces is its namesake
    have hc : ∃ y ∈ replaceAll (replaceOrAppend c siblings) cs, y.kind = c.kind ∧ y.id = c.id :=
      ih (Or.inl (self_mem_replaceOrAppend c siblings))
    rcases h with h | h
    · have hkept : x ∈ replaceOrAppend c siblings ∨ (x.kind = c.kind ∧ x.id = c.id) :=
        mem_replaceOrAppend_of_mem h
      rcases hkept with h | ⟨hk, hi⟩
      · exact ih (Or.inl h)
      · obtain ⟨y, hy, hyk, hyi⟩ := hc
        exact ⟨y, hy, hyk.trans hk.symm, hyi.trans hi.symm⟩
    · rcases List.mem_cons.mp h with h | h
      · rw [h]
        exact hc
      · exact ih (Or.inr h)

theorem replaceOrAppend_eq_append {child : Entity} {cs : List Entity}
    (h : ∀ c ∈ cs, ¬(c.kind = child.kind ∧ c.id = child.id)) :
    replaceOrAppend child cs = cs ++ [child] := by
  induction cs with
  | nil => rfl
  | cons c cs ih =>
    unfold replaceOrAppend
    rw [if_neg (h c List.mem_cons_self), ih fun d hd => h d (List.mem_cons_of_mem _ hd)]
    rfl

/-- Entities of distinct kinds or ids are appended. -/
theorem replaceAll_eq_append {siblings cs : List Entity}
    (h : (siblings ++ cs).Pairwise fun a b => ¬(a.kind = b.kind ∧ a.id = b.id)) :
    replaceAll siblings cs = siblings ++ cs := by
  induction cs generalizing siblings with
  | nil => simp [replaceAll]
  | cons c cs ih =>
    have hsplit : siblings ++ c :: cs = (siblings ++ [c]) ++ cs := by simp
    have hnew : ∀ s ∈ siblings, ¬(s.kind = c.kind ∧ s.id = c.id) := by
      intro s hs
      exact (List.pairwise_append.mp h).2.2 s hs c List.mem_cons_self
    show replaceAll (replaceOrAppend c siblings) cs = _
    rw [replaceOrAppend_eq_append hnew, hsplit]
    exact ih (hsplit ▸ h)

/-! ## §2. One child -/

/-- The other may stand below the entity: its kind is permitted and it has an
id. -/
def accepts (e child : Entity) : Bool :=
  e.kind.permits child.kind && decide (child.id ≠ "")

theorem accepts_iff {e child : Entity} :
    e.accepts child = true ↔ e.kind.permits child.kind = true ∧ child.id ≠ "" := by
  unfold accepts
  rw [Bool.and_eq_true, decide_eq_true_eq]

theorem accepts_eq_false_iff {e child : Entity} :
    e.accepts child = false ↔ e.kind.permits child.kind = false ∨ child.id = "" := by
  unfold accepts
  rw [Bool.and_eq_false_iff, decide_eq_false_iff_not, Decidable.not_not]

theorem refusal?_eq_none_iff {e child : Entity} :
    e.refusal? child = none ↔ e.accepts child = true := by
  unfold refusal?
  rw [accepts_iff]
  cases hp : e.kind.permits child.kind with
  | false => simp
  | true =>
    by_cases hi : child.id = ""
    · simp [hi]
    · simp [hi]

theorem add_of_accepts {e child : Entity} (h : e.accepts child = true) :
    e.add child = .ok (e.adopt child) := by
  unfold add
  rw [refusal?_eq_none_iff.mpr h]

/-- A child of a kind that may not stand there is refused for that, any other for its
missing id. -/
theorem add_of_not_accepts {e child : Entity} (h : e.accepts child = false) :
    e.add child = .error (if e.kind.permits child.kind then .missingId child.kind
      else .childNotPermitted e.kind child.kind) := by
  unfold add refusal?
  cases hpermits : e.kind.permits child.kind with
  | false => rfl
  | true =>
    have hempty : child.id = "" := (accepts_eq_false_iff.mp h).resolve_left (by simp [hpermits])
    rw [if_pos hempty]
    rfl

/-- The entity with a child, if it may stand there. -/
def offered (e child : Entity) : Entity :=
  match e.add child with
  | .ok e' => e'
  | .error _ => e

theorem offered_of_accepts {e child : Entity} (h : e.accepts child = true) :
    e.offered child = e.adopt child := by
  unfold offered
  rw [add_of_accepts h]

theorem offered_of_not_accepts {e child : Entity} (h : e.accepts child = false) :
    e.offered child = e := by
  unfold offered
  rw [add_of_not_accepts h]

@[simp] theorem core_adopt (e child : Entity) : (e.adopt child).head.core = e.head.core :=
  core_readied e child.kind

theorem slotted_adopt {e : Entity} (hs : e.head.Slotted) (child : Entity) :
    (e.adopt child).head.Slotted := by
  show (e.readied child.kind).head.Slotted
  unfold readied
  split
  · exact hs
  · exact hs.setProgress _ _

theorem progress?_adopt_of_ne (e child : Entity) {k : Kind} (h : k ≠ child.kind) :
    (e.adopt child).head.progress? k = e.head.progress? k :=
  progress?_readied_of_ne e h

theorem progress?_adopt_self {e child : Entity} (h : e.head.progress? child.kind ≠ none) :
    (e.adopt child).head.progress? child.kind = some .fetched :=
  progress?_readied_self h

/-- A child replaces its namesake, or comes last among the resolved children of
its kind; a kind that was not resolved then has this child alone. -/
theorem resolved_adopt_self {e child : Entity} (h : e.head.progress? child.kind ≠ none) :
    (e.adopt child).resolved child.kind
      = replaceOrAppend (child.placed (some e.path) e.head.source) (e.resolved child.kind) := by
  rw [resolved_of_fetched (progress?_adopt_self h), ← resolved_readied e child.kind,
    resolved_of_fetched (progress?_readied_self h)]
  have hfilter := filter_replaceOrAppend_self (child.placed (some e.path) e.head.source)
    (e.readied child.kind).children
  rw [kind_placed] at hfilter
  exact hfilter

theorem resolved_adopt_of_ne (e child : Entity) {k : Kind} (h : k ≠ child.kind) :
    (e.adopt child).resolved k = e.resolved k := by
  rw [← resolved_readied e child.kind k]
  apply resolved_congr
  · rfl
  · exact filter_replaceOrAppend_of_ne _ (by rw [kind_placed]; exact h) _

/-! ## §3. Many children -/

theorem core_offered (e child : Entity) : (e.offered child).head.core = e.head.core := by
  cases h : e.accepts child with
  | true => rw [offered_of_accepts h, core_adopt]
  | false => rw [offered_of_not_accepts h]

theorem slotted_offered {e : Entity} (hs : e.head.Slotted) (child : Entity) :
    (e.offered child).head.Slotted := by
  cases h : e.accepts child with
  | true =>
    rw [offered_of_accepts h]
    exact slotted_adopt hs child
  | false =>
    rw [offered_of_not_accepts h]
    exact hs

theorem core_foldl_offered (e : Entity) (cs : List Entity) :
    (cs.foldl offered e).head.core = e.head.core := by
  induction cs generalizing e with
  | nil => rfl
  | cons c cs ih => exact (ih (e.offered c)).trans (core_offered e c)

theorem slotted_foldl_offered {e : Entity} (hs : e.head.Slotted) (cs : List Entity) :
    (cs.foldl offered e).head.Slotted := by
  induction cs generalizing e with
  | nil => exact hs
  | cons c cs ih => exact ih (slotted_offered hs c)

theorem accepts_of_core {e e' : Entity} (h : e.head.core = e'.head.core) (c : Entity) :
    e.accepts c = e'.accepts c := by
  have hk : e.kind = e'.kind := Head.kind_eq_of_core h
  unfold accepts
  rw [hk]

/-- A kind of which no child is accepted stays as it is. -/
theorem progress?_foldl_offered_of_not_accepts {e : Entity} {cs : List Entity} {k : Kind}
    (h : ∀ c ∈ cs, c.kind = k → e.accepts c = false) :
    (cs.foldl offered e).head.progress? k = e.head.progress? k := by
  induction cs generalizing e with
  | nil => rfl
  | cons c cs ih =>
    have hrest : ∀ d ∈ cs, d.kind = k → (e.offered c).accepts d = false := by
      intro d hd hk
      rw [accepts_of_core (core_offered e c)]
      exact h d (List.mem_cons_of_mem _ hd) hk
    rw [List.foldl_cons, ih hrest]
    cases ha : e.accepts c with
    | true =>
      have hne : k ≠ c.kind := by
        rintro rfl
        rw [h c List.mem_cons_self rfl] at ha
        cases ha
      rw [offered_of_accepts ha]
      exact progress?_adopt_of_ne e c hne
    | false => rw [offered_of_not_accepts ha]

theorem progress?_foldl_offered_of_ne {e : Entity} {cs : List Entity} {k : Kind}
    (h : ∀ c ∈ cs, c.kind ≠ k) :
    (cs.foldl offered e).head.progress? k = e.head.progress? k :=
  progress?_foldl_offered_of_not_accepts fun c hc hk => absurd hk (h c hc)

/-- **What many children leave in a kind.**  Those of the kind that may stand
there are put among the resolved ones in turn, all of them below the path of
the entity and bound to its source. -/
theorem resolved_foldl_offered {e : Entity} (hs : e.head.Slotted) (cs : List Entity) (k : Kind) :
    (cs.foldl offered e).resolved k
      = replaceAll (e.resolved k)
          ((cs.filter fun c => decide (c.kind = k) && e.accepts c).map
            (placed (some e.path) e.head.source)) := by
  -- the core stays, so a later child is accepted and placed as it would be first
  induction cs generalizing e with
  | nil => rfl
  | cons c cs ih =>
    have hcore := core_offered e c
    have hpath : (e.offered c).path = e.path := Head.path_eq_of_core hcore
    have haccepts : ∀ d, (e.offered c).accepts d = e.accepts d := accepts_of_core hcore
    rw [List.foldl_cons, ih (slotted_offered hs c), hpath, Head.source_eq_of_core hcore]
    simp only [haccepts]
    cases ha : e.accepts c with
    | false =>
      rw [offered_of_not_accepts ha, List.filter_cons_of_neg (by simp [ha])]
    | true =>
      rw [offered_of_accepts ha]
      by_cases hk : c.kind = k
      · subst hk
        have hslot := hs.progress?_ne_none (accepts_iff.mp ha).1
        rw [resolved_adopt_self hslot, List.filter_cons_of_pos (by simp [ha])]
        rfl
      · rw [resolved_adopt_of_ne e c (Ne.symm hk), List.filter_cons_of_neg (by simp [hk])]

end ListingMetadata.Entity
