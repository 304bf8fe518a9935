/-
  ListingMetadata.Proofs.Entity.Moving
  ────────────────────────────────────
  **WHAT MOVING A TREE CHANGES, AND WHAT IT LEAVES.**

  A child that is adopted comes to a new place with all below it; a child that is
  removed leaves its siblings in their order.  Both say what is seen of the parent
  afterwards, slot by slot:

      p.adopt c                slot of c: c in the place of its namesake, or last
      (p.remove k i).2         slot k:    before ++ c :: after  ⟶  before ++ after

    • `adopted_adopt`            — adopting,
    • `detached_remove`          — removing,
    • `rootedAt_of_detached_iff` — when what was removed is a root again.
-/
import ListingMetadata.Proofs.Entity.Lineage

namespace ListingMetadata.Entity

/-! ## §1. Adopting -/

/-- An entity put among siblings: in the place of the first that has its id, or else
after all of them. -/
inductive PutAmong (c : Entity) : List Entity → List Entity → Prop where
  | replaced {before after : List Entity} {d : Entity} (hbefore : ∀ x ∈ before, x.id ≠ c.id)
      (hd : d.id = c.id) : PutAmong c (before ++ d :: after) (before ++ c :: after)
  | appended {cs : List Entity} (hcs : ∀ x ∈ cs, x.id ≠ c.id) : PutAmong c cs (cs ++ [c])

theorem PutAmong.cons {c d : Entity} {cs cs' : List Entity} (h : PutAmong c cs cs')
    (hd : d.id ≠ c.id) : PutAmong c (d :: cs) (d :: cs') := by
  cases h with
  | replaced hbefore hnamesake =>
    rw [← List.cons_append, ← List.cons_append]
    exact .replaced (List.forall_mem_cons.mpr ⟨hd, hbefore⟩) hnamesake
  | appended hcs => exact .appended (List.forall_mem_cons.mpr ⟨hd, hcs⟩)

/-- Among siblings of one kind only the id tells them apart. -/
theorem putAmong_replaceOrAppend {c : Entity} {cs : List Entity}
    (hk : ∀ d ∈ cs, d.kind = c.kind) : PutAmong c cs (replaceOrAppend c cs) := by
  induction cs with
  | nil => exact @PutAmong.appended c [] (List.forall_mem_nil _)
  | cons d cs ih =>
    obtain ⟨hdk, hk⟩ := List.forall_mem_cons.mp hk
    unfold replaceOrAppend
    by_cases hid : d.id = c.id
    · rw [if_pos ⟨hdk, hid⟩]
      exact @PutAmong.replaced c [] cs d (List.forall_mem_nil _) hid
    · rw [if_neg fun h => hid h.2]
      exact (ih hk).cons hid

/-- The last entity is the first with a child below it, which stands there as
another entity; nothing else of the first has changed. -/
structure Adopted (p child child' p' : Entity) : Prop where
  /-- All of the child has come along. -/
  whole : child'.unplaced = child.unplaced
  rooted : child'.RootedAt p.path
  bound : ∀ x, Within x child' → x.head.source = p.head.source
  slot : PutAmong child' (p.resolved child.kind) (p'.resolved child.kind)
  /-- A slot that was not fetched has the child alone. -/
  alone : p.head.progress? child.kind ≠ some .fetched → p'.resolved child.kind = [child']
  fetched : p'.head.progress? child.kind = some .fetched
  core : p'.head.core = p.head.core
  progress : ∀ k, k ≠ child.kind → p'.head.progress? k = p.head.progress? k
  others : ∀ k, k ≠ child.kind → p'.resolved k = p.resolved k

/-- **What adopting changes.**  The child comes below the path of its parent and to
its source, with all that is below it. -/
theorem adopted_adopt {p child : Entity} (hs : p.head.Slotted) (ha : p.accepts child = true) :
    Adopted p child (child.placed (some p.path) p.head.source) (p.adopt child) := by
  obtain ⟨hpermits, hid⟩ := accepts_iff.mp ha
  have hslot : p.head.progress? child.kind ≠ none := hs.progress?_ne_none hpermits
  have hself := resolved_adopt_self hslot
  have hkinds : ∀ d ∈ p.resolved child.kind,
      d.kind = (child.placed (some p.path) p.head.source).kind := by
    intro d hd
    rw [kind_placed]
    exact kind_of_mem_resolved hd
  exact {
    whole := unplaced_placed child _ _
    rooted := rootedAt_placed hid p.path _
    bound := fun x hx => source_of_within_placed hx
    slot := hself ▸ putAmong_replaceOrAppend hkinds
    alone := by
      intro hnot
      rw [hself, resolved_of_not_fetched hnot]
      rfl
    fetched := progress?_adopt_self hslot
    core := core_adopt p child
    progress := fun k hk => progress?_adopt_of_ne p child hk
    others := fun k hk => resolved_adopt_of_ne p child hk }

/-- What comes along has the id that it had. -/
theorem Adopted.id {p child child' p' : Entity} (h : Adopted p child child' p') :
    child'.id = child.id := by
  rw [← id_unplaced child', h.whole, id_unplaced]

/-! ## §2. Removing -/

theorem remove_fst (p : Entity) (k : Kind) (i : String) :
    (p.remove k i).1 = p.resolvedChild? k i := by
  unfold remove
  cases p.resolvedChild? k i <;> rfl

theorem removeFirst_of_first {k : Kind} {i : String} {before after : List Entity} {c : Entity}
    (hbefore : ∀ d ∈ before, d.id ≠ i) (hk : c.kind = k) (hi : c.id = i) :
    removeFirst k i (before ++ c :: after) = before ++ after := by
  induction before with
  | nil =>
    show (if c.kind = k ∧ c.id = i then after else _) = after
    rw [if_pos ⟨hk, hi⟩]
  | cons d before ih =>
    obtain ⟨hd, hbefore⟩ := List.forall_mem_cons.mp hbefore
    rw [List.cons_append, List.cons_append, removeFirst, if_neg fun h => hd h.2, ih hbefore]

theorem filter_removeFirst_self (k : Kind) (i : String) (cs : List Entity) :
    (removeFirst k i cs).filter (fun c => decide (c.kind = k))
      = removeFirst k i (cs.filter fun c => decide (c.kind = k)) := by
  induction cs with
  | nil => rfl
  | cons c cs ih =>
    by_cases hk : c.kind = k
    · by_cases hi : c.id = i
      · simp [removeFirst, hk, hi]
      · simp [removeFirst, hk, hi, ih]
    · simp [removeFirst, hk, ih]

theorem filter_removeFirst_of_ne {k j : Kind} (h : j ≠ k) (i : String) (cs : List Entity) :
    (removeFirst k i cs).filter (fun c => decide (c.kind = j))
      = cs.filter fun c => decide (c.kind = j) := by
  induction cs with
  | nil => rfl
  | cons c cs ih =>
    unfold removeFirst
    split
    · rename_i hm
      have hc : ¬ c.kind = j := fun e => h (e.symm.trans hm.1)
      simp [hc]
    · rw [List.filter_cons, List.filter_cons, ih]

/-- The last entity is the first without one of its children of a kind, which had the
id. -/
structure Detached (p : Entity) (k : Kind) (i : String) (c p' : Entity) : Prop where
  id : c.id = i
  slot : ∃ before after, p.resolved k = before ++ c :: after ∧ p'.resolved k = before ++ after
  head : p'.head = p.head
  others : ∀ j, j ≠ k → p'.resolved j = p.resolved j

theorem Detached.mem {p c p' : Entity} {k : Kind} {i : String} (h : Detached p k i c p') :
    c ∈ p.resolved k := by
  obtain ⟨before, after, hp, -⟩ := h.slot
  rw [hp]
  exact List.mem_append_cons_self

/-- **What removing changes.** -/
theorem detached_remove {p c : Entity} {k : Kind} {i : String} (h : (p.remove k i).1 = some c) :
    Detached p k i c (p.remove k i).2 := by
  have hc : p.resolvedChild? k i = some c := (remove_fst p k i).symm.trans h
  have hremove : (p.remove k i).2 = mk p.head (removeFirst k i p.children) := by
    unfold remove
    rw [hc]
  obtain ⟨hd, before, after, hsplit, hbefore⟩ := List.find?_eq_some_iff_append.mp hc
  have hid : c.id = i := by simpa using hd
  have hmem : c ∈ p.resolved k := List.mem_of_find?_eq_some hc
  obtain ⟨hfetched, -, hkind⟩ := mem_resolved.mp hmem
  rw [hremove]
  refine ⟨hid, ⟨before, after, hsplit, ?_⟩, rfl, ?_⟩
  · rw [resolved_of_fetched (e := mk p.head _) hfetched, children_mk, filter_removeFirst_self,
      ← resolved_of_fetched hfetched, hsplit]
    apply removeFirst_of_first _ hkind hid
    intro x hx
    simpa using hbefore x hx
  · intro j hj
    exact resolved_congr rfl (filter_removeFirst_of_ne hj i p.children)

/-- **What was removed is a root again exactly when its parent had no path.**  It keeps
the path that it had, and so does everything below it. -/
theorem rootedAt_of_detached_iff {p c p' : Entity} {k : Kind} {i : String}
    (h : Detached p k i c p') (hid : c.id ≠ "") (hp : p.PathsHold) :
    c.RootedAt "" ↔ p.path = "" := by
  obtain ⟨hpath, hbelow⟩ := pathsHold_iff.mp hp k c h.mem
  rw [rootedAt_iff hid, hpath]
  constructor
  · rintro ⟨hroot, -⟩
    exact Head.below_inj_left hroot
  · intro hempty
    exact ⟨by rw [hempty], hbelow⟩

end ListingMetadata.Entity
