/-
  ListingMetadata.Proofs.Entity.Slots
  ───────────────────────────────────
  **THE SLOTS OF A TREE AND WHAT CHANGES THEM.**

  A slot belongs to an entity of the tree and a kind of children.  The entity
  is found by its way: the kinds and ids from the root down to it.  Siblings of
  a kind have different ids, so a way leads to one entity:

    • `slot?_withHead`, `slot?_placed` — changes of attributes and of the place
      leave every slot as it was,
    • `slot?_adopt`, `slot?_remove`    — a child that comes or goes touches the
      slots on its own way, and its coming fetches the slot of its kind,
    • `slot?_resolve`                  — asking for a kind touches one slot.
-/
import ListingMetadata.Proofs.Entity.WellFormed

namespace ListingMetadata.Entity

/-! ## §1. Ways and slots -/

/-- The kinds and ids from a root down to an entity below it. -/
abbrev Way := List (Kind × String)

/-- The resolved entity at the end of a way. -/
def at? : Entity → Way → Option Entity
  | e, [] => some e
  | e, (k, i) :: w => (e.resolvedChild? k i).bind fun c => c.at? w

/-- How far the children of a kind are resolved at the end of a way. -/
def slot? (e : Entity) (w : Way) (k : Kind) : Option Progress :=
  (e.at? w).bind fun x => x.head.progress? k

@[simp] theorem at?_cons (e : Entity) (j : Kind) (i : String) (w : Way) :
    e.at? ((j, i) :: w) = (e.resolvedChild? j i).bind fun c => c.at? w := rfl

@[simp] theorem slot?_nil (e : Entity) (k : Kind) : e.slot? [] k = e.head.progress? k := rfl

theorem slot?_cons (e : Entity) (j : Kind) (i : String) (w : Way) (k : Kind) :
    e.slot? ((j, i) :: w) k = (e.resolvedChild? j i).bind fun c => c.slot? w k := by
  unfold slot?
  rw [at?_cons, Option.bind_assoc]

/-- Below one child the slots are those of the child. -/
theorem slot?_cons_congr {e e' : Entity} {j : Kind} {i : String}
    (h : e'.resolvedChild? j i = e.resolvedChild? j i) (w : Way) (k : Kind) :
    e'.slot? ((j, i) :: w) k = e.slot? ((j, i) :: w) k := by
  rw [slot?_cons, slot?_cons, h]

theorem resolvedChild?_congr {e e' : Entity} {j : Kind} (h : e'.resolved j = e.resolved j)
    (i : String) : e'.resolvedChild? j i = e.resolvedChild? j i := by
  unfold resolvedChild?
  rw [h]

/-- A way goes on only below a fetched slot. -/
theorem progress?_of_slot?_cons {e : Entity} {j k : Kind} {i : String} {w : Way} {p : Progress}
    (h : e.slot? ((j, i) :: w) k = some p) : e.head.progress? j = some .fetched := by
  rw [slot?_cons] at h
  obtain ⟨c, hc, -⟩ := Option.bind_eq_some_iff.mp h
  exact (mem_resolved.mp (List.mem_of_find?_eq_some hc)).1

/-! ## §2. Children by kind and id -/

/-- What tells a child from all other children of an entity. -/
def key (c : Entity) : Kind × String :=
  (c.kind, c.id)

theorem key_eq_iff {c : Entity} {k : Kind} {i : String} :
    c.key = (k, i) ↔ c.kind = k ∧ c.id = i := by
  unfold key
  rw [Prod.mk.injEq]

theorem key_eq_of_core {c c' : Entity} (h : c.head.core = c'.head.core) : c.key = c'.key := by
  have hk : c.kind = c'.kind := Head.kind_eq_of_core h
  have hi : c.id = c'.id := Head.id_eq_of_core h
  unfold key
  rw [hk, hi]

/-- The first child with a kind and id, where the kind is fetched. -/
theorem resolvedChild?_eq (e : Entity) (k : Kind) (i : String) :
    e.resolvedChild? k i
      = if e.head.progress? k = some .fetched then e.children.find? fun c => decide (c.key = (k, i))
        else none := by
  unfold resolvedChild?
  split
  · rename_i hf
    rw [resolved_of_fetched hf, List.find?_filter]
    congr 1
    funext c
    simp only [decide_eq_true_eq, key_eq_iff]
  · rename_i hf
    rw [resolved_of_not_fetched hf]
    rfl

/-- Siblings with distinct ids in each kind have distinct keys. -/
theorem nodup_keys_of_kinds {cs : List Entity}
    (h : ∀ k, ((cs.filter fun c => decide (c.kind = k)).map id).Nodup) : (cs.map key).Nodup := by
  induction cs with
  | nil => exact List.nodup_nil
  | cons c cs ih =>
    have hrest : ∀ k, ((cs.filter fun c => decide (c.kind = k)).map id).Nodup := by
      intro k
      exact (h k).sublist (((List.sublist_cons_self c cs).filter _).map id)
    rw [List.map_cons, List.nodup_cons]
    refine ⟨?_, ih hrest⟩
    intro hmem
    obtain ⟨d, hd, hdc⟩ := List.mem_map.mp hmem
    obtain ⟨hk, hi⟩ := key_eq_iff.mp hdc
    have hself := h c.kind
    rw [List.filter_cons_of_pos (by simp), List.map_cons, List.nodup_cons] at hself
    exact hself.1 (List.mem_map.mpr ⟨d, List.mem_filter.mpr ⟨hd, by simpa using hk⟩, hi⟩)

/-- In a well-formed entity no two children have the same kind and id. -/
theorem WellFormedHere.nodup_keys {e : Entity} (h : e.WellFormedHere) :
    (e.children.map key).Nodup := by
  apply nodup_keys_of_kinds
  intro k
  by_cases hf : e.head.progress? k = some .fetched
  · rw [← resolved_of_fetched hf]
    exact h.distinct k
  · -- a kind that is not fetched has no children
    have hnone : (e.children.filter fun c => decide (c.kind = k)) = [] := by
      rw [List.filter_eq_nil_iff]
      intro c hc
      simpa using h.kind_ne_of_not_fetched hf hc
    rw [hnone]
    exact List.nodup_nil

theorem find?_replaceOrAppend_of_ne {child : Entity} {j : Kind} {i : String}
    (h : child.key ≠ (j, i)) (cs : List Entity) :
    (replaceOrAppend child cs).find? (fun c => decide (c.key = (j, i)))
      = cs.find? fun c => decide (c.key = (j, i)) := by
  induction cs with
  | nil => simp [replaceOrAppend, h]
  | cons c cs ih =>
    unfold replaceOrAppend
    split
    · rename_i hm
      -- the namesake has the key of the child, which is another one
      have hc : c.key ≠ (j, i) := by
        intro hc
        exact h (key_eq_iff.mpr ⟨hm.1.symm.trans (key_eq_iff.mp hc).1,
          hm.2.symm.trans (key_eq_iff.mp hc).2⟩)
      rw [List.find?_cons_of_neg (by simpa using h), List.find?_cons_of_neg (by simpa using hc)]
    · rw [List.find?_cons, List.find?_cons, ih]

theorem find?_replaceOrAppend_self (child : Entity) (cs : List Entity) :
    (replaceOrAppend child cs).find? (fun c => decide (c.key = child.key)) = some child := by
  induction cs with
  | nil => simp [replaceOrAppend]
  | cons c cs ih =>
    unfold replaceOrAppend
    split
    · rw [List.find?_cons_of_pos (by simp)]
    · rename_i hm
      have hc : c.key ≠ child.key := fun hc => hm (key_eq_iff.mp hc)
      rw [List.find?_cons_of_neg (by simpa using hc), ih]

theorem find?_removeFirst_of_ne {k j : Kind} {i' i : String} (h : (k, i') ≠ (j, i))
    (cs : List Entity) :
    (removeFirst k i' cs).find? (fun c => decide (c.key = (j, i)))
      = cs.find? fun c => decide (c.key = (j, i)) := by
  induction cs with
  | nil => rfl
  | cons c cs ih =>
    unfold removeFirst
    split
    · rename_i hm
      have hc : c.key ≠ (j, i) := by
        intro hc
        exact h ((key_eq_iff.mpr hm).symm.trans hc)
      rw [List.find?_cons_of_neg (by simpa using hc)]
    · rw [List.find?_cons, List.find?_cons, ih]

/-! ## §3. Operations that leave the children alone -/

/-- **A change of attributes changes no slot.** -/
theorem slot?_withHead {e : Entity} {h : Head} (hf : h.frame = e.head.frame) (w : Way) (k : Kind) :
    (e.withHead h).slot? w k = e.slot? w k := by
  cases w with
  | nil => exact Head.progress?_eq_of_frame hf k
  | cons s w => exact slot?_cons_congr (resolvedChild?_congr (resolved_withHead hf s.1) s.2) w k

theorem resolvedChild?_placed (e : Entity) (p : Option String) (s : Option Nat) (k : Kind)
    (i : String) :
    (e.placed p s).resolvedChild? k i
      = (e.resolvedChild? k i).map (placed (some (e.placed p s).path) s) := by
  unfold resolvedChild?
  rw [resolved_placed, List.find?_map]
  congr 2
  funext c
  rw [Function.comp_apply, id_placed]

/-- **A place of its own changes no slot of a tree.** -/
theorem slot?_placed (w : Way) (k : Kind) :
    ∀ (e : Entity) (p : Option String) (s : Option Nat), (e.placed p s).slot? w k = e.slot? w k := by
  induction w with
  | nil =>
    intro e p s
    rw [slot?_nil, head_placed]
    rfl
  | cons t w ih =>
    intro e p s
    rw [slot?_cons, slot?_cons, resolvedChild?_placed]
    cases e.resolvedChild? t.1 t.2 with
    | none => rfl
    | some c => exact ih c _ s

/-! ## §4. Children that come and go -/

theorem resolvedChild?_readied (e : Entity) (k j : Kind) (i : String) :
    (e.readied k).resolvedChild? j i = e.resolvedChild? j i :=
  resolvedChild?_congr (resolved_readied e k j) i

theorem resolvedChild?_adopt_of_ne {e child : Entity} {j : Kind} {i : String}
    (h : child.key ≠ (j, i)) : (e.adopt child).resolvedChild? j i = e.resolvedChild? j i := by
  have hkey : (child.placed (some e.path) e.head.source).key ≠ (j, i) := by
    unfold key
    rw [kind_placed, id_placed]
    exact h
  rw [← resolvedChild?_readied e child.kind, resolvedChild?_eq, resolvedChild?_eq]
  show (if (e.readied child.kind).head.progress? j = some .fetched then
    (replaceOrAppend (child.placed (some e.path) e.head.source)
      (e.readied child.kind).children).find? _ else none) = _
  rw [find?_replaceOrAppend_of_ne hkey]

/-- The child that was added is found under its kind and id, in its new place. -/
theorem resolvedChild?_adopt_self {e child : Entity} (h : e.head.progress? child.kind ≠ none) :
    (e.adopt child).resolvedChild? child.kind child.id
      = some (child.placed (some e.path) e.head.source) := by
  have hkey : (child.placed (some e.path) e.head.source).key = (child.kind, child.id) := by
    unfold key
    rw [kind_placed, id_placed]
  rw [resolvedChild?_eq, if_pos (progress?_adopt_self h)]
  show (replaceOrAppend (child.placed (some e.path) e.head.source) _).find? _ = _
  rw [← hkey]
  exact find?_replaceOrAppend_self _ _

/-- **A child that is added keeps its slots.** -/
theorem slot?_adopt_key {e child : Entity} (h : e.head.progress? child.kind ≠ none) (w : Way)
    (k : Kind) : (e.adopt child).slot? (child.key :: w) k = child.slot? w k := by
  show (e.adopt child).slot? ((child.kind, child.id) :: w) k = _
  rw [slot?_cons, resolvedChild?_adopt_self h, Option.bind_some, slot?_placed]

/-- **A child that is added fetches the slot of its kind; the slots that are not
on its own way stay.** -/
theorem slot?_adopt {e child : Entity} (hslot : e.head.progress? child.kind ≠ none) {w : Way}
    (hw : w.head? ≠ some child.key) (k : Kind) :
    (e.adopt child).slot? w k = if w = [] ∧ k = child.kind then some .fetched else e.slot? w k := by
  cases w with
  | nil =>
    by_cases hk : k = child.kind
    · rw [if_pos ⟨rfl, hk⟩, hk]
      exact progress?_adopt_self hslot
    · rw [if_neg fun hc => hk hc.2]
      exact progress?_adopt_of_ne e child hk
  | cons s w =>
    have hs : child.key ≠ (s.1, s.2) := fun hc => hw (by rw [hc]; rfl)
    rw [if_neg fun hc => List.cons_ne_nil _ _ hc.1]
    exact slot?_cons_congr (resolvedChild?_adopt_of_ne hs) w k

/-- **A child that is removed takes the slots on its way with it; the others
stay.** -/
theorem slot?_remove (e : Entity) {j : Kind} {i : String} {w : Way} (hw : w.head? ≠ some (j, i))
    (k : Kind) : (e.remove j i).2.slot? w k = e.slot? w k := by
  cases w with
  | nil =>
    rw [slot?_nil, slot?_nil, head_remove]
  | cons s w =>
    have hs : (j, i) ≠ (s.1, s.2) := fun hc => hw (by rw [hc]; rfl)
    apply slot?_cons_congr
    rw [resolvedChild?_eq, resolvedChild?_eq, head_remove]
    unfold remove
    cases e.resolvedChild? j i with
    | none => rfl
    | some c =>
      show (if e.head.progress? s.1 = some .fetched then
        (removeFirst j i e.children).find? _ else none) = _
      rw [find?_removeFirst_of_ne hs]

/-! ## §5. Asking for a kind -/

theorem progress?_foldl_offered_of_fetched {e : Entity} {k : Kind}
    (h : e.head.progress? k = some .fetched) (cs : List Entity) :
    (cs.foldl offered e).head.progress? k = some .fetched := by
  induction cs generalizing e with
  | nil => exact h
  | cons c cs ih =>
    apply ih
    cases ha : e.accepts c with
    | false =>
      rw [offered_of_not_accepts ha]
      exact h
    | true =>
      rw [offered_of_accepts ha]
      by_cases hk : k = c.kind
      · rw [hk] at h ⊢
        exact progress?_adopt_self (by rw [h]; simp)
      · rw [progress?_adopt_of_ne e c hk]
        exact h

/-- A kind that was never asked for is fetched or failed after it is. -/
theorem progress?_fetch_self (sources : Sources) {e : Entity} {k : Kind}
    (hk : e.head.progress? k ≠ none) :
    (e.fetch sources k).value.head.progress? k
      = if (e.brought? sources k).isSome then some .fetched else some .failed := by
  rw [value_fetch]
  cases e.brought? sources k with
  | none => exact Head.progress?_setProgress_self _ hk
  | some found =>
    have hopened : (e.opened k).head.progress? k = some .fetched :=
      Head.progress?_setProgress_self _ hk
    exact progress?_foldl_offered_of_fetched hopened found

/-- **Asking for a kind touches no slot but the one asked for.** -/
theorem slot?_resolve {sources : Sources} {e : Entity} (hs : e.head.Slotted)
    (hb : e.BringsInKind sources) {j k : Kind} {w : Way} {p : Progress}
    (hu : e.head.progress? j = some .unfetched) (hp : e.slot? w k = some p)
    (hne : ¬(w = [] ∧ k = j)) : (e.resolve sources j).value.slot? w k = some p := by
  rw [← hp]
  cases w with
  | nil => exact progress?_resolve_of_ne hb fun hk => hne ⟨rfl, hk⟩
  | cons s w =>
    -- below the slot asked for there was nothing yet
    have hs1 : s.1 ≠ j := by
      intro hsj
      have hfetched := progress?_of_slot?_cons hp
      rw [hsj, hu] at hfetched
      cases hfetched
    exact slot?_cons_congr (resolvedChild?_congr (resolved_resolve_of_ne hs hb hs1) s.2) w k

end ListingMetadata.Entity
