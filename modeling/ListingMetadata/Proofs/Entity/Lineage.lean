/-
  ListingMetadata.Proofs.Entity.Lineage
  ─────────────────────────────────────
  **THE PATHS OF A WHOLE TREE, SPELLED BY ITS IDS.**

  From an entity down to one below it leads a row of ids.  A tree is rooted at a
  path when each entity in it has as its path that path, unless it is empty, and
  the ids that lead down to it, joined by colons:

    • `rootedAt_iff`            — the path of the root, and paths that hold below it,
    • `rootedAt_placed`         — a tree that is placed below a path,
    • `source_of_within_placed` — the source that all of it has,
    • `unplaced_placed`         — what else placing changes: nothing.
-/
import ListingMetadata.Proofs.Entity.Census
import ListingMetadata.Proofs.Entity.WellFormed

namespace ListingMetadata

open Text

/-! ## §1. Words joined by a separator -/

namespace Text

theorem joined_ne_empty (separator : String) {w : String} (h : w ≠ "") (ws : List String) :
    joined separator (w :: ws) ≠ "" := by
  cases ws with
  | nil => exact h
  | cons v ws =>
    intro he
    have hw : w ++ separator ++ joined separator (v :: ws) = "" := he
    rw [String.append_eq_empty_iff, String.append_eq_empty_iff] at hw
    exact h hw.1.1

theorem joined_cons (separator w : String) {ws : List String} (h : ws ≠ []) :
    joined separator (w :: ws) = w ++ separator ++ joined separator ws := by
  cases ws with
  | nil => exact absurd rfl h
  | cons v ws => rfl

theorem joined_concat (separator : String) {ws : List String} (h : ws ≠ []) (w : String) :
    joined separator (ws ++ [w]) = joined separator ws ++ separator ++ w := by
  induction ws with
  | nil => exact absurd rfl h
  | cons v ws ih =>
    cases ws with
    | nil => rfl
    | cons u us =>
      have hne : u :: us ≠ [] := List.cons_ne_nil u us
      rw [List.cons_append, joined_cons separator v (by simp), ih hne, joined_cons separator v hne]
      simp only [String.append_assoc]

end Text

namespace Entity

/-! ## §2. Rows of ids -/

/-- The ids lead from the first entity down to the last, both of them named. -/
inductive Lineage : Entity → List String → Entity → Prop where
  | here (e : Entity) : Lineage e [e.id] e
  | down {e c x : Entity} {k : Kind} {ids : List String} :
      c ∈ e.resolved k → Lineage c ids x → Lineage e (e.id :: ids) x

theorem Lineage.exists_cons {e x : Entity} {ids : List String} (h : Lineage e ids x) :
    ∃ rest, ids = e.id :: rest := by
  cases h with
  | here => exact ⟨[], rfl⟩
  | down hc h => exact ⟨_, rfl⟩

theorem Lineage.ne_nil {e x : Entity} {ids : List String} (h : Lineage e ids x) : ids ≠ [] := by
  obtain ⟨rest, rfl⟩ := h.exists_cons
  exact List.cons_ne_nil _ _

/-- One step further down. -/
theorem Lineage.child {e x c : Entity} {ids : List String} {k : Kind} (h : Lineage e ids x)
    (hc : c ∈ x.resolved k) : Lineage e (ids ++ [c.id]) c := by
  induction h with
  | here e => exact .down hc (.here c)
  | down hd _ ih => exact .down hd (ih hc)

/-- Ids lead to each entity of a tree. -/
theorem Within.lineage {x e : Entity} (h : Within x e) : ∃ ids, Lineage e ids x := by
  induction h with
  | here => exact ⟨_, .here _⟩
  | down hc _ ih =>
    obtain ⟨ids, h⟩ := ih
    exact ⟨_, .down hc h⟩

/-! ## §3. Rooted trees -/

/-- The row of ids below a path; below the empty path it stands alone. -/
def rowBelow (p : String) (ids : List String) : List String :=
  if p = "" then ids else p :: ids

/-- Each entity of the tree has the path that a path and the ids down to it make. -/
def RootedAt (p : String) (e : Entity) : Prop :=
  ∀ ids x, Lineage e ids x → x.path = joined ":" (rowBelow p ids)

theorem joined_rowBelow_singleton (p i : String) :
    joined ":" (rowBelow p [i]) = Head.below p i := by
  unfold rowBelow Head.below
  split <;> rfl

theorem joined_rowBelow_ne_empty (p : String) {i : String} (h : i ≠ "") (ids : List String) :
    joined ":" (rowBelow p (i :: ids)) ≠ "" := by
  unfold rowBelow
  split
  · exact joined_ne_empty ":" h ids
  · rename_i hp
    exact joined_ne_empty ":" hp (i :: ids)

/-- A row of ids below a path, with the first of them made a part of the path. -/
theorem joined_rowBelow_cons {p i : String} (h : Head.below p i ≠ "") {ids : List String}
    (hids : ids ≠ []) :
    joined ":" (rowBelow (Head.below p i) ids) = joined ":" (rowBelow p (i :: ids)) := by
  rw [rowBelow, if_neg h, joined_cons ":" _ hids]
  unfold rowBelow Head.below
  split
  · rw [joined_cons ":" i hids]
  · rw [joined_cons ":" p (List.cons_ne_nil i ids), joined_cons ":" i hids]
    simp only [String.append_assoc]

theorem joined_rowBelow_concat {p : String} {ids : List String} (hids : ids ≠ []) (i : String) :
    joined ":" (rowBelow p (ids ++ [i])) = joined ":" (rowBelow p ids) ++ ":" ++ i := by
  unfold rowBelow
  split
  · exact joined_concat ":" hids i
  · exact joined_concat ":" (List.cons_ne_nil p ids) i

theorem RootedAt.path {p : String} {e : Entity} (h : e.RootedAt p) : e.path = Head.below p e.id := by
  rw [h _ _ (.here e), joined_rowBelow_singleton]

/-- Where the paths of a tree hold, the path of its root roots it. -/
theorem PathsHold.rootedAt {e : Entity} (h : e.PathsHold) {p : String}
    (hp : e.path = Head.below p e.id) (hne : e.path ≠ "") : e.RootedAt p := by
  intro ids x hx
  induction hx generalizing p with
  | here e => rw [hp, joined_rowBelow_singleton]
  | @down e c x k ids hc hx ih =>
    obtain ⟨hpath, hbelow⟩ := pathsHold_iff.mp h k c hc
    -- below a path that is not empty no path is
    have hcne : c.path ≠ "" := by
      intro hempty
      have hlen := congrArg String.length (hpath.symm.trans hempty)
      rw [Head.below_of_ne hne] at hlen
      simp at hlen
    rw [ih hbelow hpath hcne, hp]
    exact joined_rowBelow_cons (hp ▸ hne) hx.ne_nil

/-- **A tree is rooted at a path exactly when its root is there and its paths hold.** -/
theorem rootedAt_iff {p : String} {e : Entity} (hid : e.id ≠ "") :
    e.RootedAt p ↔ e.path = Head.below p e.id ∧ e.PathsHold := by
  constructor
  · intro h
    refine ⟨h.path, ?_⟩
    intro x hx k c hc
    obtain ⟨ids, hids⟩ := hx.lineage
    obtain ⟨rest, rfl⟩ := hids.exists_cons
    -- the path of the parent is a row that begins with an id, so it is not empty
    have hne : x.path ≠ "" := by
      rw [h _ _ hids]
      exact joined_rowBelow_ne_empty p hid rest
    rw [h _ _ (hids.child hc), joined_rowBelow_concat hids.ne_nil, ← h _ _ hids,
      Head.below_of_ne hne]
  · rintro ⟨hp, h⟩
    exact h.rootedAt hp (hp ▸ Head.below_ne_empty p hid)

/-! ## §4. Placed trees -/

/-- **A tree that is placed below a path is rooted there**, wherever it was before. -/
theorem rootedAt_placed {e : Entity} (hid : e.id ≠ "") (p : String) (s : Option Nat) :
    (e.placed (some p) s).RootedAt p := by
  rw [rootedAt_iff (by rw [id_placed]; exact hid), id_placed]
  exact ⟨path_placed_some e p s, pathsHold_placed e (some p) s⟩

/-- All of a placed tree has the source that it is bound to. -/
theorem source_of_within_placed {e x : Entity} {p : Option String} {s : Option Nat}
    (h : Within x (e.placed p s)) : x.head.source = s := by
  -- on the tree that is placed; below its root the path is another one
  induction e using induct generalizing p with
  | step h' cs ih =>
    cases h with
    | here => exact source_placed _ p s
    | down hc hx =>
      rw [resolved_placed] at hc
      obtain ⟨b, hb, rfl⟩ := List.mem_map.mp hc
      exact ih b (mem_resolved.mp hb).2.1 hx

/-- A tree without the places and sources of its entities. -/
def unplaced : Entity → Entity :=
  fold fun h results => mk { h with parentPath := none, source := none } (results.map Prod.snd)

theorem unplaced_mk (h : Head) (cs : List Entity) :
    (mk h cs).unplaced = mk { h with parentPath := none, source := none } (cs.map unplaced) := by
  unfold unplaced
  rw [fold_eq, foldAll_eq_map, List.map_map]
  rfl

@[simp] theorem id_unplaced (e : Entity) : e.unplaced.id = e.id := by
  obtain ⟨h, cs⟩ := e
  rw [unplaced_mk]
  rfl

/-- **Placing changes places and sources alone.** -/
theorem unplaced_placed (e : Entity) :
    ∀ (p : Option String) (s : Option Nat), (e.placed p s).unplaced = e.unplaced := by
  induction e using induct with
  | step h cs ih =>
    intro p s
    show (mk (h.placed p s) (placedAll (some (h.placed p s).path) s cs)).unplaced = _
    rw [placedAll_eq_map, unplaced_mk, unplaced_mk, List.map_map]
    congr 1
    apply List.map_congr_left
    intro c hc
    exact ih c hc _ s

end Entity

end ListingMetadata
