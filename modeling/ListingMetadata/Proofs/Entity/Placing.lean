/-
  ListingMetadata.Proofs.Entity.Placing
  ─────────────────────────────────────
  **PLACING MOVES A TREE AND CHANGES NOTHING ELSE IN IT.**

  A placed entity keeps its kind, id and progress; its children are placed
  below its new path.  What a tree was placed below before does not matter:

      (e.placed p s).placed (some q) t = e.placed (some q) t
-/
import ListingMetadata.Proofs.Entity.Resolved

namespace ListingMetadata

/-! ## §1. Paths -/

namespace Head

theorem below_of_ne {parent : String} (h : parent ≠ "") (id : String) :
    below parent id = parent ++ ":" ++ id := by
  unfold below
  rw [if_neg h]

@[simp] theorem below_empty (id : String) : below "" id = id := by
  unfold below
  rw [if_pos rfl]

theorem below_ne_empty (parent : String) {id : String} (h : id ≠ "") : below parent id ≠ "" := by
  by_cases hp : parent = ""
  · rw [hp, below_empty]
    exact h
  · rw [below_of_ne hp]
    intro he
    have hlen := congrArg String.length he
    simp only [String.length_append] at hlen
    have hone : (":" : String).length = 1 := rfl
    have hzero : ("" : String).length = 0 := rfl
    omega

/-- Two paths under which the same id gives the same path are the same. -/
theorem below_inj_left {p q id : String} (h : below p id = below q id) : p = q := by
  have hlen := congrArg String.length h
  have hone : (":" : String).length = 1 := rfl
  -- below a path that is not empty the text is longer than the id alone
  by_cases hp : p = "" <;> by_cases hq : q = ""
  · rw [hp, hq]
  · rw [hp, below_empty, below_of_ne hq] at hlen
    simp only [String.length_append] at hlen
    omega
  · rw [hq, below_empty, below_of_ne hp] at hlen
    simp only [String.length_append] at hlen
    omega
  · rw [below_of_ne hp, below_of_ne hq] at h
    exact (String.append_left_inj ":").mp ((String.append_left_inj id).mp h)

/-- Two ids that give the same path under one path are the same. -/
theorem below_inj_right {p i j : String} (h : below p i = below p j) : i = j := by
  by_cases hp : p = ""
  · rw [hp, below_empty, below_empty] at h
    exact h
  · rw [below_of_ne hp, below_of_ne hp] at h
    exact (String.append_right_inj (p ++ ":")).mp h

theorem path_placed_some (h : Head) (p : String) (s : Option Nat) :
    (h.placed (some p) s).path = below p h.id := rfl

theorem Slotted.placed {h : Head} (hs : h.Slotted) (p : Option String) (s : Option Nat) :
    (h.placed p s).Slotted := hs

end Head

namespace Entity

/-! ## §2. Induction over a tree -/

mutual

/-- What holds of an entity when it holds of its children holds of every
entity. -/
theorem induct {P : Entity → Prop} (step : ∀ h cs, (∀ c ∈ cs, P c) → P (mk h cs)) :
    ∀ e : Entity, P e
  | mk h cs => step h cs (inductAll step cs)

theorem inductAll {P : Entity → Prop} (step : ∀ h cs, (∀ c ∈ cs, P c) → P (mk h cs)) :
    ∀ cs : List Entity, ∀ c ∈ cs, P c
  | [], _, hc => by cases hc
  | d :: ds, c, hc => by
    rcases List.mem_cons.mp hc with h | h
    · rw [h]
      exact induct step d
    · exact inductAll step ds c h

end

/-! ## §3. What a placed tree shows -/

@[simp] theorem head_placed (e : Entity) (p : Option String) (s : Option Nat) :
    (e.placed p s).head = e.head.placed p s := by
  cases e
  rfl

theorem children_placed (e : Entity) (p : Option String) (s : Option Nat) :
    (e.placed p s).children = e.children.map (placed (some (e.head.placed p s).path) s) := by
  cases e with
  | mk h cs =>
    show placedAll (some (h.placed p s).path) s cs = _
    rw [placedAll_eq_map]
    rfl

@[simp] theorem kind_placed (e : Entity) (p : Option String) (s : Option Nat) :
    (e.placed p s).kind = e.kind := by
  unfold kind
  rw [head_placed]
  rfl

@[simp] theorem id_placed (e : Entity) (p : Option String) (s : Option Nat) :
    (e.placed p s).id = e.id := by
  unfold id
  rw [head_placed]
  rfl

theorem path_placed_some (e : Entity) (p : String) (s : Option Nat) :
    (e.placed (some p) s).path = Head.below p e.id := by
  unfold path
  rw [head_placed]
  rfl

theorem resolved_placed (e : Entity) (p : Option String) (s : Option Nat) (k : Kind) :
    (e.placed p s).resolved k
      = (e.resolved k).map (placed (some (e.placed p s).path) s) := by
  have hprogress : (e.placed p s).head.progress? k = e.head.progress? k := by
    rw [head_placed]
    rfl
  by_cases hf : e.head.progress? k = some .fetched
  · rw [resolved_of_fetched hf, resolved_of_fetched (hprogress.trans hf), children_placed,
      List.filter_map]
    have hpath : (e.placed p s).path = (e.head.placed p s).path := by
      unfold path
      rw [head_placed]
    rw [hpath]
    congr 1
    apply List.filter_congr
    intro c _
    rw [Function.comp_apply, kind_placed]
  · rw [resolved_of_not_fetched hf, resolved_of_not_fetched (hprogress ▸ hf)]
    rfl

/-- Only the last place counts. -/
theorem placed_placed (e : Entity) :
    ∀ (p : Option String) (s : Option Nat) (q : String) (t : Option Nat),
      (e.placed p s).placed (some q) t = e.placed (some q) t := by
  induction e using induct with
  | step h cs ih =>
    intro p s q t
    have hh : (h.placed p s).placed (some q) t = h.placed (some q) t := rfl
    show mk ((h.placed p s).placed (some q) t)
        (placedAll (some ((h.placed p s).placed (some q) t).path) t
          (placedAll (some (h.placed p s).path) s cs))
      = mk (h.placed (some q) t) (placedAll (some (h.placed (some q) t).path) t cs)
    rw [hh]
    congr 1
    rw [placedAll_eq_map, placedAll_eq_map, placedAll_eq_map, List.map_map]
    apply List.map_congr_left
    intro c hc
    exact ih c hc _ s _ t

end Entity

end ListingMetadata
