/-
  ListingMetadata.Proofs.Source.Gathering
  ───────────────────────────────────────
  **WHAT A SOURCE BRINGS, AND WHAT IS KEPT OF IT.**

  A source may bring several entities of one id, and entities without an id.  They
  are put below the entity one by one, so the last of each id is kept, at the place
  where the id first came:

      brought:   A₁  B₁  ∅  A₂  C₁  A₃
      kept:      A₃  B₁  C₁

    • `LatestOf.put`          — one more entity is brought,
    • `latestOf_replaceAll`   — all of them,
    • `gathered_resolve`      — the children that a fetch leaves,
    • `failedOnly_resolve`    — a fetch that fails.
-/
import ListingMetadata.Proofs.Entity.Moving
import ListingMetadata.Proofs.Source.Departures

namespace ListingMetadata.Entity

/-! ## §1. One after the other -/

/-- Of entities that came one after the other the last of each id, in the order in
which the ids first came. -/
structure LatestOf (cs rs : List Entity) : Prop where
  ids : rs.map id = (cs.map id).eraseDups
  nodup : (rs.map id).Nodup
  last : ∀ r ∈ rs, ∃ before after, cs = before ++ r :: after ∧ ∀ x ∈ after, x.id ≠ r.id

theorem PutAmong.map_id {c : Entity} {cs cs' : List Entity} (h : PutAmong c cs cs') :
    cs'.map id = if c.id ∈ cs.map id then cs.map id else cs.map id ++ [c.id] := by
  cases h with
  | @replaced before after d hbefore hd =>
    have hin : c.id ∈ (before ++ d :: after).map id :=
      List.mem_map.mpr ⟨d, List.mem_append_cons_self, hd⟩
    rw [if_pos hin, List.map_append, List.map_append, List.map_cons, List.map_cons, hd]
  | appended hcs =>
    have hnot : c.id ∉ cs.map id := by
      intro hin
      obtain ⟨x, hx, hid⟩ := List.mem_map.mp hin
      exact hcs x hx hid
    rw [if_neg hnot, List.map_append]
    rfl

theorem PutAmong.mem {c x : Entity} {cs cs' : List Entity} (h : PutAmong c cs cs')
    (hn : (cs.map id).Nodup) (hx : x ∈ cs') : x = c ∨ (x ∈ cs ∧ x.id ≠ c.id) := by
  cases h with
  | @replaced before after d hbefore hd =>
    rw [List.map_append, List.map_cons, List.nodup_append, List.nodup_cons] at hn
    rcases List.mem_append.mp hx with hin | hin
    · exact Or.inr ⟨List.mem_append_left _ hin, hbefore x hin⟩
    · rcases List.mem_cons.mp hin with hc | hin
      · exact Or.inl hc
      · -- the one that was replaced had the id, so none after it has
        have hne : x.id ≠ c.id := by
          intro hid
          exact hn.2.1.1 (List.mem_map.mpr ⟨x, hin, hid.trans hd.symm⟩)
        exact Or.inr ⟨List.mem_append_right _ (List.mem_cons_of_mem d hin), hne⟩
  | appended hcs =>
    rcases List.mem_append.mp hx with hin | hin
    · exact Or.inr ⟨hin, hcs x hin⟩
    · exact Or.inl (List.mem_singleton.mp hin)

/-- **One more entity**: it is the last of its id, and those of other ids are as
they were. -/
theorem LatestOf.put {c : Entity} {cs rs rs' : List Entity} (h : LatestOf cs rs)
    (hput : PutAmong c rs rs') : LatestOf (cs ++ [c]) rs' := by
  have hids := hput.map_id
  refine ⟨?_, ?_, ?_⟩
  · rw [hids, List.map_append, List.map_singleton, Text.eraseDups_concat, h.ids]
    simp only [List.mem_eraseDups]
  · rw [hids]
    split
    · exact h.nodup
    · rename_i hnot
      rw [List.nodup_append]
      refine ⟨h.nodup, List.nodup_singleton _, ?_⟩
      intro i hi j hj hij
      rw [hij, List.mem_singleton.mp hj] at hi
      exact hnot hi
  · intro r hr
    rcases hput.mem h.nodup hr with rfl | ⟨hin, hne⟩
    · exact ⟨cs, [], rfl, List.forall_mem_nil _⟩
    · obtain ⟨before, after, rfl, hafter⟩ := h.last r hin
      refine ⟨before, after ++ [c], by simp, ?_⟩
      intro x hx
      rcases List.mem_append.mp hx with hx | hx
      · exact hafter x hx
      · rw [List.mem_singleton.mp hx]
        exact Ne.symm hne

/-- **Entities of one kind put in turn leave the last of each id.** -/
theorem latestOf_replaceAll {cs : List Entity} {k : Kind} (hk : ∀ c ∈ cs, c.kind = k) :
    LatestOf cs (replaceAll [] cs) := by
  -- one more at the end is put among those that are there by then
  induction cs using List.reverseRecOn with
  | nil => exact ⟨rfl, List.nodup_nil, List.forall_mem_nil _⟩
  | append_singleton cs c ih =>
    have hold : ∀ d ∈ cs, d.kind = k := fun d hd => hk d (List.mem_append_left _ hd)
    have hkinds : ∀ d ∈ replaceAll [] cs, d.kind = c.kind := by
      intro d hd
      rcases mem_replaceAll hd with hd | hd
      · cases hd
      · rw [hold d hd, hk c (List.mem_append_right _ (List.mem_singleton_self c))]
    have hstep : replaceAll [] (cs ++ [c]) = replaceOrAppend c (replaceAll [] cs) := by
      unfold replaceAll
      rw [List.foldl_append]
      rfl
    rw [hstep]
    exact (ih hold).put (putAmong_replaceOrAppend hkinds)

/-! ## §2. What is brought -/

/-- Two entities differ in their children of one kind at most. -/
structure AlikeBut (k : Kind) (e e' : Entity) : Prop where
  core : e'.head.core = e.head.core
  progress : ∀ j, j ≠ k → e'.head.progress? j = e.head.progress? j
  others : ∀ j, j ≠ k → e'.resolved j = e.resolved j

theorem alikeBut_resolve {sources : Sources} {e : Entity} (hs : e.head.Slotted)
    (hb : e.BringsInKind sources) (k : Kind) : AlikeBut k e (e.resolve sources k).value where
  core := core_resolve sources e k
  progress _ hj := progress?_resolve_of_ne hb hj
  others _ hj := resolved_resolve_of_ne hs hb hj

/-- The second entity is the first with what was brought for a kind below it. -/
structure Gathered (k : Kind) (found : List Entity) (e e' : Entity) : Prop where
  fetched : e'.head.progress? k = some .fetched
  /-- Each id stands once, at the place where it first came; an empty one is none. -/
  ids : (e'.resolved k).map Entity.id
    = ((found.map Entity.id).filter fun i => decide (i ≠ "")).eraseDups
  nodup : ((e'.resolved k).map Entity.id).Nodup
  /-- Each child is the last that was brought with its id, as a whole. -/
  last : ∀ c ∈ e'.resolved k, ∃ before d after, found = before ++ d :: after ∧ d.id = c.id ∧
    (∀ x ∈ after, x.id ≠ c.id) ∧ c.unplaced = d.unplaced
  rooted : ∀ c ∈ e'.resolved k, c.RootedAt e.path
  bound : ∀ c ∈ e'.resolved k, ∀ x, Within x c → x.head.source = e.head.source
  rest : AlikeBut k e e'

/-- What is kept of entities of a kind that may stand there: those that have an id. -/
theorem filter_accepts {e : Entity} {k : Kind} {found : List Entity}
    (hpermits : e.kind.permits k = true) (hk : ∀ c ∈ found, c.kind = k) :
    (found.filter fun c => decide (c.kind = k) && e.accepts c)
      = found.filter fun c => decide (c.id ≠ "") := by
  apply List.filter_congr
  intro c hc
  unfold accepts
  rw [hk c hc, hpermits]
  simp

/-- **What a fetch leaves of what it brought.** -/
theorem gathered_resolve {sources : Sources} {e : Entity} {k : Kind} {found : List Entity}
    (hs : e.head.Slotted) (hb : e.BringsInKind sources)
    (hu : e.head.progress? k = some .unfetched) (hf : e.brought? sources k = some found) :
    Gathered k found e (e.resolve sources k).value := by
  have hslot : e.head.progress? k ≠ none := by simp [hu]
  have hself := resolved_resolve_self hs hu hf
  rw [filter_accepts (hs.permits hslot) (hb k found hf)] at hself
  have hkinds : ∀ c ∈ (found.filter fun c => decide (c.id ≠ "")).map
      (placed (some e.path) e.head.source), c.kind = k := by
    intro c hc
    obtain ⟨d, hd, rfl⟩ := List.mem_map.mp hc
    rw [kind_placed]
    exact hb k found hf d (List.mem_filter.mp hd).1
  have hlatest := latestOf_replaceAll hkinds
  rw [← hself] at hlatest
  -- a child that is kept was placed, and had an id before
  have hkept : ∀ c ∈ (e.resolve sources k).value.resolved k, ∃ before d after,
      found = before ++ d :: after ∧ d.id ≠ "" ∧ (∀ x ∈ after, x.id ≠ d.id) ∧
        c = d.placed (some e.path) e.head.source := by
    intro c hc
    obtain ⟨before, after, hsplit, hafter⟩ := hlatest.last c hc
    obtain ⟨before', rest, hfilter, -, hrest⟩ := List.map_eq_append_iff.mp hsplit
    obtain ⟨d, after', rfl, rfl, rfl⟩ := List.map_eq_cons_iff.mp hrest
    obtain ⟨before'', rest', rfl, -, hrest'⟩ := List.filter_eq_append_iff.mp hfilter
    obtain ⟨nameless, after'', rfl, -, hid, rfl⟩ := List.filter_eq_cons_iff.mp hrest'
    have hne : d.id ≠ "" := by simpa using hid
    refine ⟨before'' ++ nameless, d, after'', by simp, hne, ?_, rfl⟩
    intro x hx hxd
    have hin : x ∈ after''.filter fun c => decide (c.id ≠ "") :=
      List.mem_filter.mpr ⟨hx, by simpa [hxd] using hne⟩
    have hapart := hafter _ (List.mem_map_of_mem hin)
    rw [id_placed, id_placed] at hapart
    exact hapart hxd
  refine ⟨?_, ?_, hlatest.nodup, ?_, ?_, ?_, alikeBut_resolve hs hb k⟩
  · rw [value_resolve_of_unfetched hu, progress?_fetch_self sources hslot, hf]
    rfl
  · rw [hlatest.ids, List.map_map, List.filter_map]
    congr 1
    apply List.map_congr_left
    intro d _
    exact id_placed d _ _
  · intro c hc
    obtain ⟨before, d, after, hsplit, -, hafter, rfl⟩ := hkept c hc
    rw [id_placed]
    exact ⟨before, d, after, hsplit, rfl, hafter, unplaced_placed d _ _⟩
  · intro c hc
    obtain ⟨-, d, -, -, hid, -, rfl⟩ := hkept c hc
    exact rootedAt_placed hid e.path e.head.source
  · intro c hc x hx
    obtain ⟨-, d, -, -, -, -, rfl⟩ := hkept c hc
    exact source_of_within_placed hx

/-! ## §3. A source that fails -/

/-- The second entity is the first, but that the children of a kind have failed. -/
structure FailedOnly (k : Kind) (e e' : Entity) : Prop where
  failed : e'.head.progress? k = some .failed
  none : e'.resolved k = []
  children : e'.children = e.children
  rest : AlikeBut k e e'

/-- **A fetch that fails leaves the failure alone.** -/
theorem failedOnly_resolve {sources : Sources} {e : Entity} {k : Kind} (hs : e.head.Slotted)
    (hb : e.BringsInKind sources) (hu : e.head.progress? k = some .unfetched)
    (hf : e.brought? sources k = none) : FailedOnly k e (e.resolve sources k).value := by
  have hslot : e.head.progress? k ≠ none := by simp [hu]
  refine ⟨?_, resolved_resolve_self_of_failed hu hf, ?_, alikeBut_resolve hs hb k⟩
  · rw [value_resolve_of_unfetched hu, progress?_fetch_self sources hslot, hf]
    rfl
  · rw [value_resolve_of_unfetched hu, value_fetch, hf]
    rfl

end ListingMetadata.Entity
