/-
  ListingMetadata.Proofs.Entity.WellFormed
  ────────────────────────────────────────
  **WELL-FORMED TREES.**

  A tree is well-formed when each entity of it has a slot for exactly the kinds
  of children that may stand below, when its children sit in the slots of their
  kinds under ids of their own, and when all of them ask the source that their
  parent asks.  Every step by which trees are made keeps this:

    • `wellFormed_placed`     — a tree moved below a path and bound to a source,
    • `wellFormed_adopt`      — a child in the place of its namesake,
    • `lasting_wellFormed`    — all steps but changes of attributes,
    • `wellFormed_withHead`   — a change of attributes.
-/
import ListingMetadata.Proofs.Entity.Paths

namespace ListingMetadata.Entity

/-! ## §1. The property -/

/-- An entity has its own children in order, whatever lies below them. -/
structure WellFormedHere (e : Entity) : Prop where
  /-- There is a slot for exactly the kinds of children that may stand below. -/
  slotted : e.head.Slotted
  /-- Each child sits in the slot of its kind, which is fetched. -/
  seated : ∀ c ∈ e.children, c ∈ e.resolved c.kind
  /-- No child in a slot is without an id. -/
  named : ∀ k, ∀ c ∈ e.resolved k, c.id ≠ ""
  /-- No two children in a slot have the same id. -/
  distinct : ∀ k, ((e.resolved k).map id).Nodup
  /-- The children have the source of their parent. -/
  bound : ∀ k, ∀ c ∈ e.resolved k, c.head.source = e.head.source

/-- Each entity of the tree has its children in order. -/
def WellFormed (e : Entity) : Prop :=
  ∀ x, Within x e → x.WellFormedHere

theorem wellFormed_iff {e : Entity} :
    e.WellFormed ↔ e.WellFormedHere ∧ ∀ k, ∀ c ∈ e.resolved k, c.WellFormed :=
  forall_within_iff

theorem WellFormed.here {e : Entity} (h : e.WellFormed) : e.WellFormedHere :=
  (wellFormed_iff.mp h).1

theorem WellFormed.child {e : Entity} (h : e.WellFormed) {k : Kind} {c : Entity}
    (hc : c ∈ e.resolved k) : c.WellFormed :=
  (wellFormed_iff.mp h).2 k c hc

/-- A child sits in its slot exactly when the slot is fetched. -/
theorem mem_resolved_kind_iff {e c : Entity} (hc : c ∈ e.children) :
    c ∈ e.resolved c.kind ↔ e.head.progress? c.kind = some .fetched := by
  rw [mem_resolved]
  exact ⟨fun h => h.1, fun h => ⟨h, hc, rfl⟩⟩

theorem WellFormedHere.progress?_of_mem {e c : Entity} (h : e.WellFormedHere)
    (hc : c ∈ e.children) : e.head.progress? c.kind = some .fetched :=
  (mem_resolved_kind_iff hc).mp (h.seated c hc)

/-- A slot that is not fetched is empty. -/
theorem WellFormedHere.kind_ne_of_not_fetched {e c : Entity} {k : Kind} (h : e.WellFormedHere)
    (hk : e.head.progress? k ≠ some .fetched) (hc : c ∈ e.children) : c.kind ≠ k := by
  intro hck
  exact hk (hck ▸ h.progress?_of_mem hc)

/-- With fewer children in the slots and nobody out of place, an entity keeps its
children in order. -/
theorem WellFormedHere.of_sublist {e e' : Entity} (h : e.WellFormedHere)
    (hslotted : e'.head.Slotted) (hsource : e'.head.source = e.head.source)
    (hseated : ∀ c ∈ e'.children, e'.head.progress? c.kind = some .fetched)
    (hsub : ∀ k, (e'.resolved k).Sublist (e.resolved k)) : e'.WellFormedHere where
  slotted := hslotted
  seated c hc := (mem_resolved_kind_iff hc).mpr (hseated c hc)
  named k c hc := h.named k c ((hsub k).subset hc)
  distinct k := (h.distinct k).sublist ((hsub k).map id)
  bound k c hc := by
    rw [hsource]
    exact h.bound k c ((hsub k).subset hc)

/-- The same of the whole tree. -/
theorem WellFormed.of_sublist {e e' : Entity} (h : e.WellFormed)
    (hslotted : e'.head.Slotted) (hsource : e'.head.source = e.head.source)
    (hseated : ∀ c ∈ e'.children, e'.head.progress? c.kind = some .fetched)
    (hsub : ∀ k, (e'.resolved k).Sublist (e.resolved k)) : e'.WellFormed := by
  rw [wellFormed_iff]
  refine ⟨h.here.of_sublist hslotted hsource hseated hsub, ?_⟩
  intro k c hc
  exact h.child ((hsub k).subset hc)

/-! ## §2. Placing -/

@[simp] theorem source_placed (e : Entity) (p : Option String) (s : Option Nat) :
    (e.placed p s).head.source = s := by
  rw [head_placed]
  rfl

theorem wellFormed_bare {h : Head} (hs : h.slots = freshSlots h.kind) : (mk h []).WellFormed := by
  have hnone : ∀ k, (mk h []).resolved k = [] := by
    intro k
    rw [List.eq_nil_iff_forall_not_mem]
    intro c hc
    cases (mem_resolved.mp hc).2.1
  rw [wellFormed_iff]
  refine ⟨⟨?_, ?_, ?_, ?_, ?_⟩, ?_⟩
  · show h.slots.map Prod.fst = h.kind.childKinds
    rw [hs]
    exact Head.slotted_fresh h.kind h.strict h.layout
  · intro c hc
    cases hc
  · intro k c hc
    rw [hnone] at hc
    cases hc
  · intro k
    rw [hnone]
    exact List.nodup_nil
  · intro k c hc
    rw [hnone] at hc
    cases hc
  · intro k c hc
    rw [hnone] at hc
    cases hc

theorem wellFormedHere_placed {e : Entity} (h : e.WellFormedHere) (p : Option String)
    (s : Option Nat) : (e.placed p s).WellFormedHere where
  slotted := by
    rw [head_placed]
    exact h.slotted.placed p s
  seated c hc := by
    rw [children_placed] at hc
    obtain ⟨b, hb, rfl⟩ := List.mem_map.mp hc
    rw [kind_placed, resolved_placed]
    have hpath : (e.placed p s).path = (e.head.placed p s).path := by
      unfold path
      rw [head_placed]
    rw [hpath]
    exact List.mem_map.mpr ⟨b, h.seated b hb, rfl⟩
  named k c hc := by
    rw [resolved_placed] at hc
    obtain ⟨b, hb, rfl⟩ := List.mem_map.mp hc
    rw [id_placed]
    exact h.named k b hb
  distinct k := by
    have hids : ((e.placed p s).resolved k).map id = (e.resolved k).map id := by
      rw [resolved_placed, List.map_map]
      exact List.map_congr_left fun b _ => id_placed b _ _
    rw [hids]
    exact h.distinct k
  bound k c hc := by
    rw [resolved_placed] at hc
    obtain ⟨b, -, rfl⟩ := List.mem_map.mp hc
    rw [source_placed, source_placed]

/-- **A well-formed tree can be moved anywhere.** -/
theorem wellFormed_placed (e : Entity) :
    ∀ (p : Option String) (s : Option Nat), e.WellFormed → (e.placed p s).WellFormed := by
  induction e using induct with
  | step h cs ih =>
    intro p s he
    rw [wellFormed_iff]
    refine ⟨wellFormedHere_placed he.here p s, ?_⟩
    intro k c hc
    rw [resolved_placed] at hc
    obtain ⟨b, hb, rfl⟩ := List.mem_map.mp hc
    exact ih b (mem_resolved.mp hb).2.1 _ s (he.child hb)

/-! ## §3. Adding -/

/-- Siblings of one kind with distinct ids still have them after one more. -/
theorem nodup_ids_replaceOrAppend {child : Entity} {cs : List Entity}
    (hk : ∀ c ∈ cs, c.kind = child.kind) (hd : (cs.map id).Nodup) :
    ((replaceOrAppend child cs).map id).Nodup := by
  induction cs with
  | nil => simp [replaceOrAppend]
  | cons c cs ih =>
    obtain ⟨hnew, hrest⟩ := List.nodup_cons.mp hd
    have hkrest : ∀ d ∈ cs, d.kind = child.kind := fun d hd => hk d (List.mem_cons_of_mem _ hd)
    unfold replaceOrAppend
    split
    · rename_i hm
      -- the namesake goes, and its id comes back with the child
      rw [List.map_cons, ← hm.2]
      exact hd
    · rename_i hm
      rw [List.map_cons, List.nodup_cons]
      refine ⟨?_, ih hkrest hrest⟩
      intro hmem
      obtain ⟨d, hdmem, hdid⟩ := List.mem_map.mp hmem
      rcases mem_replaceOrAppend hdmem with hdc | hdc
      · exact hm ⟨hk c List.mem_cons_self, by rw [← hdid, hdc]⟩
      · exact hnew (List.mem_map.mpr ⟨d, hdc, hdid⟩)

theorem mem_children_of_readied {e c : Entity} {k : Kind} (h : c ∈ (e.readied k).children) :
    c ∈ e.children := by
  unfold readied at h
  split at h
  · exact h
  · exact (List.mem_filter.mp h).1

theorem source_adopt (e child : Entity) : (e.adopt child).head.source = e.head.source :=
  Head.source_eq_of_core (core_adopt e child)

theorem wellFormedHere_adopt {e child : Entity} (h : e.WellFormedHere)
    (ha : e.accepts child = true) : (e.adopt child).WellFormedHere := by
  obtain ⟨hpermits, hid⟩ := accepts_iff.mp ha
  have hslot : e.head.progress? child.kind ≠ none := h.slotted.progress?_ne_none hpermits
  have hself := resolved_adopt_self hslot
  refine ⟨slotted_adopt h.slotted child, ?_, ?_, ?_, ?_⟩
  · intro c hc
    rw [mem_resolved_kind_iff hc]
    by_cases hck : c.kind = child.kind
    · rw [hck]
      exact progress?_adopt_self hslot
    · -- a child of another kind was there before
      have hold : c ∈ e.children := by
        rcases mem_replaceOrAppend hc with hnew | hold
        · rw [hnew, kind_placed] at hck
          exact absurd rfl hck
        · exact mem_children_of_readied hold
      rw [progress?_adopt_of_ne e child hck]
      exact h.progress?_of_mem hold
  · intro k c hc
    rcases mem_resolved_adopt hc with hnew | hold
    · rw [hnew, id_placed]
      exact hid
    · exact h.named k c hold
  · intro k
    by_cases hk : k = child.kind
    · rw [hk, hself]
      apply nodup_ids_replaceOrAppend
      · intro c hc
        rw [kind_placed]
        exact kind_of_mem_resolved hc
      · exact h.distinct child.kind
    · rw [resolved_adopt_of_ne e child hk]
      exact h.distinct k
  · intro k c hc
    rw [source_adopt]
    rcases mem_resolved_adopt hc with hnew | hold
    · rw [hnew, source_placed]
    · exact h.bound k c hold

/-- **A well-formed tree takes another as a child.** -/
theorem wellFormed_adopt {e child : Entity} (he : e.WellFormed) (hc : child.WellFormed)
    (ha : e.accepts child = true) : (e.adopt child).WellFormed := by
  rw [wellFormed_iff]
  refine ⟨wellFormedHere_adopt he.here ha, ?_⟩
  intro k c h
  rcases mem_resolved_adopt h with hnew | hold
  · rw [hnew]
    exact wellFormed_placed child _ _ hc
  · exact he.child hold

/-! ## §4. Removing and opening -/

theorem removeFirst_sublist (k : Kind) (i : String) (cs : List Entity) :
    (removeFirst k i cs).Sublist cs := by
  induction cs with
  | nil => exact List.Sublist.refl []
  | cons c cs ih =>
    unfold removeFirst
    split
    · exact List.sublist_cons_self c cs
    · exact ih.cons_cons c

theorem children_remove_sublist (e : Entity) (k : Kind) (i : String) :
    ((e.remove k i).2.children).Sublist e.children := by
  unfold remove
  cases e.resolvedChild? k i with
  | none => exact List.Sublist.refl _
  | some c => exact removeFirst_sublist k i e.children

/-- Fewer children under a head with the same progress show fewer children. -/
theorem resolved_sublist_of_children {e e' : Entity} {k : Kind}
    (hp : e'.head.progress? k = e.head.progress? k) (hc : e'.children.Sublist e.children) :
    (e'.resolved k).Sublist (e.resolved k) := by
  by_cases hf : e.head.progress? k = some .fetched
  · rw [resolved_of_fetched hf, resolved_of_fetched (hp.trans hf)]
    exact hc.filter _
  · rw [resolved_of_not_fetched (hp ▸ hf)]
    exact List.nil_sublist _

theorem wellFormed_remove {e : Entity} (h : e.WellFormed) (k : Kind) (i : String) :
    (e.remove k i).2.WellFormed := by
  have hsub := children_remove_sublist e k i
  have hhead := head_remove e k i
  apply h.of_sublist
  · rw [hhead]
    exact h.here.slotted
  · rw [hhead]
  · intro c hc
    rw [hhead]
    exact h.here.progress?_of_mem (hsub.subset hc)
  · intro j
    exact resolved_sublist_of_children (by rw [hhead]) hsub

theorem wellFormed_opened {e : Entity} (h : e.WellFormed) (k : Kind) :
    (e.opened k).WellFormed := by
  apply h.of_sublist (slotted_opened h.here.slotted k) rfl
  · intro c hc
    obtain ⟨hold, hne⟩ := List.mem_filter.mp hc
    have hck : c.kind ≠ k := by simpa using hne
    show (e.head.setProgress k .fetched).progress? c.kind = some .fetched
    rw [Head.progress?_setProgress_of_ne _ hck]
    exact h.here.progress?_of_mem hold
  · intro j
    by_cases hj : j = k
    · rw [hj, resolved_opened_self]
      exact List.nil_sublist _
    · have hsame : (e.opened k).resolved j = e.resolved j := resolved_opened_of_ne e hj
      exact hsame ▸ List.Sublist.refl _

theorem wellFormed_failed {e : Entity} (h : e.WellFormed) {k : Kind}
    (hk : e.head.progress? k = some .unfetched) :
    (e.withHead (e.head.setProgress k .failed)).WellFormed := by
  have hnot : e.head.progress? k ≠ some .fetched := by rw [hk]; simp
  apply h.of_sublist
  · exact h.here.slotted.setProgress k .failed
  · rfl
  · intro c hc
    have hck : c.kind ≠ k := h.here.kind_ne_of_not_fetched hnot hc
    show (e.head.setProgress k .failed).progress? c.kind = some .fetched
    rw [Head.progress?_setProgress_of_ne _ hck]
    exact h.here.progress?_of_mem hc
  · intro j
    by_cases hj : j = k
    · have hfailed : (e.head.setProgress k .failed).progress? k = some .failed :=
        Head.progress?_setProgress_self _ (by rw [hk]; simp)
      have hempty : (e.withHead (e.head.setProgress k .failed)).resolved k = [] := by
        apply resolved_of_not_fetched
        rw [head_withHead, hfailed]
        simp
      rw [hj, hempty]
      exact List.nil_sublist _
    · exact resolved_sublist_of_children (Head.progress?_setProgress_of_ne _ hj)
        (List.Sublist.refl _)

/-! ## §5. Changing children -/

theorem mem_children_eachChild {f : Entity → Logged Event Entity} {e c : Entity} {k : Kind}
    (h : c ∈ (Entity.eachChild f e k).value.children) :
    ∃ b ∈ e.children, c = (f b).value ∨ c = b := by
  unfold Entity.eachChild at h
  split at h
  · replace h : c ∈ (Logged.each _ e.children).value := h
    rw [Logged.value_each] at h
    obtain ⟨b, hb, rfl⟩ := List.mem_map.mp h
    refine ⟨b, hb, ?_⟩
    split
    · exact Or.inl rfl
    · exact Or.inr rfl
  · exact ⟨c, h, Or.inr rfl⟩

theorem wellFormed_eachChild {e : Entity} (h : e.WellFormed) (k : Kind)
    {f : Entity → Logged Event Entity} (hf : ∀ c, c.WellFormed → (f c).value.WellFormed)
    (hcore : ∀ c, (f c).value.head.core = c.head.core) :
    (Entity.eachChild f e k).value.WellFormed := by
  have hkind : ∀ c, (f c).value.kind = c.kind := fun c => Head.kind_eq_of_core (hcore c)
  have hid : ∀ c, (f c).value.id = c.id := fun c => Head.id_eq_of_core (hcore c)
  have hsource : ∀ c, (f c).value.head.source = c.head.source :=
    fun c => Head.source_eq_of_core (hcore c)
  have hself := resolved_eachChild_self hkind e k
  have hhead := head_eachChild f e k
  have hfrom : ∀ j, ∀ c ∈ (Entity.eachChild f e k).value.resolved j,
      ∃ b ∈ e.resolved j, c = (f b).value ∨ c = b := fun _ _ => mem_resolved_eachChild hkind
  rw [wellFormed_iff]
  refine ⟨⟨?_, ?_, ?_, ?_, ?_⟩, ?_⟩
  · rw [hhead]
    exact h.here.slotted
  · intro c hc
    rw [mem_resolved_kind_iff hc, hhead]
    obtain ⟨b, hb, rfl | rfl⟩ := mem_children_eachChild hc
    · rw [hkind]
      exact h.here.progress?_of_mem hb
    · exact h.here.progress?_of_mem hb
  · intro j c hc
    obtain ⟨b, hb, rfl | rfl⟩ := hfrom j c hc
    · rw [hid]
      exact h.here.named j b hb
    · exact h.here.named j c hb
  · intro j
    by_cases hj : j = k
    · have hids : ((e.resolved k).map fun c => (f c).value).map id = (e.resolved k).map id := by
        rw [List.map_map]
        exact List.map_congr_left fun b _ => hid b
      rw [hj, hself, hids]
      exact h.here.distinct k
    · rw [resolved_eachChild_of_ne hkind e hj]
      exact h.here.distinct j
  · intro j c hc
    rw [hhead]
    obtain ⟨b, hb, rfl | rfl⟩ := hfrom j c hc
    · rw [hsource]
      exact h.here.bound j b hb
    · exact h.here.bound j c hb
  · intro j c hc
    obtain ⟨b, hb, rfl | rfl⟩ := hfrom j c hc
    · exact hf b (h.child hb)
    · exact h.child hb

/-- **A tree stays well-formed through every step by which trees are made.** -/
theorem lasting_wellFormed : Lasting WellFormed where
  bare _ hs _ := wellFormed_bare hs
  placed e p s he := wellFormed_placed e p s he
  resolved _ _ _ he hc := he.child hc
  adopt _ _ he hc ha := wellFormed_adopt he hc ha
  remove _ k i he := wellFormed_remove he k i
  opened _ k he _ := wellFormed_opened he k
  failed _ _ he hk := wellFormed_failed he hk
  eachChild _ k _ he hf hcore := wellFormed_eachChild he k hf hcore

/-! ## §6. Changes of attributes -/

/-- **A change of attributes keeps a tree well-formed**, also when the id of the
entity changes: no sibling of it is part of the tree. -/
theorem wellFormed_withHead {e : Entity} (he : e.WellFormed) {h : Head}
    (hf : h.frame = e.head.frame) : (e.withHead h).WellFormed := by
  apply he.of_sublist
  · show h.slots.map Prod.fst = h.kind.childKinds
    rw [Head.slots_eq_of_frame hf, Head.kind_eq_of_frame hf]
    exact he.here.slotted
  · exact Head.source_eq_of_frame hf
  · intro c hc
    rw [head_withHead, Head.progress?_eq_of_frame hf]
    exact he.here.progress?_of_mem hc
  · intro k
    have hsame : (e.withHead h).resolved k = e.resolved k := resolved_withHead hf k
    exact hsame ▸ List.Sublist.refl _

end ListingMetadata.Entity
