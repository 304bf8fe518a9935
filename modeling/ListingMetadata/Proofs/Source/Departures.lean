/-
  ListingMetadata.Proofs.Source.Departures
  ────────────────────────────────────────
  **ONE SLOT AFTER THE OTHER LEAVES `unfetched`.**

  Whatever asks for children goes from tree to tree, and from one tree to the
  next a single slot changes: it was never asked for, and afterwards it is
  fetched or has failed.  This is a departure.  The source of the entity is
  asked at a departure, if it is there to be asked, and at no other time:

    • `departs_fetch`          — one fetch is one departure,
    • `Visits.inChild`           — departures in a child are departures in the tree,
    • `traced_resolve`, `traced_materializeTo` — all that asks for children.
-/
import ListingMetadata.Proofs.Document.Live
import ListingMetadata.Proofs.Entity.Slots
import ListingMetadata.Proofs.Source.Requests

namespace ListingMetadata

/-! ## §1. Sources that answer in kind -/

/-- A store or a document, all of whose entries are of the kind that they are
filed under. -/
def Source.InKind : Source → Prop
  | .store entries _ => ∀ r c, (r, c) ∈ entries → c.kind = r.kind
  | .shelf _ => False
  | .document _ entries => Document.FiledByKind entries

/-- All sources do. -/
def Sources.InKind (sources : Sources) : Prop :=
  ∀ s ∈ sources, s.2.InKind

/-- The source is a shelf, which answers with entities of any kinds. -/
def Source.isShelf : Source → Bool
  | .shelf _ => true
  | _ => false

theorem Source.InKind.of_answer {s : Source} (h : s.InKind) {r : Request} {found : List Entity}
    (ha : (s.answer r).value = .ok found) : ∀ c ∈ found, c.kind = r.kind := by
  cases s with
  | store entries failing =>
    rw [value_answer_store] at ha
    split at ha
    · cases ha
    · cases ha
      intro c hc
      exact h r c (Document.mem_filed.mp hc)
  | shelf entries => exact h.elim
  | document strict entries =>
    have hfound : (Logged.each (Document.leaf strict) (filed entries r)).value = found :=
      Except.ok.inj ha
    rw [← hfound, Logged.value_each]
    intro c hc
    obtain ⟨d, hd, rfl⟩ := List.mem_map.mp hc
    rw [Document.value_leaf, Document.kind_seed]
    exact h r d (Document.mem_filed.mp hd)

namespace Entity

/-- The entity has no source, or one that is gone, or a store or a document. -/
def AsksNoShelf (sources : Sources) (e : Entity) : Prop :=
  ∀ s, e.head.source.bind sources.source? = some s → s.isShelf = false

/-- The source of the entity, if it is still there, answers in kind. -/
def AsksInKind (sources : Sources) (e : Entity) : Prop :=
  ∀ s, e.head.source.bind sources.source? = some s → s.InKind

theorem AsksInKind.bringsInKind {sources : Sources} {e : Entity} (h : e.AsksInKind sources) :
    e.BringsInKind sources := by
  intro k found hf
  unfold brought? at hf
  cases hs : e.head.source.bind sources.source? with
  | none =>
    rw [hs] at hf
    cases hf
    intro c hc
    cases hc
  | some s =>
    rw [hs] at hf
    cases ha : (s.answer ⟨k, e.path⟩).value with
    | ok answered =>
      simp only [ha] at hf
      cases hf
      exact (h s hs).of_answer ha
    | error f =>
      simp only [ha] at hf
      cases hf

theorem AsksInKind.of_source {sources : Sources} {e e' : Entity} (h : e.AsksInKind sources)
    (hs : e'.head.source = e.head.source) : e'.AsksInKind sources := by
  unfold AsksInKind
  rw [hs]
  exact h

theorem asksInKind_of_inKind {sources : Sources} (h : sources.InKind) (e : Entity) :
    e.AsksInKind sources := by
  intro s hs
  obtain ⟨number, -, hnumber⟩ := Option.bind_eq_some_iff.mp hs
  exact h _ (Sources.mem_of_source? hnumber)

theorem bringsInKind_of_inKind {sources : Sources} (h : sources.InKind) (e : Entity) :
    e.BringsInKind sources :=
  (asksInKind_of_inKind h e).bringsInKind

/-! ## §2. Departures -/

/-- A slot that leaves `unfetched`. -/
structure Departure where
  /-- The way to the entity that has the slot. -/
  way : Way
  /-- The kind of the slot. -/
  kind : Kind
  /-- The source that the entity is bound to. -/
  source : Option Nat
  /-- The path of the entity. -/
  path : String
  /-- The source is still there. -/
  served : Bool

/-- What a departure leaves in the log. -/
def Departure.requests (d : Departure) : List Event :=
  if d.served then requestOf d.source d.kind d.path else []

/-- The departure asks the source of a number: the entity is bound to it, and it
is still there. -/
def Departure.asks (number : Nat) (d : Departure) : Bool :=
  d.served && decide (d.source = some number)

/-- The same departure, seen from the parent of the root. -/
def Departure.inChild (s : Kind × String) (d : Departure) : Departure :=
  { d with way := s :: d.way }

/-- From one tree to another exactly one slot leaves `unfetched`. -/
structure Departs (sources : Sources) (e : Entity) (d : Departure) (e' : Entity) : Prop where
  /-- The slot was never asked for. -/
  before : e.slot? d.way d.kind = some .unfetched
  /-- It is fetched or has failed afterwards. -/
  after : e'.slot? d.way d.kind = some .fetched ∨ e'.slot? d.way d.kind = some .failed
  /-- No other slot changes. -/
  elsewhere : ∀ w k p, ¬(w = d.way ∧ k = d.kind) → e.slot? w k = some p → e'.slot? w k = some p
  /-- Source and path are those of the entity that has the slot, and the tree has
  the fetched entity in its place. -/
  entity : ∃ x, e.at? d.way = some x ∧ d.source = x.head.source ∧ d.path = x.path ∧
    d.served = x.isServed sources ∧ e'.at? d.way = some (x.fetch sources d.kind).value
  /-- Without a source to ask, the slot is fetched and has no children. -/
  idle : d.served = false → e'.slot? d.way d.kind = some .fetched ∧
    ∃ x', e'.at? d.way = some x' ∧ x'.resolved d.kind = []
  /-- The root keeps all of its own but the progress of its children. -/
  root : e'.head.core = e.head.core

/-- One departure after the other, from a tree to a tree. -/
inductive Visits (sources : Sources) : Entity → List Departure → Entity → Prop where
  | done (e : Entity) : Visits sources e [] e
  | next {e m e' : Entity} {d : Departure} {ds : List Departure} :
      Departs sources e d m → Visits sources m ds e' → Visits sources e (d :: ds) e'

theorem Visits.append {sources : Sources} {e m e' : Entity} {ds es : List Departure}
    (h : Visits sources e ds m) (h' : Visits sources m es e') : Visits sources e (ds ++ es) e' := by
  induction h with
  | done e => exact h'
  | next hd _ ih => exact .next hd (ih h')

theorem Visits.core {sources : Sources} {e e' : Entity} {ds : List Departure}
    (h : Visits sources e ds e') : e'.head.core = e.head.core := by
  induction h with
  | done e => rfl
  | next hd _ ih => exact ih.trans hd.root

/-- **A slot that is there from the start stays as it is, unless it departs.** -/
theorem Visits.slot? {sources : Sources} {e e' : Entity} {ds : List Departure}
    (h : Visits sources e ds e') {w : Way} {k : Kind} {p : Progress}
    (hp : e.slot? w k = some p) :
    e'.slot? w k = some p ∨ (p = .unfetched ∧ (∃ d ∈ ds, d.way = w ∧ d.kind = k) ∧
      (e'.slot? w k = some .fetched ∨ e'.slot? w k = some .failed)) := by
  induction h generalizing p with
  | done e => exact Or.inl hp
  | @next e m e' d ds hd hv ih =>
    by_cases hsame : w = d.way ∧ k = d.kind
    · -- once departed, the slot is not `unfetched` any more and stays
      obtain ⟨rfl, rfl⟩ := hsame
      have hunfetched : p = .unfetched := Option.some.inj (hp.symm.trans hd.before)
      have hin : ∃ d' ∈ d :: ds, d'.way = d.way ∧ d'.kind = d.kind :=
        ⟨d, List.mem_cons_self, rfl, rfl⟩
      rcases hd.after with ha | ha
      · rcases ih ha with hstay | ⟨hno, -⟩
        · exact Or.inr ⟨hunfetched, hin, Or.inl hstay⟩
        · cases hno
      · rcases ih ha with hstay | ⟨hno, -⟩
        · exact Or.inr ⟨hunfetched, hin, Or.inr hstay⟩
        · cases hno
    · rcases ih (hd.elsewhere w k p hsame hp) with hstay | ⟨hu, ⟨d', hd', hway⟩, hafter⟩
      · exact Or.inl hstay
      · exact Or.inr ⟨hu, ⟨d', List.mem_cons_of_mem _ hd', hway⟩, hafter⟩

/-! ## §3. One fetch -/

theorem resolved_fetch_of_not_served {sources : Sources} {e : Entity}
    (h : e.isServed sources = false) (k : Kind) : (e.fetch sources k).value = e.opened k := by
  unfold isServed at h
  have hnone : e.head.source.bind sources.source? = none := by
    cases hs : e.head.source.bind sources.source? with
    | none => rfl
    | some s => rw [hs] at h; cases h
  have hbrought : e.brought? sources k = some [] := by
    unfold brought?
    rw [hnone]
  rw [value_fetch, hbrought]
  rfl

/-- **A fetch is a departure of the slot that it is for.** -/
theorem departs_fetch {sources : Sources} (hk : sources.InKind) {e : Entity}
    (hs : e.head.Slotted) {k : Kind} (hu : e.head.progress? k = some .unfetched) :
    Departs sources e ⟨[], k, e.head.source, e.path, e.isServed sources⟩
      (e.fetch sources k).value where
  before := hu
  after := by
    show (e.fetch sources k).value.head.progress? k = _ ∨
      (e.fetch sources k).value.head.progress? k = _
    rw [progress?_fetch_self sources (by rw [hu]; simp)]
    split
    · exact Or.inl rfl
    · exact Or.inr rfl
  elsewhere w j p hne hp := by
    rw [← value_resolve_of_unfetched hu]
    exact slot?_resolve hs (bringsInKind_of_inKind hk e) hu hp hne
  entity := ⟨e, rfl, rfl, rfl, rfl, rfl⟩
  idle hidle := by
    have hopened := resolved_fetch_of_not_served hidle k
    have hne : e.head.progress? k ≠ none := by rw [hu]; simp
    rw [hopened]
    exact ⟨Head.progress?_setProgress_self _ hne, _, rfl, resolved_opened_self e k⟩
  root := core_fetch sources e k

/-! ## §4. Departures in a child -/

section Below

variable {h : Head} {pre post : List Entity} {c m : Entity}

/-- Among siblings with distinct keys a child is found by its own. -/
theorem resolvedChild?_among (hp : h.progress? c.kind = some .fetched)
    (hnew : ∀ x ∈ pre, x.key ≠ c.key) :
    (mk h (pre ++ c :: post)).resolvedChild? c.kind c.id = some c := by
  have hpre : pre.find? (fun x => decide (x.key = (c.kind, c.id))) = none := by
    rw [List.find?_eq_none]
    intro x hx
    exact fun hkey => hnew x hx (of_decide_eq_true hkey)
  rw [resolvedChild?_eq]
  show (if h.progress? c.kind = some .fetched then
    (pre ++ c :: post).find? fun x => decide (x.key = (c.kind, c.id)) else none) = _
  rw [if_pos hp, List.find?_append, hpre, Option.none_or, List.find?_cons_of_pos (by simp [key])]

/-- A child with the same key in the place of another changes no sibling. -/
theorem resolvedChild?_among_of_ne (hm : m.key = c.key) {j : Kind} {i : String}
    (hne : c.key ≠ (j, i)) :
    (mk h (pre ++ m :: post)).resolvedChild? j i
      = (mk h (pre ++ c :: post)).resolvedChild? j i := by
  have hmne : m.key ≠ (j, i) := hm ▸ hne
  rw [resolvedChild?_eq, resolvedChild?_eq]
  show (if h.progress? j = some .fetched then
      (pre ++ m :: post).find? (fun x => decide (x.key = (j, i))) else none)
    = if h.progress? j = some .fetched then
      (pre ++ c :: post).find? (fun x => decide (x.key = (j, i))) else none
  rw [List.find?_append, List.find?_append, List.find?_cons_of_neg (by simpa using hmne),
    List.find?_cons_of_neg (by simpa using hne)]

variable {sources : Sources}

/-- **A departure in a child is one in the tree.** -/
theorem Departs.inChild {d : Departure} (hd : Departs sources c d m)
    (hp : h.progress? c.kind = some .fetched) (hnew : ∀ x ∈ pre, x.key ≠ c.key) :
    Departs sources (Entity.mk h (pre ++ c :: post)) (d.inChild c.key) (Entity.mk h (pre ++ m :: post)) := by
  have hkey : m.key = c.key := key_eq_of_core hd.root
  have hmkind : m.kind = c.kind := Head.kind_eq_of_core hd.root
  have hmid : m.id = c.id := Head.id_eq_of_core hd.root
  have hfind : (Entity.mk h (pre ++ c :: post)).resolvedChild? c.kind c.id = some c :=
    resolvedChild?_among hp hnew
  have hfind' : (Entity.mk h (pre ++ m :: post)).resolvedChild? c.kind c.id = some m := by
    rw [← hmkind, ← hmid]
    exact resolvedChild?_among (hmkind ▸ hp) fun x hx => hkey ▸ hnew x hx
  have hat : ∀ w, (Entity.mk h (pre ++ c :: post)).at? (c.key :: w) = c.at? w := by
    intro w
    show ((Entity.mk h (pre ++ c :: post)).resolvedChild? c.kind c.id).bind _ = _
    rw [hfind, Option.bind_some]
  have hat' : ∀ w, (Entity.mk h (pre ++ m :: post)).at? (c.key :: w) = m.at? w := by
    intro w
    show ((Entity.mk h (pre ++ m :: post)).resolvedChild? c.kind c.id).bind _ = _
    rw [hfind', Option.bind_some]
  have hslot : ∀ w k, (Entity.mk h (pre ++ c :: post)).slot? (c.key :: w) k = c.slot? w k := by
    intro w k
    unfold Entity.slot?
    rw [hat]
  have hslot' : ∀ w k, (Entity.mk h (pre ++ m :: post)).slot? (c.key :: w) k = m.slot? w k := by
    intro w k
    unfold Entity.slot?
    rw [hat']
  refine ⟨?_, ?_, ?_, ?_, ?_, rfl⟩
  · exact (hslot d.way d.kind).trans hd.before
  · show (Entity.mk h (pre ++ m :: post)).slot? (c.key :: d.way) d.kind = _ ∨
      (Entity.mk h (pre ++ m :: post)).slot? (c.key :: d.way) d.kind = _
    rw [hslot']
    exact hd.after
  · intro w k p hne hw
    cases w with
    | nil => exact hw
    | cons s w =>
      by_cases hs : s = c.key
      · -- on the way of the child it is the child that decides
        subst hs
        rw [hslot] at hw
        rw [hslot']
        apply hd.elsewhere w k p _ hw
        intro hsame
        exact hne ⟨by rw [hsame.1]; rfl, hsame.2⟩
      · have hsne : c.key ≠ (s.1, s.2) := fun hc => hs hc.symm
        rw [← hw]
        exact slot?_cons_congr (resolvedChild?_among_of_ne hkey hsne) w k
  · obtain ⟨x, hx, hsource, hpath, hserved, hx'⟩ := hd.entity
    exact ⟨x, (hat d.way).trans hx, hsource, hpath, hserved, (hat' d.way).trans hx'⟩
  · intro hidle
    obtain ⟨hfetched, x', hx', hnone⟩ := hd.idle hidle
    exact ⟨(hslot' d.way d.kind).trans hfetched, x', (hat' d.way).trans hx', hnone⟩

/-- **Departures in a child are departures in the tree.** -/
theorem Visits.inChild {ds : List Departure} (hv : Visits sources c ds m)
    (hp : h.progress? c.kind = some .fetched) (hnew : ∀ x ∈ pre, x.key ≠ c.key) :
    Visits sources (Entity.mk h (pre ++ c :: post)) (ds.map (Departure.inChild c.key))
      (Entity.mk h (pre ++ m :: post)) := by
  induction hv with
  | done c => exact .done _
  | @next c n m d ds hd _ ih =>
    have hkey : n.key = c.key := key_eq_of_core hd.root
    have hkind : n.kind = c.kind := Head.kind_eq_of_core hd.root
    have hrest := ih (hkind ▸ hp) fun x hx => hkey ▸ hnew x hx
    rw [hkey] at hrest
    exact .next (hd.inChild hp hnew) hrest

end Below

/-! ## §5. All that asks for children -/

/-- The work leads from the entity to its result by departures, and makes the
requests of the departures in their order. -/
def Traced (sources : Sources) (e : Entity) (x : Logged Event Entity) : Prop :=
  ∃ ds, Visits sources e ds x.value ∧ x.requests = ds.flatMap Departure.requests

section Tracing

variable {sources : Sources} {e : Entity}

theorem traced_pure (e : Entity) : Traced sources e (pure e) :=
  ⟨[], .done e, rfl⟩

theorem Traced.bind {x : Logged Event Entity} {f : Entity → Logged Event Entity}
    (hx : Traced sources e x) (hf : Traced sources x.value (f x.value)) :
    Traced sources e (x >>= f) := by
  obtain ⟨ds, hds, hrequests⟩ := hx
  obtain ⟨es, hes, hrequests'⟩ := hf
  refine ⟨ds ++ es, hds.append hes, ?_⟩
  rw [Logged.requests_bind, hrequests, hrequests', List.flatMap_append]

/-- **Asking for a kind is one departure or none.** -/
theorem traced_resolve (hk : sources.InKind) (hs : e.head.Slotted) (k : Kind) :
    Traced sources e (e.resolve sources k) := by
  unfold resolve
  split
  · rename_i hu
    refine ⟨[⟨[], k, e.head.source, e.path, e.isServed sources⟩],
      .next (departs_fetch hk hs hu) (.done _), ?_⟩
    rw [requests_fetch, List.flatMap_singleton]
    rfl
  · exact traced_pure e

/-- Siblings that change one by one. -/
theorem traced_each {h : Head} {g : Entity → Logged Event Entity} (cs : List Entity) :
    ∀ pre : List Entity, ((pre ++ cs).map key).Nodup →
      (∀ c ∈ cs, h.progress? c.kind = some .fetched) → (∀ c ∈ cs, Traced sources c (g c)) →
      ∃ ds, Visits sources (mk h (pre ++ cs)) ds (mk h (pre ++ (Logged.each g cs).value)) ∧
        (Logged.each g cs).requests = ds.flatMap Departure.requests := by
  induction cs with
  | nil =>
    intro pre _ _ _
    exact ⟨[], .done _, rfl⟩
  | cons c cs ih =>
    intro pre hnodup hp hg
    obtain ⟨ds, hds, hrequests⟩ := hg c List.mem_cons_self
    have hkey : (g c).value.key = c.key := key_eq_of_core hds.core
    have hnew : ∀ x ∈ pre, x.key ≠ c.key := by
      intro x hx hsame
      rw [List.map_append, List.nodup_append] at hnodup
      exact hnodup.2.2 x.key (List.mem_map.mpr ⟨x, hx, rfl⟩) c.key
        (List.mem_map.mpr ⟨c, List.mem_cons_self, rfl⟩) hsame
    -- the child changes first; it keeps its key, so the rest goes on as before
    have hfirst : Visits sources (mk h (pre ++ c :: cs)) (ds.map (Departure.inChild c.key))
        (mk h (pre ++ (g c).value :: cs)) := hds.inChild (hp c List.mem_cons_self) hnew
    have hkeys : ((pre ++ [(g c).value] ++ cs).map key) = (pre ++ c :: cs).map key := by
      simp [hkey]
    obtain ⟨es, hes, hrequests'⟩ := ih (pre ++ [(g c).value]) (hkeys ▸ hnodup)
      (fun x hx => hp x (List.mem_cons_of_mem _ hx)) fun x hx => hg x (List.mem_cons_of_mem _ hx)
    rw [List.append_assoc, List.append_assoc] at hes
    refine ⟨ds.map (Departure.inChild c.key) ++ es, hfirst.append hes, ?_⟩
    have hsame : (ds.map (Departure.inChild c.key)).flatMap Departure.requests
        = ds.flatMap Departure.requests := List.flatMap_map ..
    unfold Logged.each
    rw [Logged.requests_bind, Logged.requests_bind, hrequests, hrequests', List.flatMap_append,
      hsame, Logged.requests_pure, List.append_nil]

theorem traced_eachChild {f : Entity → Logged Event Entity} (he : e.WellFormedHere) (k : Kind)
    (hf : ∀ c ∈ e.resolved k, Traced sources c (f c)) : Traced sources e (eachChild f e k) := by
  unfold eachChild
  split
  · rename_i hp
    have hg : ∀ c ∈ e.children, Traced sources c (if c.kind = k then f c else pure c) := by
      intro c hc
      split
      · rename_i hck
        exact hf c (hck ▸ he.seated c hc)
      · exact traced_pure c
    obtain ⟨ds, hds, hrequests⟩ := traced_each e.children [] he.nodup_keys
      (fun c hc => he.progress?_of_mem hc) hg
    refine ⟨ds, ?_, ?_⟩
    · cases e
      exact hds
    · rw [Logged.requests_bind, hrequests]
      exact List.append_nil _
  · exact traced_pure e

/-- **Materializing is one departure after the other**, in the entity and in all
that comes to lie below it. -/
theorem traced_materializeTo (hg : sources.Give WellFormed) (hk : sources.InKind) (depth : Nat) :
    ∀ e : Entity, e.WellFormed → Traced sources e (materializeTo sources depth e) := by
  induction depth with
  | zero =>
    intro e _
    exact traced_pure e
  | succ depth ih =>
    intro e he
    unfold materializeTo
    -- kind by kind: asked for first, then its children one by one
    induction e.kind.childKinds generalizing e with
    | nil => exact traced_pure e
    | cons k ks ihk =>
      have hresolved : (e.resolve sources k).value.WellFormed := lasting_wellFormed.resolve hg he k
      have hstep : Traced sources e (e.resolve sources k >>= fun e' =>
          eachChild (materializeTo sources depth) e' k) :=
        (traced_resolve hk he.here.slotted k).bind
          (traced_eachChild hresolved.here k fun c hc => ih c (hresolved.child hc))
      have hdeepened : (eachChild (materializeTo sources depth)
          (e.resolve sources k).value k).value.WellFormed :=
        wellFormed_eachChild hresolved k (fun c hc => lasting_wellFormed.materializeTo hg depth hc)
          (core_materializeTo sources depth)
      exact hstep.bind (ihk _ hdeepened)

end Tracing

end Entity

end ListingMetadata
