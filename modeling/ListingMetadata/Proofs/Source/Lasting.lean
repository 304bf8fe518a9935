/-
  ListingMetadata.Proofs.Source.Lasting
  ─────────────────────────────────────
  **PROPERTIES THAT LAST.**

  Trees come from bare entities by placing, adding, removing, opening and by
  changing children.  A property that each of these keeps lasts through
  building, fetching and materializing, as long as the sources give entities
  that have it:

    • `Lasting.build`         — the tree of a document,
    • `Lasting.resolve`       — a kind asked for,
    • `Lasting.materializeTo` — all kinds, down to a depth.
-/
import ListingMetadata.Proofs.Document.Building
import ListingMetadata.Proofs.Entity.Legible
import ListingMetadata.Proofs.Source.Materializing

namespace ListingMetadata

/-! ## §1. The single steps -/

/-- A property of entities that every step keeps by which trees are made, other
than changes of attributes. -/
structure Entity.Lasting (I : Entity → Prop) : Prop where
  bare : ∀ h : Head, h.slots = freshSlots h.kind → h.Legible → I (mk h [])
  placed : ∀ e p s, I e → I (e.placed p s)
  resolved : ∀ e k c, I e → c ∈ e.resolved k → I c
  adopt : ∀ e c, I e → I c → e.accepts c = true → I (e.adopt c)
  remove : ∀ e k id, I e → I (e.remove k id).2
  opened : ∀ e k, I e → e.head.progress? k = some .unfetched → I (e.opened k)
  failed : ∀ e k, I e → e.head.progress? k = some .unfetched →
    I (e.withHead (e.head.setProgress k .failed))
  eachChild : ∀ e k (f : Entity → Logged Event Entity), I e →
    (∀ c, I c → I (f c).value) → (∀ c, (f c).value.head.core = c.head.core) →
    I (eachChild f e k).value

/-! ## §2. Sources -/

/-- All that a source has been given to give away has a property. -/
def Source.Gives (I : Entity → Prop) : Source → Prop
  | .store entries _ => ∀ r c, (r, c) ∈ entries → I c
  | .shelf entries => ∀ r c, (r, c) ∈ entries → I c
  | .document _ _ => True

/-- All sources do. -/
def Sources.Give (I : Entity → Prop) (sources : Sources) : Prop :=
  ∀ s ∈ sources, s.2.Gives I

theorem Sources.mem_of_source? {sources : Sources} {number : Nat} {s : Source}
    (h : sources.source? number = some s) : (number, s) ∈ sources := by
  obtain ⟨before, after, hsplit, -⟩ := List.lookup_eq_some_iff.mp h
  rw [hsplit]
  simp

namespace Source

theorem value_answer_store (entries : List (Request × Entity)) (failing : List Request)
    (r : Request) :
    ((store entries failing).answer r).value
      = if failing.contains r then .error (.fetch r.kind r.path failureReason)
        else .ok (filed entries r) := by
  show (if failing.contains r then pure _ else pure _ : Logged Event _).value = _
  split <;> rfl

variable {I : Entity → Prop}

theorem Gives.insert {s : Source} (hs : s.Gives I) (path : String) {cs : List Entity}
    (hc : ∀ c ∈ cs, I c) : (s.insert path cs).Gives I := by
  cases s with
  | store entries failing =>
    intro r c h
    rcases List.mem_append.mp h with h | h
    · exact hs r c h
    · obtain ⟨d, hd, he⟩ := List.mem_map.mp h
      cases he
      exact hc c hd
  | shelf entries => exact hs
  | document strict entries => exact hs

theorem Gives.place {s : Source} (hs : s.Gives I) (request : Request) {cs : List Entity}
    (hc : ∀ c ∈ cs, I c) : (s.place request cs).Gives I := by
  cases s with
  | store entries failing => exact hs
  | shelf entries =>
    intro r c h
    rcases List.mem_append.mp h with h | h
    · exact hs r c (List.mem_filter.mp h).1
    · obtain ⟨d, hd, he⟩ := List.mem_map.mp h
      cases he
      exact hc c hd
  | document strict entries => exact hs

theorem Gives.failOn {s : Source} (hs : s.Gives I) (request : Request) :
    (s.failOn request).Gives I := by
  cases s <;> exact hs

end Source

namespace Entity.Lasting

variable {I : Entity → Prop} (hI : Lasting I)

include hI

/-! ## §3. Documents -/

theorem seed (strict : Bool) (d : Document) : I (d.seed strict) := by
  apply hI.bare
  · rw [Document.slots_head, Document.kind_head]
  · have hfresh : (Head.fresh d.kind strict (SharedLayout.builtin d.kind strict)).Legible :=
      Head.legible_fresh d.kind rfl
    exact Head.legible_setAll hfresh d.attributes

theorem offered {e c : Entity} (he : I e) (hc : I c) : I (e.offered c) := by
  cases h : e.accepts c with
  | true =>
    rw [offered_of_accepts h]
    exact hI.adopt e c he hc h
  | false =>
    rw [offered_of_not_accepts h]
    exact he

theorem foldl_offered {e : Entity} {cs : List Entity} (he : I e) (hcs : ∀ c ∈ cs, I c) :
    I (cs.foldl Entity.offered e) := by
  induction cs generalizing e with
  | nil => exact he
  | cons c cs ih =>
    exact ih (hI.offered he (hcs c List.mem_cons_self)) fun d hd =>
      hcs d (List.mem_cons_of_mem _ hd)

/-- **What is built of a document has the property.** -/
theorem build (strict : Bool) (d : Document) : I (d.build strict).value := by
  induction d using Document.induct with
  | step d ih =>
    rw [Document.value_build]
    apply hI.foldl_offered (hI.seed strict d)
    intro c hc
    obtain ⟨b, hb, rfl⟩ := List.mem_map.mp hc
    exact ih b hb

/-! ## §4. Fetching -/

theorem of_answer {s : Source} (hs : s.Gives I) {r : Request} {found : List Entity}
    (h : (s.answer r).value = .ok found) : ∀ c ∈ found, I c := by
  cases s with
  | store entries failing =>
    rw [Source.value_answer_store] at h
    split at h
    · cases h
    · cases h
      intro c hc
      exact hs r c (Document.mem_filed.mp hc)
  | shelf entries =>
    cases h
    intro c hc
    exact hs r c (Document.mem_filed.mp hc)
  | document strict entries =>
    have hfound : (Logged.each (Document.leaf strict) (filed entries r)).value = found :=
      Except.ok.inj h
    rw [← hfound, Logged.value_each]
    intro c hc
    obtain ⟨d, -, rfl⟩ := List.mem_map.mp hc
    rw [Document.value_leaf]
    exact hI.seed strict d

theorem of_brought {sources : Sources} (hs : sources.Give I) {e : Entity} {k : Kind}
    {found : List Entity} (h : e.brought? sources k = some found) : ∀ c ∈ found, I c := by
  unfold brought? at h
  cases hsource : e.head.source.bind sources.source? with
  | none =>
    rw [hsource] at h
    cases h
    intro c hc
    cases hc
  | some s =>
    obtain ⟨number, -, hnumber⟩ := Option.bind_eq_some_iff.mp hsource
    have hmem := Sources.mem_of_source? hnumber
    rw [hsource] at h
    cases ha : (s.answer ⟨k, e.path⟩).value with
    | ok answered =>
      simp only [ha] at h
      cases h
      exact hI.of_answer (hs _ hmem) ha
    | error f =>
      simp only [ha] at h
      cases h

/-- **Asking for a kind keeps the property.** -/
theorem resolve {sources : Sources} (hs : sources.Give I) {e : Entity} (he : I e) (k : Kind) :
    I (e.resolve sources k).value := by
  by_cases hu : e.head.progress? k = some .unfetched
  · rw [value_resolve_of_unfetched hu, value_fetch]
    cases hb : e.brought? sources k with
    | none => exact hI.failed e k he hu
    | some found => exact hI.foldl_offered (hI.opened e k he hu) (hI.of_brought hs hb)
  · rw [value_resolve_of_ne hu]
    exact he

/-- **Materializing keeps the property.** -/
theorem materializeTo {sources : Sources} (hs : sources.Give I) (depth : Nat) :
    ∀ {e : Entity}, I e → I (Entity.materializeTo sources depth e).value := by
  induction depth with
  | zero =>
    intro e he
    exact he
  | succ depth ih =>
    intro e he
    rw [value_materializeTo_succ]
    -- kind by kind: asked for first, then its children changed one by one
    induction e.kind.childKinds generalizing e with
    | nil => exact he
    | cons k ks ihk =>
      apply ihk
      exact hI.eachChild _ k _ (hI.resolve hs he k) (fun c hc => ih hc)
        (core_materializeTo sources depth)

end Entity.Lasting

end ListingMetadata
