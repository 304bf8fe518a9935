/-
  ListingMetadata.Proofs.Workbench.Layouts
  ────────────────────────────────────────
  **LAYOUTS THAT WERE HANDED OUT DO NOT CHANGE.**

  Whoever holds a layout may share it with the registry that handed it out and with
  any number of entities.  Nothing that is done to them shows in it: declarations wait
  until all layouts are dropped, and an entity that gets another type for a name gets a
  layout of its own.

  Main results:
    * `held?_doneAll_append`   — who holds a layout, and until when,
    * `answer_layout_again`    — two look-ups of a pair come to one layout,
    * `coherent_after`         — what is one layout is one at all times,
    * `layoutsHold`            — all of it, after any acts.

  The proofs go by what one act does (`does_done`), then by induction on the acts, the
  last one first.
-/
import ListingMetadata.Proofs.Workbench.Histories

namespace ListingMetadata

theorem SharedLayout.sameAs_iff {a b : SharedLayout} :
    a.sameAs b = true ↔
      a.mark = b.mark ∧ a.layout.kind = b.layout.kind ∧ a.layout.strict = b.layout.strict := by
  unfold sameAs
  simp [and_assoc]

namespace Workbench

open Registry (Deed)

/-! ## §1. One layout at all times -/

/-- Layouts of which those that are one are equal, and which are told from all that
are still to come: their numbers were given before, and what a registry handed out
since it last dropped its layouts it hands out again. -/
structure Coherent (L : SharedLayout → Prop) (b : Workbench) : Prop where
  same : ∀ a a', L a → L a' → a.sameAs a' = true → a = a'
  builtin : ∀ a, L a → a.mark = .builtin →
    a.layout = Layout.builtin a.layout.kind a.layout.strict
  issued : ∀ a id generation, L a → a.mark = .issued id generation → id < b.next
  handedOut : ∀ a n r, L a → b.registries.get? n = some r →
    ∀ generation, a.mark = .issued r.id generation → generation < r.generation ∨
      generation = r.generation ∧
        r.handedOut? a.layout.kind a.layout.strict = some a.layout
  changed : ∀ a serial, L a → a.mark = .changed serial → serial < b.next
  given : ∀ n r, b.registries.get? n = some r → r.id < b.next
  apart : ∀ n m r s, b.registries.get? n = some r → b.registries.get? m = some s →
    r.id = s.id → n = m

theorem coherent_empty : Coherent (fun _ => False) empty where
  same _ _ h := h.elim
  builtin _ h := h.elim
  issued _ _ _ h := h.elim
  handedOut _ _ _ h := h.elim
  changed _ _ h := h.elim
  given _ _ h := by cases h
  apart _ _ _ _ h := by cases h

section Steps

variable {L : SharedLayout → Prop} {b b' : Workbench}

/-- Fewer layouts, and nothing else done. -/
theorem Coherent.mono (h : Coherent L b) {L' : SharedLayout → Prop} (hL : ∀ a, L' a → L a)
    (hnext : b.next ≤ b'.next) (hregistries : b'.registries = b.registries) : Coherent L' b' where
  same a a' ha ha' := h.same a a' (hL a ha) (hL a' ha')
  builtin a ha := h.builtin a (hL a ha)
  issued a id generation ha hm := Nat.lt_of_lt_of_le (h.issued a id generation (hL a ha) hm) hnext
  handedOut a n r ha hr := h.handedOut a n r (hL a ha) (hregistries ▸ hr)
  changed a serial ha hm := Nat.lt_of_lt_of_le (h.changed a serial (hL a ha) hm) hnext
  given n r hr := Nat.lt_of_lt_of_le (h.given n r (hregistries ▸ hr)) hnext
  apart n m r s hr hs := h.apart n m r s (hregistries ▸ hr) (hregistries ▸ hs)

/-- One registry more, which has handed out nothing. -/
theorem Coherent.founds (h : Coherent L b) {n : String} (hnext : b'.next = b.next + 1)
    (hregistries : Registers b b' n (Registry.fresh b.next)) : Coherent L b' where
  same := h.same
  builtin := h.builtin
  issued a id generation ha hm := by
    have hlt := h.issued a id generation ha hm
    omega
  handedOut a m r ha hr generation hm := by
    rw [hregistries m] at hr
    split at hr
    · -- its number is new, so no layout is from it
      cases hr
      have hlt := h.issued a _ generation ha hm
      exact absurd hlt (Nat.lt_irrefl _)
    · exact h.handedOut a m r ha hr generation hm
  changed a serial ha hm := by
    have hlt := h.changed a serial ha hm
    omega
  given m r hr := by
    rw [hregistries m] at hr
    split at hr
    · cases hr
      show b.next < b'.next
      omega
    · have hlt := h.given m r hr
      omega
  apart m m' r s hr hs hid := by
    rw [hregistries m] at hr
    rw [hregistries m'] at hs
    split at hr <;> split at hs
    · rename_i hm hm'
      exact hm.trans hm'.symm
    · cases hr
      have hlt := h.given m' s hs
      exact absurd hid.symm (Nat.ne_of_lt hlt)
    · cases hs
      have hlt := h.given m r hr
      exact absurd hid (Nat.ne_of_lt hlt)
    · exact h.apart m m' r s hr hs hid

/-- A registry does a deed. -/
theorem Coherent.deed (h : Coherent L b) {n : String} {r : Registry} {d : Deed}
    (hr : b.registries.get? n = some r) (hnext : b'.next = b.next)
    (hregistries : Registers b b' n (r.step d)) : Coherent L b' where
  same := h.same
  builtin := h.builtin
  issued a id generation ha hm := hnext ▸ h.issued a id generation ha hm
  handedOut a m s ha hs generation hm := by
    rw [hregistries m] at hs
    split at hs
    · cases hs
      rw [Registry.id_step] at hm
      rw [Registry.generation_step]
      by_cases hd : d = .invalidateAll
      · -- all that was handed out is from before
        rw [if_pos hd]
        have hle := h.handedOut a n r ha hr generation hm
        exact .inl (by omega)
      · rw [if_neg hd]
        exact (h.handedOut a n r ha hr generation hm).imp id
          (And.imp id fun hl => Registry.handedOut?_step hl hd)
    · exact h.handedOut a m s ha hs generation hm
  changed a serial ha hm := hnext ▸ h.changed a serial ha hm
  given m s hs := by
    rw [hnext]
    rw [hregistries m] at hs
    split at hs
    · cases hs
      rw [Registry.id_step]
      exact h.given n r hr
    · exact h.given m s hs
  apart m m' s s' hs hs' hid := by
    -- the registry has the number that it had
    have hbefore : ∀ k t, b'.registries.get? k = some t →
        ∃ t', b.registries.get? k = some t' ∧ t'.id = t.id := by
      intro k t ht
      rw [hregistries k] at ht
      split at ht
      · rename_i hk
        cases ht
        exact ⟨r, hk ▸ hr, (Registry.id_step r d).symm⟩
      · exact ⟨t, ht, rfl⟩
    obtain ⟨t, ht, htid⟩ := hbefore m s hs
    obtain ⟨t', ht', htid'⟩ := hbefore m' s' hs'
    exact h.apart m m' t t' ht ht' (htid.trans (hid.trans htid'.symm))

/-- One layout more, which is equal to those that it is one with. -/
theorem Coherent.insert (h : Coherent L b) {x : SharedLayout}
    (hsame : ∀ a, L a → a.sameAs x = true → a = x)
    (hbuiltin : x.mark = .builtin → x.layout = Layout.builtin x.layout.kind x.layout.strict)
    (hissued : ∀ id generation, x.mark = .issued id generation → ∃ n r,
      b.registries.get? n = some r ∧ r.id = id ∧ r.generation = generation ∧
        r.handedOut? x.layout.kind x.layout.strict = some x.layout)
    (hchanged : ∀ serial, x.mark = .changed serial → serial < b.next) :
    Coherent (fun a => L a ∨ a = x) b where
  same a a' ha ha' hs := by
    rcases ha with ha | rfl
    · rcases ha' with ha' | rfl
      · exact h.same a a' ha ha' hs
      · exact hsame a ha hs
    · rcases ha' with ha' | rfl
      · have hs' : a'.sameAs a = true := by
          rw [SharedLayout.sameAs_iff] at hs ⊢
          exact ⟨hs.1.symm, hs.2.1.symm, hs.2.2.symm⟩
        exact (hsame a' ha' hs').symm
      · rfl
  builtin a ha := by
    rcases ha with ha | rfl
    · exact h.builtin a ha
    · exact hbuiltin
  issued a id generation ha hm := by
    rcases ha with ha | rfl
    · exact h.issued a id generation ha hm
    · obtain ⟨n, r, hr, rfl, -⟩ := hissued id generation hm
      exact h.given n r hr
  handedOut a n r ha hr generation hm := by
    rcases ha with ha | rfl
    · exact h.handedOut a n r ha hr generation hm
    · obtain ⟨m, s, hs, hid, rfl, hl⟩ := hissued r.id generation hm
      obtain rfl := h.apart m n s r hs hr hid
      rw [hr] at hs
      cases hs
      exact .inr ⟨rfl, hl⟩
  changed a serial ha hm := by
    rcases ha with ha | rfl
    · exact h.changed a serial ha hm
    · exact hchanged serial hm
  given := h.given
  apart := h.apart

/-- A layout of the built-in columns. -/
theorem Coherent.insert_builtin (h : Coherent L b) (kind : Kind) (strict : Bool) :
    Coherent (fun a => L a ∨ a = SharedLayout.builtin kind strict) b := by
  have hparts : (SharedLayout.builtin kind strict).layout.kind = kind ∧
      (SharedLayout.builtin kind strict).layout.strict = strict := ⟨rfl, rfl⟩
  apply h.insert
  · intro a ha hs
    obtain ⟨hmark, hkind, hstrict⟩ := SharedLayout.sameAs_iff.mp hs
    apply SharedLayout.eq_of_parts hmark
    rw [h.builtin a ha hmark, hkind, hstrict]
    rfl
  · intro _
    rfl
  · intro id generation hm
    cases hm
  · intro serial hm
    cases hm

/-- A layout that a registry hands out. -/
theorem Coherent.insert_issued (h : Coherent L b) {n : String} {r : Registry}
    (hr : b.registries.get? n = some r) {kind : Kind} {strict : Bool} {l : Layout}
    (hl : r.handedOut? kind strict = some l) :
    Coherent (fun a => L a ∨ a = ⟨.issued r.id r.generation, l⟩) b := by
  obtain ⟨rfl, rfl⟩ := Registry.kind_of_handedOut? hl
  apply h.insert
  · intro a ha hs
    obtain ⟨hmark, hkind, hstrict⟩ := SharedLayout.sameAs_iff.mp hs
    -- the registry hands out one layout for the pair
    obtain hlt | ⟨-, ha'⟩ := h.handedOut a n r ha hr r.generation hmark
    · exact absurd hlt (Nat.lt_irrefl _)
    · rw [hkind, hstrict, show r.handedOut? l.kind l.strict = some l from hl] at ha'
      exact SharedLayout.eq_of_parts hmark (Option.some.inj ha').symm
  · intro hm
    cases hm
  · intro id generation hm
    cases hm
    exact ⟨n, r, hr, rfl, rfl, hl⟩
  · intro serial hm
    cases hm

/-- A layout of an entity's own. -/
theorem Coherent.insert_changed (h : Coherent L b) (hnext : b'.next = b.next + 1)
    (hregistries : b'.registries = b.registries) (l : Layout) :
    Coherent (fun a => L a ∨ a = ⟨.changed b.next, l⟩) b' := by
  apply (h.mono (fun _ ha => ha) (by omega) hregistries).insert
  · intro a ha hs
    -- its number was not given before
    have hlt := h.changed a b.next ha (SharedLayout.sameAs_iff.mp hs).1
    exact absurd hlt (Nat.lt_irrefl _)
  · intro hm
    cases hm
  · intro id generation hm
    cases hm
  · intro serial hm
    cases hm
    omega

end Steps

/-! ## §2. Runs -/

/-- Somebody held the layout at some time in the course of the acts. -/
def Held (acts : List Act) (l : SharedLayout) : Prop :=
  ∃ earlier h, earlier <+: acts ∧ (doneAll earlier).held? h = some l

theorem held_append_singleton {acts : List Act} {act : Act} {l : SharedLayout}
    (h : Held (acts ++ [act]) l) :
    Held acts l ∨ ∃ holder, (done (doneAll acts) act).held? holder = some l := by
  obtain ⟨earlier, holder, hearlier, hl⟩ := h
  rcases List.prefix_concat_iff.mp hearlier with rfl | hearlier
  · rw [doneAll_append_singleton] at hl
    exact .inr ⟨holder, hl⟩
  · exact .inl ⟨earlier, holder, hearlier, hl⟩

theorem held_of_held? {acts : List Act} {holder : Holder} {l : SharedLayout}
    (h : (doneAll acts).held? holder = some l) : Held acts l :=
  ⟨acts, holder, List.prefix_refl acts, h⟩

/-- Nothing but the layout that is handed out is held anew. -/
theorem held_of_hands {acts : List Act} {act : Act} {x l : SharedLayout}
    (hhands : Hands (doneAll acts) (done (doneAll acts) act) act.receivers x)
    (h : Held (acts ++ [act]) l) : Held acts l ∨ l = x := by
  rcases held_append_singleton h with h | ⟨holder, h⟩
  · exact .inl h
  · rw [hhands holder] at h
    split at h
    · cases h
      exact .inr rfl
    · exact .inl (held_of_held? h)

theorem held_of_heldAsBefore {acts : List Act} {act : Act} {l : SharedLayout}
    (hsame : HeldAsBefore (doneAll acts) (done (doneAll acts) act))
    (h : Held (acts ++ [act]) l) : Held acts l := by
  rcases held_append_singleton h with h | ⟨holder, h⟩
  · exact h
  · rw [hsame holder] at h
    exact held_of_held? h

/-- **What is one layout is one at all times**: two layouts that were ever held have the
same content if they are one. -/
theorem coherent_after (acts : List Act) : Coherent (Held acts) (doneAll acts) := by
  induction acts using List.reverseRecOn with
  | nil =>
    apply coherent_empty.mono _ (Nat.le_refl _) rfl
    rintro a ⟨earlier, h, hearlier, hl⟩
    rw [List.prefix_nil.mp hearlier] at hl
    cases h <;> cases hl
  | append_singleton acts act ih =>
    rw [doneAll_append_singleton]
    cases does_done (doneAll acts) act with
    | nothing hnew hdeed hnext hregistries hheld =>
      exact ih.mono (fun _ => held_of_heldAsBefore hheld) (Nat.le_of_eq hnext.symm) hregistries
    | founds n hact hnext hregistries hheld =>
      exact (ih.founds hnext hregistries).mono (fun _ => held_of_heldAsBefore hheld)
        (Nat.le_refl _) rfl
    | deed n d r hdeed hr hnext hregistries hheld =>
      have hdone := ih.deed hr hnext hregistries
      rcases hheld with ⟨-, hheld⟩ | ⟨kind, strict, rfl, hheld⟩
      · exact hdone.mono (fun _ => held_of_heldAsBefore hheld) (Nat.le_refl _) rfl
      · have hnow : (done (doneAll acts) act).registries.get? n = some (r.layout kind strict).2 :=
          (hregistries n).trans (if_pos rfl)
        have hid : (r.layout kind strict).2.id = r.id := Registry.id_step r (.lookUp kind strict)
        have hgeneration : (r.layout kind strict).2.generation = r.generation :=
          Registry.generation_step r (.lookUp kind strict)
        have hshared : (r.layout kind strict).1
            = ⟨.issued (r.layout kind strict).2.id (r.layout kind strict).2.generation,
                (r.layout kind strict).1.layout⟩ := by
          refine SharedLayout.eq_of_parts ?_ rfl
          rw [Registry.mark_layout, hid, hgeneration]
        rw [hshared] at hheld
        exact (hdone.insert_issued hnow (Registry.handedOut?_layout_self r kind strict)).mono
          (fun _ => held_of_hands hheld) (Nat.le_refl _) rfl
    | gives l hdeed hnew hl hnext hregistries hheld =>
      have hsame := ih.mono (fun _ ha => ha) (Nat.le_of_eq hnext.symm) hregistries
      rcases hl with ⟨kind, strict, rfl⟩ | ⟨h, hl⟩
      · exact (hsame.insert_builtin kind strict).mono (fun _ => held_of_hands hheld)
          (Nat.le_refl _) rfl
      · apply hsame.mono _ (Nat.le_refl _) rfl
        intro a ha
        exact (held_of_hands hheld ha).elim (fun ha => ha) fun ha => ha ▸ held_of_held? hl
    | replaces n attributeName type l hact hl hnext hregistries hheld =>
      exact (ih.insert_changed hnext hregistries _).mono (fun _ => held_of_hands hheld)
        (Nat.le_refl _) rfl

theorem doneAll_append (acts more : List Act) :
    doneAll (acts ++ more) = more.foldl done (doneAll acts) :=
  List.foldl_append

/-- **Who holds a layout keeps it**, unless another is handed to the same holder. -/
theorem held?_doneAll_append {acts more : List Act} {h : Holder}
    (hmore : ∀ act ∈ more, h ∉ act.receivers) :
    (doneAll (acts ++ more)).held? h = (doneAll acts).held? h := by
  induction more using List.reverseRecOn with
  | nil => rw [List.append_nil]
  | append_singleton more act ih =>
    have hact : h ∉ act.receivers := hmore act (by simp)
    rw [← ih fun a ha => hmore a (List.mem_append_left _ ha), ← List.append_assoc,
      doneAll_append_singleton]
    cases does_done (doneAll (acts ++ more)) act with
    | nothing hnew hdeed hnext hregistries hheld => exact hheld h
    | founds n hact hnext hregistries hheld => exact hheld h
    | deed n d r hdeed hr hnext hregistries hheld =>
      rcases hheld with ⟨-, hheld⟩ | ⟨kind, strict, -, hheld⟩
      · exact hheld h
      · exact (hheld h).trans (if_neg hact)
    | gives l hdeed hnew hl hnext hregistries hheld => exact (hheld h).trans (if_neg hact)
    | replaces n attributeName type l hact' hl hnext hregistries hheld =>
      exact (hheld h).trans (if_neg hact)

/-! ## §3. Looking up again -/

/-- What work answers. -/
def answer {α : Type} (w : Work α) (b : Workbench) : Except Complaint α :=
  (perform w b).value.1

/-- How many layouts a registry has handed out since all were dropped. -/
def cachedCount (registry : String) : Work Nat := do
  let r ← named registries registry
  pure r.cachedCount

/-- The act makes the registry of a name hand out new layouts. -/
def Act.renews (registry : String) (act : Act) : Prop :=
  act = .invalidateAll registry ∨ act = .newRegistry registry

/-- The registry of a name has handed out a layout for a pair. -/
def HandsOut (b : Workbench) (registry : String) (kind : Kind) (strict : Bool)
    (l : SharedLayout) : Prop :=
  ∃ r, b.registries.get? registry = some r ∧ r.handedOut? kind strict = some l.layout ∧
    l.mark = .issued r.id r.generation

/-- Only one act drops all layouts of a registry. -/
theorem eq_of_deed_invalidateAll {act : Act} {registry : String}
    (h : act.deed? = some (registry, .invalidateAll)) : act = .invalidateAll registry := by
  cases act with
  | invalidateAll n =>
    cases h
    rfl
  | create name kind strict origin attributes => cases origin <;> cases h
  | _ => cases h

section LookingUp

variable {b : Workbench} {registry : String} {kind : Kind} {strict : Bool}

theorem answer_named_some {α β : Type} {things : Workbench → Text.Named α} {name : String} {x : α}
    (h : (things b).get? name = some x) (f : α → β) :
    answer (named things name >>= fun x => pure (f x)) b = .ok (f x) := by
  show (outcome (named things name >>= fun x => pure (f x)) b).1 = _
  rw [outcome_named_bind_some h]
  rfl

theorem answer_layout_some {r : Registry} (hr : b.registries.get? registry = some r)
    (kind : Kind) (strict : Bool) (into : Option String) :
    answer (layout registry kind strict into) b = .ok (r.layout kind strict).1 := by
  show (outcome (layout registry kind strict into) b).1 = _
  rw [outcome_layout hr]

theorem answer_layout_none (hr : b.registries.get? registry = none) (kind : Kind) (strict : Bool)
    (into : Option String) :
    answer (layout registry kind strict into) b = .error (.noSuchName registry) := by
  show (outcome (layout registry kind strict into) b).1 = _
  unfold layout
  rw [outcome_named_bind_none hr]

/-- What was handed out is the answer to the next look-up. -/
theorem HandsOut.answer {l : SharedLayout} (h : HandsOut b registry kind strict l)
    (into : Option String) : answer (layout registry kind strict into) b = .ok l := by
  obtain ⟨r, hr, hl, hmark⟩ := h
  rw [answer_layout_some hr, Registry.layout_of_handedOut? hl, ← hmark]

/-- What is looked up is handed out from then on. -/
theorem handsOut_lookUp {r : Registry} (hr : b.registries.get? registry = some r) {act : Act}
    (hact : act.deed? = some (registry, .lookUp kind strict)) :
    HandsOut (done b act) registry kind strict (r.layout kind strict).1 := by
  obtain ⟨hregistries, -⟩ := done_deed hact hr
  refine ⟨r.step (.lookUp kind strict), (hregistries registry).trans (if_pos rfl),
    Registry.handedOut?_layout_self r kind strict, ?_⟩
  rw [Registry.mark_layout, Registry.id_step, Registry.generation_step]
  rfl

/-- A layout is handed out until its registry makes new ones. -/
theorem HandsOut.done {l : SharedLayout} (h : HandsOut b registry kind strict l) {act : Act}
    (hact : ¬ act.renews registry) : HandsOut (done b act) registry kind strict l := by
  obtain ⟨r, hr, hl, hmark⟩ := h
  cases does_done b act with
  | nothing hnew hdeed hnext hregistries hheld => exact ⟨r, hregistries ▸ hr, hl, hmark⟩
  | founds n hact' hnext hregistries hheld =>
    have hn : registry ≠ n := fun hn => hact (.inr (hn ▸ hact'))
    exact ⟨r, (hregistries registry).trans ((if_neg hn).trans hr), hl, hmark⟩
  | deed n d r' hdeed hr' hnext hregistries hheld =>
    by_cases hn : registry = n
    · subst hn
      rw [hr] at hr'
      cases hr'
      have hd : d ≠ .invalidateAll := by
        rintro rfl
        exact hact (.inl (eq_of_deed_invalidateAll hdeed))
      refine ⟨r.step d, (hregistries registry).trans (if_pos rfl), Registry.handedOut?_step hl hd, ?_⟩
      rw [hmark, Registry.id_step, Registry.generation_step, if_neg hd]
      rfl
    · exact ⟨r, (hregistries registry).trans ((if_neg hn).trans hr), hl, hmark⟩
  | gives l hdeed hnew hl' hnext hregistries hheld => exact ⟨r, hregistries ▸ hr, hl, hmark⟩
  | replaces n attributeName type l' hact' hl' hnext hregistries hheld =>
    exact ⟨r, hregistries ▸ hr, hl, hmark⟩

/-- A name that no registry has stays without one until there is a new one. -/
theorem registries_done_none (hr : b.registries.get? registry = none) {act : Act}
    (hact : ¬ act.renews registry) : (done b act).registries.get? registry = none := by
  cases does_done b act with
  | nothing hnew hdeed hnext hregistries hheld => rw [hregistries, hr]
  | founds n hact' hnext hregistries hheld =>
    have hn : registry ≠ n := fun hn => hact (.inr (hn ▸ hact'))
    exact (hregistries registry).trans ((if_neg hn).trans hr)
  | deed n d r hdeed hr' hnext hregistries hheld =>
    have hn : registry ≠ n := by
      rintro rfl
      rw [hr] at hr'
      cases hr'
    exact (hregistries registry).trans ((if_neg hn).trans hr)
  | gives l hdeed hnew hl hnext hregistries hheld => rw [hregistries, hr]
  | replaces n attributeName type l hact' hl hnext hregistries hheld => rw [hregistries, hr]

/-- **Two look-ups of a pair come to one layout**, if nothing between them makes the registry
hand out new ones.  The first may be that of an entity that is made. -/
theorem answer_layout_again {acts between : List Act} {act : Act}
    (hact : act.deed? = some (registry, .lookUp kind strict))
    (hbetween : ∀ a ∈ between, ¬ a.renews registry) (into into' : Option String) :
    answer (layout registry kind strict into) (doneAll (acts ++ act :: between))
      = answer (layout registry kind strict into') (doneAll acts) := by
  have hsplit : acts ++ act :: between = (acts ++ [act]) ++ between := by simp
  rw [hsplit, doneAll_append, doneAll_append_singleton]
  cases hr : (doneAll acts).registries.get? registry with
  | some r =>
    -- from the first look-up on the layout is handed out, after each of the acts between
    rw [answer_layout_some hr]
    have hfirst := handsOut_lookUp hr hact
    have hlast : HandsOut (between.foldl done (done (doneAll acts) act)) registry kind strict
        (r.layout kind strict).1 := by
      refine List.foldlRecOn (motive := fun b => HandsOut b registry kind strict _) between done
        hfirst ?_
      intro b hb a ha
      exact hb.done (hbetween a ha)
    exact hlast.answer into
  | none =>
    -- no registry has the name, before as after
    have hnew : ¬ act.renews registry := by
      rintro (rfl | rfl) <;> cases hact
    have hfirst := registries_done_none hr hnew
    have hlast : (between.foldl done (done (doneAll acts) act)).registries.get? registry = none := by
      refine List.foldlRecOn (motive := fun b => b.registries.get? registry = none) between done
        hfirst ?_
      intro b hb a ha
      exact registries_done_none hb (hbetween a ha)
    rw [answer_layout_none hr, answer_layout_none hlast]

end LookingUp

/-! ## §4. Layouts after any acts -/

/-- What holds of registries and of the layouts that they hand out after some acts, and
whatever is done next. -/
structure LayoutsHold (acts : List Act) : Prop where
  missing : ∀ registry, history registry acts = none → ∀ kind strict into,
    answer (layout registry kind strict into) (doneAll acts) = .error (.noSuchName registry)
  /-- A look-up comes to the declarations before the first look-up of its pair since all
  layouts were dropped, or to those of now. -/
  lookedUp : ∀ registry deeds, history registry acts = some deeds → ∃ id, ∀ kind strict into,
    answer (layout registry kind strict into) (doneAll acts)
      = .ok (Registry.sharedAfter id kind strict deeds)
  /-- A layout that is built comes to the declarations of now. -/
  isBuilt : ∀ registry deeds, history registry acts = some deeds → ∀ kind strict,
    answer (built registry kind strict) (doneAll acts)
      = .ok (Layout.build kind strict (Registry.declared kind deeds))
  /-- As many layouts are kept as different pairs were looked up since all were dropped. -/
  counted : ∀ registry deeds, history registry acts = some deeds →
    answer (cachedCount registry) (doneAll acts) = .ok (Registry.lookedUp deeds).dedup.length
  /-- Who looks a layout up gets what a look-up comes to: a caller or a new entity. -/
  handed : ∀ act registry kind strict l, act.deed? = some (registry, .lookUp kind strict) →
    answer (layout registry kind strict none) (doneAll acts) = .ok l →
    ∀ h ∈ act.receivers, (doneAll (acts ++ [act])).held? h = some l
  /-- Two look-ups of a pair come to one layout, if the registry does not drop it. -/
  again : ∀ act registry kind strict between, act.deed? = some (registry, .lookUp kind strict) →
    (∀ a ∈ between, ¬ a.renews registry) → ∀ into into',
    answer (layout registry kind strict into) (doneAll (acts ++ act :: between))
      = answer (layout registry kind strict into') (doneAll acts)
  /-- Who holds a layout keeps it, whatever is done to registries and other entities. -/
  kept : ∀ more h, (∀ act ∈ more, h ∉ act.receivers) →
    (doneAll (acts ++ more)).held? h = (doneAll acts).held? h
  /-- What is one layout for two holders, now and at any later time, has one content. -/
  oneContent : ∀ more h h' l l', (doneAll acts).held? h = some l →
    (doneAll (acts ++ more)).held? h' = some l' → l.sameAs l' = true → l = l'
  /-- An entity that gets another type for a name has a layout that nobody ever held. -/
  ownLayout : ∀ name attributeName type l, (doneAll acts).held? (.entity name) = some l →
    ∃ l', (doneAll (acts ++ [.replaceType name attributeName type])).held? (.entity name) = some l'
      ∧ l'.layout = l.layout.replaceType attributeName type
      ∧ ∀ m, Held acts m → m.sameAs l' = false

/-- What is handed out by a look-up is held by its receivers. -/
theorem held?_lookUp {acts : List Act} {act : Act} {registry : String} {kind : Kind}
    {strict : Bool} {l : SharedLayout} (hact : act.deed? = some (registry, .lookUp kind strict))
    (hl : answer (layout registry kind strict none) (doneAll acts) = .ok l) :
    ∀ h ∈ act.receivers, (doneAll (acts ++ [act])).held? h = some l := by
  intro h hh
  rw [doneAll_append_singleton]
  cases hr : (doneAll acts).registries.get? registry with
  | none =>
    rw [answer_layout_none hr] at hl
    cases hl
  | some r =>
    rw [answer_layout_some hr] at hl
    cases hl
    exact ((done_deed hact hr).2 kind strict rfl h).trans (if_pos hh)

/-- The registry of a name, as its history tells. -/
theorem registry_of_history {acts : List Act} {registry : String} {deeds : List Deed}
    (h : history registry acts = some deeds) :
    ∃ id, (doneAll acts).registries.get? registry = some (Registry.after id deeds) := by
  obtain ⟨id, hid⟩ := registries_after acts registry
  rw [h] at hid
  exact ⟨id, hid⟩

/-- **Layouts after any acts**: what look-ups come to, that two of them come to one layout,
how many are kept, and that nobody's layout changes under the hands of others. -/
theorem layoutsHold (acts : List Act) : LayoutsHold acts where
  missing registry h kind strict into := by
    obtain ⟨id, hid⟩ := registries_after acts registry
    rw [h] at hid
    exact answer_layout_none hid kind strict into
  lookedUp registry deeds h := by
    obtain ⟨id, hr⟩ := registry_of_history h
    refine ⟨id, fun kind strict into => ?_⟩
    rw [answer_layout_some hr, Registry.layout_after]
  isBuilt registry deeds h kind strict := by
    obtain ⟨id, hr⟩ := registry_of_history h
    rw [← Registry.build_after id]
    exact answer_named_some hr fun r => r.build kind strict
  counted registry deeds h := by
    obtain ⟨id, hr⟩ := registry_of_history h
    rw [← Registry.cachedCount_after id]
    exact answer_named_some hr Registry.cachedCount
  handed act registry kind strict l hact hl := held?_lookUp hact hl
  again act registry kind strict between hact hbetween into into' :=
    answer_layout_again hact hbetween into into'
  kept more h hmore := held?_doneAll_append hmore
  oneContent more h h' l l' hl hl' hsame := by
    apply (coherent_after (acts ++ more)).same l l' _ (held_of_held? hl') hsame
    exact ⟨acts, h, List.prefix_append acts more, hl⟩
  ownLayout name attributeName type l hl := by
    refine ⟨l.replaceType (doneAll acts).next attributeName type, ?_, rfl, ?_⟩
    · rw [doneAll_append_singleton]
      exact (hands_replaceType hl attributeName type _).trans (if_pos List.mem_cons_self)
    · intro m hm
      rw [Bool.eq_false_iff]
      intro hsame
      -- its number was not given before
      have hlt := (coherent_after acts).changed m _ hm (SharedLayout.sameAs_iff.mp hsame).1
      exact absurd hlt (Nat.lt_irrefl _)

end Workbench

end ListingMetadata
