/-
  ListingMetadata.Proofs.Workbench.Histories
  ──────────────────────────────────────────
  **REGISTRIES BY THEIR NAMES, AND WHO HOLDS THEIR LAYOUTS.**

  Registries are declared to, looked up in and told to drop their layouts, entities are
  made and copied and get other types for their names, all in any order.  To the
  registry of a name each of these is a deed or nothing: an entity that is made of it
  looks its layout up.  So each registry has a history of its own:

    • `does_done`        — what one act does with registries and layouts,
    • `registries_after` — the registry of a name follows its history.
-/
import ListingMetadata.Proofs.Entity.Attributes
import ListingMetadata.Proofs.Layout.History
import ListingMetadata.Proofs.Workbench.Tasks
import Mathlib.Data.List.Induction

namespace ListingMetadata.Workbench

open Registry (Deed)

/-! ## §1. Acts -/

/-- What is done with registries, and with entities as far as it concerns layouts. -/
inductive Act where
  | newRegistry (registry : String)
  /-- A layout looked up by a caller, who keeps it if a name is given. -/
  | lookUp (registry : String) (kind : Kind) (strict : Bool) (into : Option String)
  | build (registry : String) (kind : Kind) (strict : Bool)
  | update (registry : String) (kind : Kind) (column : Column)
  | add (registry : String) (kind : Kind) (column : Column)
  | invalidateAll (registry : String)
  | create (name : String) (kind : Kind) (strict : Bool) (origin : Origin)
      (attributes : List (String × String))
  | replaceType (name attributeName : String) (type : ValueType)
  | copy (name into : String)

/-- A layout built by a registry that does not hand it out. -/
def built (registry : String) (kind : Kind) (strict : Bool) : Work Layout := do
  let r ← named registries registry
  pure (r.build kind strict)

/-- The workbench after an act. -/
def done (b : Workbench) : Act → Workbench
  | .newRegistry registry => step b (.newRegistry registry)
  | .lookUp registry kind strict into => step b (.layout registry kind strict into)
  | .build registry kind strict => after (built registry kind strict) b
  | .update registry kind column =>
    step b (.changeRegistry registry fun r => r.update kind column)
  | .add registry kind column => step b (.changeRegistry registry fun r => r.add kind column)
  | .invalidateAll registry => step b (.changeRegistry registry Registry.invalidateAll)
  | .create name kind strict origin attributes =>
    step b (.create name kind strict origin attributes)
  | .replaceType name attributeName type => step b (.replaceType name attributeName type)
  | .copy name into => step b (.copy name into)

/-- The workbench after some acts, from one with nothing on it. -/
def doneAll (acts : List Act) : Workbench :=
  acts.foldl done empty

theorem doneAll_append_singleton (acts : List Act) (act : Act) :
    doneAll (acts ++ [act]) = done (doneAll acts) act := by
  unfold doneAll
  rw [List.foldl_append]
  rfl

/-- What an act is to a registry, and to which. -/
def Act.deed? : Act → Option (String × Deed)
  | .lookUp registry kind strict _ => some (registry, .lookUp kind strict)
  | .build registry kind strict => some (registry, .build kind strict)
  | .update registry kind column => some (registry, .update kind column)
  | .add registry kind column => some (registry, .add kind column)
  | .invalidateAll registry => some (registry, .invalidateAll)
  | .create _ kind strict (.registry registry) _ => some (registry, .lookUp kind strict)
  | _ => none

/-! ## §2. Holders -/

/-- Who holds a layout: a caller under a name, or the entity of a name. -/
inductive Holder where
  | caller (name : String)
  | entity (name : String)
deriving DecidableEq

/-- The layout that somebody holds. -/
def held? (b : Workbench) : Holder → Option SharedLayout
  | .caller name => b.layouts.get? name
  | .entity name => (b.entities.get? name).map fun e => e.head.layout

/-- Who gets a layout by an act. -/
def Act.receivers : Act → List Holder
  | .lookUp _ _ _ (some into) => [.caller into]
  | .create name _ _ _ _ => [.entity name]
  | .replaceType name _ _ => [.entity name]
  | .copy _ into => [.entity into]
  | _ => []

/-- The receivers get the layout, and all others hold what they held. -/
def Hands (b b' : Workbench) (receivers : List Holder) (l : SharedLayout) : Prop :=
  ∀ h, b'.held? h = if h ∈ receivers then some l else b.held? h

/-- All hold what they held. -/
def HeldAsBefore (b b' : Workbench) : Prop :=
  ∀ h, b'.held? h = b.held? h

/-- One registry is another now, and all others stay. -/
def Registers (b b' : Workbench) (registry : String) (r : Registry) : Prop :=
  ∀ n, b'.registries.get? n = if n = registry then some r else b.registries.get? n

/-- **What an act does with registries and layouts.** -/
inductive Does (b b' : Workbench) (act : Act) : Prop where
  /-- What it needs is not there. -/
  | nothing (hnew : ∀ n, act ≠ .newRegistry n)
      (hdeed : ∀ n d, act.deed? = some (n, d) → b.registries.get? n = none)
      (hnext : b'.next = b.next) (hregistries : b'.registries = b.registries)
      (hheld : HeldAsBefore b b')
  | founds (n : String) (hact : act = .newRegistry n) (hnext : b'.next = b.next + 1)
      (hregistries : Registers b b' n (Registry.fresh b.next)) (hheld : HeldAsBefore b b')
  /-- A registry does a deed, and what is looked up is handed to the receivers. -/
  | deed (n : String) (d : Deed) (r : Registry) (hdeed : act.deed? = some (n, d))
      (hr : b.registries.get? n = some r) (hnext : b'.next = b.next)
      (hregistries : Registers b b' n (r.step d))
      (hheld : (∀ kind strict, d ≠ .lookUp kind strict) ∧ HeldAsBefore b b' ∨
        ∃ kind strict, d = .lookUp kind strict ∧
          Hands b b' act.receivers (r.layout kind strict).1)
  /-- A layout of the built-in columns or one that is held is handed to the receivers. -/
  | gives (l : SharedLayout) (hdeed : act.deed? = none) (hnew : ∀ n, act ≠ .newRegistry n)
      (hl : (∃ kind strict, l = SharedLayout.builtin kind strict) ∨ ∃ h, b.held? h = some l)
      (hnext : b'.next = b.next) (hregistries : b'.registries = b.registries)
      (hheld : Hands b b' act.receivers l)
  /-- An entity gets a layout of its own. -/
  | replaces (n attributeName : String) (type : ValueType) (l : SharedLayout)
      (hact : act = .replaceType n attributeName type) (hl : b.held? (.entity n) = some l)
      (hnext : b'.next = b.next + 1) (hregistries : b'.registries = b.registries)
      (hheld : Hands b b' act.receivers (l.replaceType b.next attributeName type))

/-! ## §3. What acts do -/

section Outcomes

variable {b : Workbench}

theorem hands_entity {b' : Workbench} {name : String} {e : Entity} {l : SharedLayout}
    (hlayouts : b'.layouts = b.layouts) (hentities : b'.entities = b.entities.put name e)
    (hl : e.head.layout = l) : Hands b b' [.entity name] l := by
  intro h
  rw [← hl]
  cases h with
  | caller n =>
    rw [if_neg (by simp)]
    show b'.layouts.get? n = _
    rw [hlayouts]
    rfl
  | entity n =>
    show (b'.entities.get? n).map _ = _
    rw [hentities]
    by_cases hn : n = name
    · subst hn
      rw [Text.Named.get?_put_self, if_pos (by simp)]
      rfl
    · rw [Text.Named.get?_put_of_ne _ _ hn, if_neg (by simpa using hn)]
      rfl

theorem hands_caller {b' : Workbench} {name : String} {l : SharedLayout}
    (hlayouts : b'.layouts = b.layouts.put name l) (hentities : b'.entities = b.entities) :
    Hands b b' [.caller name] l := by
  intro h
  cases h with
  | entity n =>
    rw [if_neg (by simp)]
    show (b'.entities.get? n).map _ = _
    rw [hentities]
    rfl
  | caller n =>
    show b'.layouts.get? n = _
    rw [hlayouts]
    by_cases hn : n = name
    · subst hn
      rw [Text.Named.get?_put_self, if_pos (by simp)]
    · rw [Text.Named.get?_put_of_ne _ _ hn, if_neg (by simpa using hn)]
      rfl

theorem registers_put {b' : Workbench} {registry : String} {r : Registry}
    (h : b'.registries = b.registries.put registry r) : Registers b b' registry r := by
  intro n
  rw [h]
  by_cases hn : n = registry
  · rw [if_pos hn, hn, Text.Named.get?_put_self]
  · rw [if_neg hn, Text.Named.get?_put_of_ne _ _ hn]

theorem held?_after {α : Type} (w : Work α) (b : Workbench) (h : Holder) :
    (after w b).held? h = (outcome w b).2.held? h := by
  cases h <;> rfl

/-- The requests of an act have no part in what it does with layouts. -/
theorem does_after {α : Type} {w : Work α} {act : Act} (h : Does b (outcome w b).2 act) :
    Does b (after w b) act := by
  have hgets : ∀ {l}, Hands b (outcome w b).2 act.receivers l → Hands b (after w b) act.receivers l :=
    fun hl h => (held?_after w b h).trans (hl h)
  have hsame : HeldAsBefore b (outcome w b).2 → HeldAsBefore b (after w b) :=
    fun hs h => (held?_after w b h).trans (hs h)
  cases h with
  | nothing hnew hdeed hnext hregistries hheld =>
    exact .nothing hnew hdeed hnext hregistries (hsame hheld)
  | founds n hact hnext hregistries hheld =>
    exact .founds n hact hnext hregistries (hsame hheld)
  | deed n d r hdeed hr hnext hregistries hheld =>
    refine .deed n d r hdeed hr hnext hregistries (hheld.imp (And.imp id hsame) ?_)
    rintro ⟨kind, strict, hd, hl⟩
    exact ⟨kind, strict, hd, hgets hl⟩
  | gives l hdeed hnew hl hnext hregistries hheld =>
    exact .gives l hdeed hnew hl hnext hregistries (hgets hheld)
  | replaces n attributeName type l hact hl hnext hregistries hheld =>
    exact .replaces n attributeName type l hact hl hnext hregistries (hgets hheld)

/-- Work that needs a registry which is not there. -/
theorem does_nothing {α β : Type} {things : Workbench → Text.Named α} {name : String}
    {f : α → Work β} {act : Act} (hnone : (things b).get? name = none)
    (hnew : ∀ n, act ≠ .newRegistry n)
    (hdeed : ∀ n d, act.deed? = some (n, d) → b.registries.get? n = none) :
    Does b (after (named things name >>= f) b) act := by
  apply does_after
  rw [outcome_named_bind_none hnone]
  exact .nothing hnew hdeed rfl rfl fun _ => rfl

/-- A deed that hands out nothing. -/
theorem does_changeRegistry {registry : String} {d : Deed} {f : Registry → Registry} {act : Act}
    (hdeed : act.deed? = some (registry, d)) (hnew : ∀ n, act ≠ .newRegistry n)
    (hd : ∀ kind strict, d ≠ .lookUp kind strict) (hf : ∀ r : Registry, r.step d = f r) :
    Does b (after (changeRegistry registry f) b) act := by
  cases hr : b.registries.get? registry with
  | none =>
    apply does_nothing hr hnew
    intro n d' h
    rw [hdeed] at h
    cases h
    exact hr
  | some r =>
    have hout : outcome (changeRegistry registry f) b
        = (.ok (f r), { b with registries := b.registries.put registry (f r) }) :=
      outcome_named_bind_some hr _
    apply does_after
    rw [hout]
    have hheld : HeldAsBefore b { b with registries := b.registries.put registry (f r) } :=
      fun h => by cases h <;> rfl
    exact .deed registry d r hdeed hr rfl (hf r ▸ registers_put rfl) (.inl ⟨hd, hheld⟩)

theorem does_build (registry : String) (kind : Kind) (strict : Bool) :
    Does b (done b (.build registry kind strict)) (.build registry kind strict) := by
  cases hr : b.registries.get? registry with
  | none =>
    apply does_nothing hr (by simp)
    intro n d h
    cases h
    exact hr
  | some r =>
    have hsame : Registers b b registry r := by
      intro n
      by_cases hn : n = registry
      · rw [if_pos hn, hn, hr]
      · rw [if_neg hn]
    have hout : outcome (built registry kind strict) b = (.ok (r.build kind strict), b) :=
      outcome_named_bind_some hr _
    apply does_after
    rw [hout]
    exact .deed registry (.build kind strict) r rfl hr rfl hsame (.inl ⟨by simp, fun _ => rfl⟩)

theorem outcome_layout {registry : String} {r : Registry}
    (hr : b.registries.get? registry = some r) (kind : Kind) (strict : Bool)
    (into : Option String) :
    outcome (layout registry kind strict into) b
      = (.ok (r.layout kind strict).1,
          { b with
            registries := b.registries.put registry (r.layout kind strict).2
            layouts := match into with
              | some name => b.layouts.put name (r.layout kind strict).1
              | none => b.layouts }) := by
  unfold layout
  rw [outcome_named_bind_some hr]
  cases into <;> rfl

theorem does_lookUp (registry : String) (kind : Kind) (strict : Bool) (into : Option String) :
    Does b (done b (.lookUp registry kind strict into)) (.lookUp registry kind strict into) := by
  cases hr : b.registries.get? registry with
  | none =>
    apply does_nothing hr (by simp)
    intro n d h
    cases h
    exact hr
  | some r =>
    apply does_after
    rw [outcome_layout hr]
    refine .deed registry (.lookUp kind strict) r rfl hr rfl (registers_put rfl) (.inr ?_)
    refine ⟨kind, strict, rfl, ?_⟩
    cases into with
    | none => exact fun h => by cases h <;> rfl
    | some name => exact hands_caller rfl rfl

/-- A new entity has the layout that it is made with. -/
theorem layout_setAll (e : Entity) (attributes : List (String × String)) :
    (e.setAll attributes).value.head.layout = e.head.layout :=
  Head.layout_setAll e.head attributes

/-- An entity is made, gets its attributes and is put under its name. -/
theorem outcome_create {kind : Kind} {strict : Bool} {origin : Origin} {e : Entity}
    {b' : Workbench} (he : outcome (freshEntity kind strict origin) b = (.ok e, b'))
    (name : String) (attributes : List (String × String)) :
    (outcome (create name kind strict origin attributes) b).2
      = { b' with entities := b'.entities.put name (e.setAll attributes).value } := by
  unfold create
  rw [outcome_bind, he]
  rfl

/-- An entity that is made of the built-in columns. -/
theorem does_create_builtin {kind : Kind} {strict : Bool} {origin : Origin} {e : Entity}
    (hdeed : ∀ name attributes, (Act.create name kind strict origin attributes).deed? = none)
    (he : outcome (freshEntity kind strict origin) b = (.ok e, b))
    (hlayout : e.head.layout = SharedLayout.builtin kind strict) (name : String)
    (attributes : List (String × String)) :
    Does b (done b (.create name kind strict origin attributes))
      (.create name kind strict origin attributes) := by
  apply does_after
  rw [outcome_create he]
  refine .gives (SharedLayout.builtin kind strict) (hdeed _ _) (by simp) (.inl ⟨kind, strict, rfl⟩)
    rfl rfl ?_
  exact hands_entity rfl rfl ((layout_setAll e attributes).trans hlayout)

theorem does_create (name : String) (kind : Kind) (strict : Bool) (origin : Origin)
    (attributes : List (String × String)) :
    Does b (done b (.create name kind strict origin attributes))
      (.create name kind strict origin attributes) := by
  cases origin with
  | plain => exact does_create_builtin (fun _ _ => rfl) rfl rfl name attributes
  | source source =>
    cases hs : b.sources.get? source with
    | none =>
      have hfails : outcome (freshEntity kind strict (.source source)) b
          = (.error (.noSuchName source), b) := outcome_named_bind_none hs _
      apply does_after
      unfold create
      rw [outcome_bind, hfails]
      exact .nothing (by simp) (fun n d h => by cases h) rfl rfl fun _ => rfl
    | some number =>
      exact does_create_builtin (fun _ _ => rfl) (outcome_named_bind_some hs _) rfl name attributes
  | registry registry =>
    cases hr : b.registries.get? registry with
    | none =>
      have hfails : outcome (freshEntity kind strict (.registry registry)) b
          = (.error (.noSuchName registry), b) := outcome_named_bind_none hr _
      apply does_after
      unfold create
      rw [outcome_bind, hfails]
      refine .nothing (by simp) (fun n d h => ?_) rfl rfl fun _ => rfl
      cases h
      exact hr
    | some r =>
      have hmade : outcome (freshEntity kind strict (.registry registry)) b
          = (.ok (Entity.fresh kind strict (r.layout kind strict).1),
              { b with registries := b.registries.put registry (r.layout kind strict).2 }) :=
        outcome_named_bind_some hr _
      apply does_after
      rw [outcome_create hmade]
      refine .deed registry (.lookUp kind strict) r rfl hr rfl (registers_put rfl) (.inr ?_)
      refine ⟨kind, strict, rfl, ?_⟩
      exact hands_entity rfl rfl (layout_setAll _ attributes)

theorem outcome_replaceType {name : String} {e : Entity} (he : b.entities.get? name = some e)
    (attributeName : String) (type : ValueType) :
    (outcome (replaceType name attributeName type) b).2
      = { b with
          next := b.next + 1
          entities := b.entities.put name (e.replaceType b.next attributeName type) } := by
  unfold replaceType entity
  rw [outcome_named_bind_some he]
  rfl

/-- An entity that is there gets a layout of its own. -/
theorem hands_replaceType {name : String} {l : SharedLayout}
    (hl : b.held? (.entity name) = some l) (attributeName : String) (type : ValueType) :
    Hands b (done b (.replaceType name attributeName type)) [.entity name]
      (l.replaceType b.next attributeName type) := by
  obtain ⟨e, he, rfl⟩ := Option.map_eq_some_iff.mp hl
  have hhands : Hands b (outcome (replaceType name attributeName type) b).2 [.entity name]
      (e.head.layout.replaceType b.next attributeName type) := by
    rw [outcome_replaceType he]
    exact hands_entity rfl rfl rfl
  exact fun h => (held?_after _ b h).trans (hhands h)

theorem does_replaceType (name attributeName : String) (type : ValueType) :
    Does b (done b (.replaceType name attributeName type))
      (.replaceType name attributeName type) := by
  cases he : b.entities.get? name with
  | none => exact does_nothing he (by simp) fun n d h => by cases h
  | some e =>
    have hl : b.held? (.entity name) = some e.head.layout := by
      show (b.entities.get? name).map _ = _
      rw [he]
      rfl
    have hnext : (outcome (replaceType name attributeName type) b).2.next = b.next + 1 := by
      rw [outcome_replaceType he]
    have hregistries : (outcome (replaceType name attributeName type) b).2.registries
        = b.registries := by
      rw [outcome_replaceType he]
    exact .replaces name attributeName type e.head.layout rfl hl hnext hregistries
      (hands_replaceType hl attributeName type)

theorem does_copy (name into : String) :
    Does b (done b (.copy name into)) (.copy name into) := by
  cases he : b.entities.get? name with
  | none => exact does_nothing he (by simp) fun n d h => by cases h
  | some e =>
    have hout : (outcome (copy name into) b).2
        = { b with entities := b.entities.put into e } := by
      unfold copy entity
      rw [outcome_named_bind_some he]
      rfl
    apply does_after
    rw [hout]
    refine .gives e.head.layout rfl (by simp) (.inr ⟨.entity name, ?_⟩) rfl rfl
      (hands_entity rfl rfl rfl)
    show (b.entities.get? name).map _ = _
    rw [he]
    rfl

end Outcomes

/-- **What one act does**, whatever was done before. -/
theorem does_done (b : Workbench) (act : Act) : Does b (done b act) act := by
  cases act with
  | newRegistry registry =>
    have hheld : HeldAsBefore b (outcome (newRegistry registry) b).2 := fun h => by cases h <;> rfl
    exact does_after (.founds registry rfl rfl (registers_put rfl) hheld)
  | lookUp registry kind strict into => exact does_lookUp registry kind strict into
  | build registry kind strict => exact does_build registry kind strict
  | update registry kind column => exact does_changeRegistry rfl (by simp) (by simp) fun _ => rfl
  | add registry kind column => exact does_changeRegistry rfl (by simp) (by simp) fun _ => rfl
  | invalidateAll registry => exact does_changeRegistry rfl (by simp) (by simp) fun _ => rfl
  | create name kind strict origin attributes =>
    exact does_create name kind strict origin attributes
  | replaceType name attributeName type => exact does_replaceType name attributeName type
  | copy name into => exact does_copy name into

/-- A deed with a registry that is there is done, and what is looked up is handed on. -/
theorem done_deed {b : Workbench} {act : Act} {n : String} {d : Deed} {r : Registry}
    (hact : act.deed? = some (n, d)) (hr : b.registries.get? n = some r) :
    Registers b (done b act) n (r.step d) ∧
      ∀ kind strict, d = .lookUp kind strict →
        Hands b (done b act) act.receivers (r.layout kind strict).1 := by
  cases does_done b act with
  | nothing hnew hdeed hnext hregistries hheld =>
    have hnone := hdeed n d hact
    rw [hr] at hnone
    cases hnone
  | founds m hact' hnext hregistries hheld =>
    rw [hact'] at hact
    cases hact
  | deed m d' r' hdeed hr' hnext hregistries hheld =>
    rw [hact] at hdeed
    cases hdeed
    rw [hr] at hr'
    cases hr'
    refine ⟨hregistries, ?_⟩
    rintro kind strict rfl
    rcases hheld with ⟨hd, -⟩ | ⟨k, s, hd, hheld⟩
    · exact absurd rfl (hd kind strict)
    · cases hd
      exact hheld
  | gives l hdeed hnew hl hnext hregistries hheld =>
    rw [hact] at hdeed
    cases hdeed
  | replaces m attributeName type l hact' hl hnext hregistries hheld =>
    rw [hact'] at hact
    cases hact

/-! ## §4. Histories -/

/-- The history of the registry of a name after an act. -/
def remembered (registry : String) (past : Option (List Deed)) (act : Act) :
    Option (List Deed) :=
  match act, act.deed? with
  | .newRegistry n, _ => if n = registry then some [] else past
  | _, some (n, d) => if n = registry then past.map (d :: ·) else past
  | _, none => past

/-- What was done with the registry of a name since it was new, the latest deed first;
nothing if no registry has the name. -/
def history (registry : String) (acts : List Act) : Option (List Deed) :=
  acts.foldl (remembered registry) none

theorem history_append_singleton (registry : String) (acts : List Act) (act : Act) :
    history registry (acts ++ [act]) = remembered registry (history registry acts) act := by
  unfold history
  rw [List.foldl_append]
  rfl

theorem remembered_newRegistry (registry n : String) (past : Option (List Deed)) :
    remembered registry past (.newRegistry n) = if n = registry then some [] else past :=
  rfl

theorem remembered_of_deed {registry n : String} {past : Option (List Deed)} {act : Act} {d : Deed}
    (h : act.deed? = some (n, d)) :
    remembered registry past act = if n = registry then past.map (d :: ·) else past := by
  cases act with
  | newRegistry m => cases h
  | _ => simp only [remembered, h]

theorem remembered_of_none {registry : String} {past : Option (List Deed)} {act : Act}
    (hnew : ∀ n, act ≠ .newRegistry n) (h : act.deed? = none) :
    remembered registry past act = past := by
  cases act with
  | newRegistry m => exact absurd rfl (hnew m)
  | _ => simp only [remembered, h]

/-- **The registry of a name follows its history.** -/
theorem registries_after (acts : List Act) (registry : String) :
    ∃ id, (doneAll acts).registries.get? registry
      = (history registry acts).map (Registry.after id) := by
  -- on the acts, the last one first
  induction acts using List.reverseRecOn with
  | nil => exact ⟨0, rfl⟩
  | append_singleton acts act ih =>
    obtain ⟨id, ih⟩ := ih
    rw [doneAll_append_singleton, history_append_singleton]
    cases does_done (doneAll acts) act with
    | nothing hnew hdeed hnext hregistries hheld =>
      refine ⟨id, ?_⟩
      rw [hregistries, ih]
      cases hd : act.deed? with
      | none => rw [remembered_of_none hnew hd]
      | some p =>
        obtain ⟨n, d⟩ := p
        rw [remembered_of_deed hd]
        split
        · -- a registry that is not there has no history to go on
          rename_i hn
          have hnone := hdeed n d hd
          rw [hn, ih, Option.map_eq_none_iff] at hnone
          rw [hnone]
          rfl
        · rfl
    | founds n hact hnext hregistries hheld =>
      refine ⟨if n = registry then (doneAll acts).next else id, ?_⟩
      rw [hregistries registry, hact, remembered_newRegistry]
      by_cases hn : n = registry
      · rw [if_pos hn.symm, if_pos hn, if_pos hn]
        rfl
      · rw [if_neg (Ne.symm hn), if_neg hn, if_neg hn, ih]
    | deed n d r hdeed hr hnext hregistries hheld =>
      refine ⟨id, ?_⟩
      rw [remembered_of_deed hdeed, hregistries registry]
      by_cases hn : n = registry
      · rw [hn, ih] at hr
        obtain ⟨deeds, hdeeds, hafter⟩ := Option.map_eq_some_iff.mp hr
        rw [if_pos hn.symm, if_pos hn, hdeeds, ← hafter]
        rfl
      · rw [if_neg (Ne.symm hn), if_neg hn, ih]
    | gives l hdeed hnew hl hnext hregistries hheld =>
      refine ⟨id, ?_⟩
      rw [hregistries, ih, remembered_of_none hnew hdeed]
    | replaces n attributeName type l hact hl hnext hregistries hheld =>
      refine ⟨id, ?_⟩
      rw [hregistries, ih, hact, remembered_of_none (by simp) rfl]

end ListingMetadata.Workbench
