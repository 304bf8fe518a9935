/-
  ListingMetadata.Proofs.Workbench.Tasks
  ──────────────────────────────────────
  **TASKS, ONE AFTER THE OTHER.**

  A task is one piece of work that changes a workbench.  A run does some tasks
  in turn, from a workbench with nothing on it.  Tasks that edit attributes
  change the head of one named entity; all others make trees by steps that a
  lasting property survives:

    • `all_step`         — a task that edits no attribute, and all entities,
    • `edited_step`      — a task that does, and the entity that it names,
    • `all_run`          — a whole run, and all entities.
-/
import ListingMetadata.Proofs.Layout.History
import ListingMetadata.Proofs.Workbench.Keeping
import Mathlib.Data.List.Induction

namespace ListingMetadata.Workbench

/-! ## §1. Tasks and runs -/

/-- Work that changes a workbench. -/
inductive Task where
  | create (name : String) (kind : Kind) (strict : Bool) (origin : Origin)
      (attributes : List (String × String))
  | load (name text : String) (strict : Bool)
  | setAttribute (name attributeName text : String)
  | setAttributeWith (name attributeName text : String) (strict : Bool)
  | unsetAttribute (name attributeName : String)
  | replaceType (name attributeName : String) (type : ValueType)
  | copy (name into : String)
  | add (name child : String) (move : Bool)
  | remove (name : String) (kind : Kind) (id : String) (into : Option String)
  | children (name : String) (kind : Kind)
  | child (name : String) (kind : Kind) (id : String) (into : Option String)
  | materialize (name : String)
  | bind (name : String) (source : Option String)
  | newStore (name : String)
  | newShelf (name : String)
  | insert (name path : String) (entities : List String)
  | place (name : String) (kind : Kind) (path : String) (entities : List String)
  | failOn (name : String) (kind : Kind) (path : String)
  | bindDocument (name into text : String) (strict : Bool)
  | fetch (name : String) (kind : Kind) (path : String)
  | dropSource (name : String)
  | newRegistry (name : String)
  | changeRegistry (name : String) (f : Registry → Registry)
  | layout (name : String) (kind : Kind) (strict : Bool) (into : Option String)

/-- The workbench after work. -/
def after {α : Type} (w : Work α) (b : Workbench) : Workbench :=
  (perform w b).value.2

/-- The workbench after a task. -/
def step (b : Workbench) : Task → Workbench
  | .create name kind strict origin attributes =>
    after (create name kind strict origin attributes) b
  | .load name text strict => after (load name text strict) b
  | .setAttribute name attributeName text => after (setAttribute name attributeName text) b
  | .setAttributeWith name attributeName text strict =>
    after (setAttributeWith name attributeName text strict) b
  | .unsetAttribute name attributeName => after (unsetAttribute name attributeName) b
  | .replaceType name attributeName type => after (replaceType name attributeName type) b
  | .copy name into => after (copy name into) b
  | .add name child move => after (add name child move) b
  | .remove name kind id into => after (remove name kind id into) b
  | .children name kind => after (children name kind) b
  | .child name kind id into => after (child name kind id into) b
  | .materialize name => after (materialize name) b
  | .bind name source => after (bind name source) b
  | .newStore name => after (newSource name Source.emptyStore) b
  | .newShelf name => after (newSource name Source.emptyShelf) b
  | .insert name path entities => after (insert name path entities) b
  | .place name kind path entities => after (place name kind path entities) b
  | .failOn name kind path => after (failOn name kind path) b
  | .bindDocument name into text strict => after (bindDocument name into text strict) b
  | .fetch name kind path => after (fetch name kind path) b
  | .dropSource name => after (dropSource name) b
  | .newRegistry name => after (newRegistry name) b
  | .changeRegistry name f => after (changeRegistry name f) b
  | .layout name kind strict into => after (layout name kind strict into) b

/-- The workbench after some tasks, from one with nothing on it. -/
def run (ts : List Task) : Workbench :=
  ts.foldl step empty

theorem run_append_singleton (ts : List Task) (t : Task) : run (ts ++ [t]) = step (run ts) t := by
  unfold run
  rw [List.foldl_append]
  rfl

theorem run_append_pair (ts : List Task) (t u : Task) :
    run (ts ++ [t, u]) = step (step (run ts) t) u := by
  unfold run
  rw [List.foldl_append]
  rfl

/-- The name of the entity whose attributes a task edits. -/
def Task.edits? : Task → Option String
  | .setAttribute name _ _ => some name
  | .setAttributeWith name _ _ _ => some name
  | .unsetAttribute name _ => some name
  | .replaceType name _ _ => some name
  | _ => none

/-! ## §2. Tasks that edit no attribute -/

section Keeping

variable {I : Entity → Prop}

theorem Keeps.after {α : Type} {P : α → Prop} {w : Work α} (h : Keeps I P w) {b : Workbench}
    (hb : All I b) : All I (after w b) :=
  ⟨(h b hb).1.named, (h b hb).1.served⟩

/-- A legible entity without children of which nothing is fetched. -/
def Bare (e : Entity) : Prop :=
  ∃ h : Head, h.slots = freshSlots h.kind ∧ h.Legible ∧ e = Entity.mk h []

theorem keeps_freshEntity (kind : Kind) (strict : Bool) (origin : Origin) :
    Keeps I Bare (freshEntity kind strict origin) := by
  have hbare : ∀ layout : SharedLayout, layout.layout.strict = strict →
      Bare (Entity.fresh kind strict layout) :=
    fun _ hmode => ⟨_, rfl, Head.legible_fresh kind hmode, rfl⟩
  cases origin with
  | plain => exact keeps_pure (hbare _ rfl)
  | registry name =>
    refine (keeps_anyNamed registries name).bind fun r _ => ?_
    exact (keeps_putRegistry name _).bind fun _ _ =>
      keeps_pure (hbare _ (r.strict_layout kind strict))
  | source name =>
    refine (keeps_anyNamed sources name).bind fun number _ => keeps_pure ?_
    have hlegible : (Head.fresh kind strict (SharedLayout.builtin kind strict)).Legible :=
      Head.legible_fresh kind rfl
    exact ⟨_, rfl, hlegible.placed none (some number), rfl⟩

variable (hI : Entity.Lasting I)

include hI

theorem keeps_create (name : String) (kind : Kind) (strict : Bool) (origin : Origin)
    (attributes : List (String × String)) :
    Keeps I I (create name kind strict origin attributes) := by
  refine (keeps_freshEntity kind strict origin).bind fun e he => ?_
  obtain ⟨h, hslots, hlegible, rfl⟩ := he
  have hset : I ((Entity.mk h []).setAll attributes).value := by
    have hframe := Head.frame_setAll h attributes
    apply hI.bare _ _ (Head.legible_setAll hlegible attributes)
    show (h.setAll attributes).value.slots = freshSlots (h.setAll attributes).value.kind
    rw [Head.slots_eq_of_frame hframe, Head.kind_eq_of_frame hframe]
    exact hslots
  exact (keeps_lift (P := I) hset).bind fun e he =>
    (keeps_keep he name).bind fun _ _ => keeps_pure he

theorem keeps_load (name text : String) (strict : Bool) : Keeps I I (load name text strict) :=
  (keeps_orFail (P := fun _ => True) fun _ _ => trivial).bind fun d _ =>
    (keeps_lift (P := I) (hI.build strict d)).bind fun _ he =>
      (keeps_keep he name).bind fun _ _ => keeps_pure he

theorem keeps_add (name child : String) (move : Bool) :
    Keeps I (fun _ => True) (add name child move) := by
  refine (keeps_entity child).bind fun c hc => ?_
  -- the same work follows, whether the child was moved or copied
  have hrest : Keeps I (fun _ => True) (do
      let e ← entity name
      let e' ← orFail (e.add c)
      keep name e'
      pure (e'.resolved c.kind)) := by
    refine (keeps_entity name).bind fun e he => ?_
    have hadd : ∀ e', e.add c = .ok e' → I e' := by
      intro e' h
      have hoffered := hI.offered he hc
      unfold Entity.offered at hoffered
      rw [h] at hoffered
      exact hoffered
    exact (keeps_orFail hadd).bind fun e' he' => (keeps_keep he' name).bind fun _ _ =>
      keeps_pure trivial
  cases move with
  | true => exact (keeps_modify fun b hb => hb.drop child).bind fun _ _ => hrest
  | false => exact hrest

theorem keeps_remove (name : String) (kind : Kind) (id : String) (into : Option String) :
    Keeps I (fun _ => True) (remove name kind id into) := by
  refine (keeps_entity name).bind fun e he => ?_
  have hremoved : ∀ c, (e.remove kind id).1 = some c → I c := by
    intro c h
    unfold Entity.remove at h
    cases hr : e.resolvedChild? kind id with
    | none => rw [hr] at h; cases h
    | some d =>
      rw [hr] at h
      cases h
      exact hI.resolved e kind _ he (List.mem_of_find?_eq_some hr)
  exact (keeps_keep (hI.remove e kind id he) name).bind fun _ _ =>
    (keeps_keepIn hremoved into).bind fun _ _ => keeps_pure trivial

theorem keeps_children (name : String) (kind : Kind) :
    Keeps I (fun _ => True) (children name kind) := by
  refine (keeps_entity name).bind fun e he => keeps_get.bind fun b hb => ?_
  refine (keeps_lift (P := fun r => I r.2) (hI.resolve hb.served he kind)).bind fun r hr => ?_
  exact (keeps_keep hr name).bind fun _ _ => keeps_pure trivial

theorem keeps_child (name : String) (kind : Kind) (id : String) (into : Option String) :
    Keeps I (fun _ => True) (child name kind id into) := by
  refine (keeps_entity name).bind fun e he => keeps_get.bind fun b hb => ?_
  have hafter := hI.resolve hb.served he kind
  have hfound : ∀ c, (e.getChild b.alive kind id).value.1 = some c → I c :=
    fun c h => hI.resolved _ kind c hafter (List.mem_of_find?_eq_some h)
  refine (keeps_lift (P := fun r => (∀ c, r.1 = some c → I c) ∧ I r.2)
    ⟨hfound, hafter⟩).bind fun r hr => ?_
  exact (keeps_keep hr.2 name).bind fun _ _ =>
    (keeps_keepIn hr.1 into).bind fun _ _ => keeps_pure trivial

theorem keeps_materialize (name : String) : Keeps I I (materialize name) :=
  keeps_get.bind fun _ hb => keeps_change (fun _ he => hI.materializeTo hb.served _ he) name

theorem keeps_bind (name : String) (source : Option String) : Keeps I I (bind name source) := by
  have hchange : ∀ number, Keeps I I (change name fun e => pure (e.setSource number)) :=
    fun number => keeps_change (fun e he => hI.placed e none number he) name
  cases source with
  | none => exact hchange none
  | some s =>
    exact (keeps_anyNamed sources s).bind fun number _ => hchange (some number)

theorem keeps_bindDocument (name into text : String) (strict : Bool) :
    Keeps I I (bindDocument name into text strict) := by
  refine (keeps_orFail (P := fun _ => True) fun _ _ => trivial).bind fun d _ =>
    keeps_freshNumber.bind fun number _ => ?_
  have hroot : I (d.bind number strict).value.2 := by
    show I ((d.leaf strict).value.placed none (some number))
    rw [Document.value_leaf]
    exact hI.placed _ none _ (hI.seed strict d)
  have hbound : (d.bind number strict).value.1.Gives I := trivial
  refine (keeps_lift (P := fun r : Source × Entity => r.1.Gives I ∧ I r.2)
    ⟨hbound, hroot⟩).bind fun r hr => ?_
  exact (keeps_keepSource hr.1 name number).bind fun _ _ =>
    (keeps_keep hr.2 into).bind fun _ _ => keeps_pure hr.2

omit hI in
theorem keeps_fetch (name : String) (kind : Kind) (path : String) :
    Keeps I (fun _ => True) (fetch name kind path) :=
  (keeps_source name).bind fun _ _ =>
    (keeps_lift (P := fun _ => True) trivial).bind fun _ _ =>
      (keeps_lift (P := fun _ => True) trivial).bind fun _ _ =>
        keeps_orFail fun _ _ => trivial

omit hI in
theorem keeps_dropSource (name : String) : Keeps I (fun _ => True) (dropSource name) := by
  refine keeps_get.bind fun b hb => ?_
  cases b.sources.get? name with
  | none => exact keeps_pure trivial
  | some number =>
    have hdrop : All I { b with
        sources := b.sources.drop name
        alive := b.alive.filter fun s => decide (s.1 ≠ number) } :=
      ⟨hb.named, fun s hs => hb.served s (List.mem_filter.mp hs).1⟩
    exact (keeps_set hdrop).bind fun _ _ => keeps_pure trivial

omit hI in
theorem keeps_layout (name : String) (kind : Kind) (strict : Bool) (into : Option String) :
    Keeps I (fun _ => True) (layout name kind strict into) := by
  refine (keeps_anyNamed registries name).bind fun r _ => ?_
  refine (keeps_putRegistry name _).bind fun _ _ => ?_
  cases into with
  | none => exact keeps_pure trivial
  | some other => exact (keeps_putLayout other _).bind fun _ _ => keeps_pure trivial

/-- **A task that edits no attribute keeps a lasting property of all entities.** -/
theorem all_step {t : Task} (ht : t.edits? = none) {b : Workbench} (hb : All I b) :
    All I (step b t) := by
  cases t with
  | create name kind strict origin attributes =>
    exact (keeps_create hI name kind strict origin attributes).after hb
  | load name text strict => exact (keeps_load hI name text strict).after hb
  | setAttribute => cases ht
  | setAttributeWith => cases ht
  | unsetAttribute => cases ht
  | replaceType => cases ht
  | copy name into =>
    have h : Keeps I (fun _ => True) (copy name into) :=
      (keeps_entity name).bind fun e he => keeps_keep he into
    exact h.after hb
  | add name child move => exact (keeps_add hI name child move).after hb
  | remove name kind id into => exact (keeps_remove hI name kind id into).after hb
  | children name kind => exact (keeps_children hI name kind).after hb
  | child name kind id into => exact (keeps_child hI name kind id into).after hb
  | materialize name => exact (keeps_materialize hI name).after hb
  | bind name source => exact (keeps_bind hI name source).after hb
  | newStore name => exact (keeps_newSource gives_emptyStore name).after hb
  | newShelf name => exact (keeps_newSource gives_emptyShelf name).after hb
  | insert name path entities =>
    have h : Keeps I (fun _ => True) (insert name path entities) :=
      (keeps_entitiesOf entities).bind fun es hes =>
        keeps_changeSource (fun s hs => hs.insert path hes) name
    exact h.after hb
  | place name kind path entities =>
    have h : Keeps I (fun _ => True) (place name kind path entities) :=
      (keeps_entitiesOf entities).bind fun es hes =>
        keeps_changeSource (fun s hs => hs.place _ hes) name
    exact h.after hb
  | failOn name kind path =>
    exact (keeps_changeSource (fun s hs => hs.failOn _) name).after hb
  | bindDocument name into text strict =>
    exact (keeps_bindDocument hI name into text strict).after hb
  | fetch name kind path => exact (keeps_fetch name kind path).after hb
  | dropSource name => exact (keeps_dropSource name).after hb
  | newRegistry name =>
    have h : Keeps I (fun _ => True) (newRegistry name) :=
      keeps_freshNumber.bind fun number _ => keeps_putRegistry name _
    exact h.after hb
  | changeRegistry name f =>
    have h : Keeps I (fun _ => True) (changeRegistry name f) :=
      (keeps_anyNamed registries name).bind fun r _ =>
        (keeps_putRegistry name _).bind fun _ _ => keeps_pure trivial
    exact h.after hb
  | layout name kind strict into => exact (keeps_layout name kind strict into).after hb

end Keeping

/-! ## §3. Tasks that edit attributes -/

/-- The second workbench is the first but for the head of a named entity, on which an
operation on attributes was done. -/
def Edited (name : String) (b b' : Workbench) : Prop :=
  b'.alive = b.alive ∧ (b'.entities = b.entities ∨ ∃ e h, b.entities.get? name = some e ∧
    e.head.Edit h ∧ b'.entities = b.entities.put name (e.withHead h))

theorem outcome_get (b : Workbench) : outcome get b = (.ok b, b) := rfl

section Named

variable {α β : Type} {things : Workbench → Text.Named α} {name : String} {b : Workbench}

theorem outcome_named_some {x : α} (h : (things b).get? name = some x) :
    outcome (named things name) b = (.ok x, b) := by
  unfold named
  rw [outcome_bind, outcome_get]
  simp only [h]
  rfl

theorem outcome_named_none (h : (things b).get? name = none) :
    outcome (named things name) b = (.error (.noSuchName name), b) := by
  unfold named
  rw [outcome_bind, outcome_get]
  simp only [h]
  rfl

/-- Work that begins with something named goes on with it, if there is one. -/
theorem outcome_named_bind_some {x : α} (h : (things b).get? name = some x) (f : α → Work β) :
    outcome (named things name >>= f) b = outcome (f x) b := by
  rw [outcome_bind, outcome_named_some h]

theorem outcome_named_bind_none (h : (things b).get? name = none) (f : α → Work β) :
    outcome (named things name >>= f) b = (.error (.noSuchName name), b) := by
  rw [outcome_bind, outcome_named_none h]

end Named

theorem outcome_entity_some {name : String} {b : Workbench} {e : Entity}
    (h : b.entities.get? name = some e) : outcome (entity name) b = (.ok e, b) :=
  outcome_named_some h

theorem outcome_entity_none {name : String} {b : Workbench}
    (h : b.entities.get? name = none) :
    outcome (entity name) b = (.error (.noSuchName name), b) :=
  outcome_named_none h

/-- Work that begins with a named entity edits it, if what it does with the
entity does. -/
theorem edited_of_entity {α : Type} {name : String} {b : Workbench} {f : Entity → Work α}
    (hf : ∀ e, b.entities.get? name = some e → Edited name b (outcome (f e) b).2) :
    Edited name b (after (entity name >>= f) b) := by
  have houtcome : Edited name b (outcome (entity name >>= f) b).2 := by
    rw [outcome_bind]
    cases h : b.entities.get? name with
    | none =>
      rw [outcome_entity_none h]
      exact ⟨rfl, Or.inl rfl⟩
    | some e =>
      rw [outcome_entity_some h]
      exact hf e h
  exact houtcome

/-- **A task that edits attributes does an operation on those of the entity that it
names**, and so leaves its frame. -/
theorem edited_step {t : Task} {name : String} (ht : t.edits? = some name) (b : Workbench) :
    Edited name b (step b t) := by
  cases t with
  | setAttribute n attributeName text =>
    cases ht
    apply edited_of_entity
    intro e he
    exact ⟨rfl, Or.inr ⟨e, (e.head.set attributeName text).value, he,
      Head.edit_set _ _ _, rfl⟩⟩
  | setAttributeWith n attributeName text strict =>
    cases ht
    apply edited_of_entity
    intro e he
    have hvalue : (e.setWith attributeName text strict).value
        = (e.head.setWith attributeName text strict).value.map e.withHead := rfl
    rw [outcome_bind]
    show Edited name b (outcome (orFail ((e.setWith attributeName text strict).value.mapError
      Failure.parse) >>= fun e' => do keep name e'; pure e') b).2
    rw [hvalue]
    cases h : (e.head.setWith attributeName text strict).value with
    | error f => exact ⟨rfl, Or.inl rfl⟩
    | ok h' => exact ⟨rfl, Or.inr ⟨e, h', he, Head.edit_setWith h, rfl⟩⟩
  | unsetAttribute n attributeName =>
    cases ht
    apply edited_of_entity
    intro e he
    exact ⟨rfl, Or.inr ⟨e, e.head.unset attributeName, he, .unset attributeName, rfl⟩⟩
  | replaceType n attributeName type =>
    cases ht
    apply edited_of_entity
    intro e he
    exact ⟨rfl, Or.inr ⟨e, e.head.replaceType b.next attributeName type, he,
      .retyped b.next attributeName type, rfl⟩⟩
  | _ => cases ht

/-! ## §4. Runs -/

section Runs

variable {I : Entity → Prop}

/-- A property that survives operations on attributes survives a task that does one. -/
theorem all_edited {name : String} {b b' : Workbench}
    (hedit : ∀ e h, I e → e.head.Edit h → I (e.withHead h)) (hedited : Edited name b b')
    (hb : All I b) : All I b' := by
  obtain ⟨halive, hentities | ⟨e, h, he, hh, hentities⟩⟩ := hedited
  · exact ⟨fun n d hd => hb.named n d (hentities ▸ hd), halive ▸ hb.served⟩
  · have hput := hb.put (hedit e h (hb.named name e he) hh) name
    exact ⟨fun n d hd => hput.named n d (hentities ▸ hd), halive ▸ hb.served⟩

variable (hI : Entity.Lasting I) (hedit : ∀ e h, I e → e.head.Edit h → I (e.withHead h))

include hI hedit

/-- **What any task keeps.** -/
theorem all_any_step (t : Task) {b : Workbench} (hb : All I b) : All I (step b t) := by
  cases ht : t.edits? with
  | none => exact all_step hI ht hb
  | some name => exact all_edited hedit (edited_step ht b) hb

/-- **A lasting property that survives operations on attributes holds in every state of
a run.** -/
theorem all_run (ts : List Task) : All I (run ts) := by
  -- on the run, last task first: what holds before a task holds after it
  induction ts using List.reverseRecOn with
  | nil => exact all_empty _
  | append_singleton ts t ih =>
    rw [run_append_singleton]
    exact all_any_step hI hedit t ih

end Runs

end ListingMetadata.Workbench
