/-
  ListingMetadata.Proofs.Workbench.Requests
  ─────────────────────────────────────────
  **WHICH WORK ASKS SOURCES.**

  Most work is calm: it asks no source, leaves the entities of other names
  alone, and does to sources only what is done to stores and documents.  Calm
  parts make calm work.  What is not calm asks for the children of one named
  entity, asks a source by hand, or makes a shelf:

    • `Calm.bind`, `calm_…`  — calm work, put together from its parts,
    • `calm_step`            — the tasks that are calm,
    • `asked_step`           — the tasks that ask for children,
    • `step_again`           — those that have nothing left to ask,
    • `upkept_run`           — what holds of all sources in every run,
    • `inKind_run`           — without shelves all sources answer in kind,
    • `asksInKind_run`       — beside shelves all others do.
-/
import ListingMetadata.Proofs.Source.Departures
import ListingMetadata.Proofs.Text.Named
import ListingMetadata.Proofs.Workbench.WellFormed

namespace ListingMetadata.Workbench

variable {α β : Type}

/-! ## §1. The requests of work -/

/-- The requests that work makes. -/
def requestsOf (w : Work α) (b : Workbench) : List Event :=
  (w.run.run b).requests

theorem requestsOf_bind (w : Work α) (f : α → Work β) (b : Workbench) :
    requestsOf (w >>= f) b
      = requestsOf w b ++
        match (outcome w b).1 with
        | .ok x => requestsOf (f x) (outcome w b).2
        | .error _ => [] := by
  show ((w.run >>= ExceptT.bindCont f).run b).requests = _
  show (w.run.run b >>= fun r => (ExceptT.bindCont f r.1).run r.2).requests = _
  rw [Logged.requests_bind]
  unfold requestsOf outcome
  cases (w.run.run b).value.1 <;> rfl

/-- After work the requests that it made are remembered. -/
theorem after_eq (w : Work α) (b : Workbench) :
    after w b = { (outcome w b).2 with
      requests := (outcome w b).2.requests ++ requestsOf w b } := rfl

theorem requests_after (w : Work α) (b : Workbench) :
    (after w b).requests = (outcome w b).2.requests ++ requestsOf w b := rfl

theorem entities_after (w : Work α) (b : Workbench) :
    (after w b).entities = (outcome w b).2.entities := rfl

theorem alive_after (w : Work α) (b : Workbench) : (after w b).alive = (outcome w b).2.alive := rfl

/-! ## §2. Calm work -/

/-- A property that empty stores and the sources of documents have, and that a source
keeps through all that is done to it. -/
structure Upkeep (K : Source → Prop) : Prop where
  emptyStore : K Source.emptyStore
  ofDocument : ∀ number strict (d : Document), K (d.bind number strict).value.1
  insert : ∀ s path cs, K s → K (s.insert path cs)
  place : ∀ s request cs, K s → K (s.place request cs)
  failOn : ∀ s request, K s → K (s.failOn request)

/-- All sources that still exist have the property. -/
def Upkept (K : Source → Prop) (b : Workbench) : Prop :=
  ∀ s ∈ b.alive, K s.2

/-- Work that asks no source, leaves alone the entities of the names that it does
not touch, and keeps of all sources what upkeep keeps. -/
structure Calm (touched : String → Prop) (w : Work α) : Prop where
  silent : ∀ b, requestsOf w b = []
  requests : ∀ b, (outcome w b).2.requests = b.requests
  entities : ∀ b n, ¬ touched n → (outcome w b).2.entities.get? n = b.entities.get? n
  upkept : ∀ K, Upkeep K → ∀ b, b.Upkept K → (outcome w b).2.Upkept K

section Parts

variable {touched : String → Prop}

theorem Calm.bind {w : Work α} {f : α → Work β} (hw : Calm touched w)
    (hf : ∀ x, Calm touched (f x)) : Calm touched (w >>= f) where
  silent b := by
    rw [requestsOf_bind, hw.silent, List.nil_append]
    cases (outcome w b).1 with
    | ok x => exact (hf x).silent _
    | error c => rfl
  requests b := by
    rw [outcome_bind]
    cases (outcome w b).1 with
    | ok x => exact ((hf x).requests _).trans (hw.requests b)
    | error c => exact hw.requests b
  entities b n hn := by
    rw [outcome_bind]
    cases (outcome w b).1 with
    | ok x => exact ((hf x).entities _ n hn).trans (hw.entities b n hn)
    | error c => exact hw.entities b n hn
  upkept K hK b hb := by
    rw [outcome_bind]
    cases (outcome w b).1 with
    | ok x => exact (hf x).upkept K hK _ (hw.upkept K hK b hb)
    | error c => exact hw.upkept K hK b hb

/-- Work that changes nothing and asks nothing. -/
theorem calm_of_idle {w : Work α} (hr : ∀ b, requestsOf w b = []) (hb : ∀ b, (outcome w b).2 = b) :
    Calm touched w where
  silent := hr
  requests b := by rw [hb]
  entities b n _ := by rw [hb]
  upkept K _ b h := by
    rw [hb]
    exact h

theorem calm_pure (x : α) : Calm touched (pure x : Work α) :=
  calm_of_idle (fun _ => rfl) fun _ => rfl

theorem calm_throw (c : Complaint) : Calm touched (throw c : Work α) :=
  calm_of_idle (fun _ => rfl) fun _ => rfl

theorem calm_get : Calm touched (get : Work Workbench) :=
  calm_of_idle (fun _ => rfl) fun _ => rfl

/-- Work of an entity alone makes the requests that it makes there. -/
theorem requestsOf_lift (x : Logged Event α) (b : Workbench) :
    requestsOf (liftM x : Work α) b = x.requests := by
  show ((x >>= fun a => pure (a, b)) >>= fun r => pure (Except.ok r.1, r.2) :
    Logged Event (Except Complaint α × Workbench)).requests = x.requests
  rw [Logged.requests_bind, Logged.requests_bind, Logged.requests_pure, Logged.requests_pure,
    List.append_nil, List.append_nil]

theorem calm_lift {x : Logged Event α} (h : x.requests = []) : Calm touched (liftM x : Work α) :=
  calm_of_idle (fun b => (requestsOf_lift x b).trans h) fun _ => rfl

/-- What follows work of an entity alone goes on from its result. -/
theorem calm_lift_bind {x : Logged Event α} (h : x.requests = []) {f : α → Work β}
    (hf : Calm touched (f x.value)) : Calm touched (liftM x >>= f) where
  silent b := by
    rw [requestsOf_bind, requestsOf_lift, h]
    exact hf.silent b
  requests b := by
    rw [outcome_bind]
    exact hf.requests b
  entities b n hn := by
    rw [outcome_bind]
    exact hf.entities b n hn
  upkept K hK b hb := by
    rw [outcome_bind]
    exact hf.upkept K hK b hb

theorem calm_modify {f : Workbench → Workbench} (hr : ∀ b, (f b).requests = b.requests)
    (he : ∀ b n, ¬ touched n → (f b).entities.get? n = b.entities.get? n)
    (hk : ∀ K, Upkeep K → ∀ b, b.Upkept K → (f b).Upkept K) :
    Calm touched (modify f : Work Unit) :=
  ⟨fun _ => rfl, hr, he, hk⟩

theorem calm_orFail (x : Except Failure α) : Calm touched (orFail x) := by
  cases x with
  | ok y => exact calm_pure y
  | error f => exact calm_throw _

theorem calm_named (things : Workbench → Text.Named α) (name : String) :
    Calm touched (named things name) := by
  refine calm_get.bind fun b => ?_
  cases (things b).get? name with
  | none => exact calm_throw _
  | some x => exact calm_pure x

theorem calm_entitiesOf (names : List String) : Calm touched (entitiesOf names) := by
  induction names with
  | nil => exact calm_pure _
  | cons name names ih =>
    exact (calm_named entities name).bind fun e => ih.bind fun es => calm_pure _

theorem calm_keep {name : String} (h : touched name) (e : Entity) : Calm touched (keep name e) := by
  refine calm_modify (fun _ => rfl) ?_ fun _ _ _ hb => hb
  intro b n hn
  apply Text.Named.get?_put_of_ne
  intro hname
  exact hn (hname ▸ h)

theorem calm_keepIn {into : Option String} (h : ∀ name, into = some name → touched name)
    (found : Option Entity) : Calm touched (keepIn into found) := by
  cases into with
  | none => exact calm_pure ()
  | some name =>
    cases found with
    | none => exact calm_pure ()
    | some e => exact calm_keep (h name rfl) e

theorem calm_freshNumber : Calm touched freshNumber :=
  ⟨fun _ => rfl, fun _ => rfl, fun _ _ _ => rfl, fun _ _ _ hb => hb⟩

theorem calm_putRegistry (name : String) (r : Registry) :
    Calm touched
      (modify fun b => { b with registries := b.registries.put name r } : Work Unit) :=
  calm_modify (fun _ => rfl) (fun _ _ _ => rfl) fun _ _ _ hb => hb

theorem calm_putLayout (name : String) (l : SharedLayout) :
    Calm touched (modify fun b => { b with layouts := b.layouts.put name l } : Work Unit) :=
  calm_modify (fun _ => rfl) (fun _ _ _ => rfl) fun _ _ _ hb => hb

theorem calm_change {name : String} (h : touched name) {f : Entity → Logged Event Entity}
    (hf : ∀ e, (f e).requests = []) : Calm touched (change name f) :=
  (calm_named entities name).bind fun e =>
    (calm_lift (hf e)).bind fun e' => (calm_keep h e').bind fun _ => calm_pure e'

/-! ## §3. Sources -/

theorem upkept_keepSource {K : Source → Prop} {s : Source} (hs : K s) (name : String)
    (number : Nat) {b : Workbench} (hb : b.Upkept K) :
    (outcome (keepSource name number s) b).2.Upkept K := by
  intro t ht
  rcases List.mem_cons.mp ht with hnew | hold
  · rw [hnew]
    exact hs
  · exact hb t (List.mem_filter.mp hold).1

theorem calm_keepSource {s : Source} (hs : ∀ K, Upkeep K → K s) (name : String)
    (number : Nat) : Calm touched (keepSource name number s) :=
  calm_modify (fun _ => rfl) (fun _ _ _ => rfl) fun K hK _ hb =>
    upkept_keepSource (hs K hK) name number hb

/-- The source of a name and its number, if it is alive. -/
def sourceOf? (b : Workbench) (name : String) : Option (Nat × Source) :=
  (b.sources.get? name).bind fun number => (b.alive.source? number).map fun s => (number, s)

theorem outcome_source (name : String) (b : Workbench) :
    outcome (source name) b
      = ((match b.sourceOf? name with
          | some s => .ok s
          | none => .error (.noSuchName name)), b) := by
  unfold source named sourceOf?
  rw [outcome_bind, outcome_bind, outcome_get]
  cases hn : b.sources.get? name with
  | none =>
    simp only [hn]
    rfl
  | some number =>
    simp only [hn]
    show outcome (get >>= _) b = _
    rw [outcome_bind, outcome_get]
    cases ha : b.alive.source? number with
    | none =>
      simp only [ha, Option.bind_some]
      rfl
    | some s =>
      simp only [ha, Option.bind_some]
      rfl

theorem calm_source (name : String) : Calm touched (source name) := by
  refine (calm_named sources name).bind fun number => calm_get.bind fun b => ?_
  cases b.alive.source? number with
  | none => exact calm_throw _
  | some s => exact calm_pure _

theorem requestsOf_source (name : String) (b : Workbench) : requestsOf (source name) b = [] := by
  have hcalm : Calm (fun _ => True) (source name) := calm_source name
  exact hcalm.silent b

theorem mem_alive_of_sourceOf? {b : Workbench} {name : String} {s : Nat × Source}
    (h : b.sourceOf? name = some s) : s ∈ b.alive := by
  obtain ⟨number, -, hs⟩ := Option.bind_eq_some_iff.mp h
  obtain ⟨s', hs', rfl⟩ := Option.map_eq_some_iff.mp hs
  exact Sources.mem_of_source? hs'

theorem calm_changeSource {f : Source → Source} (hf : ∀ K, Upkeep K → ∀ s, K s → K (f s))
    (name : String) : Calm touched (changeSource name f) := by
  have houtcome : ∀ b, (outcome (changeSource name f) b).2
      = match b.sourceOf? name with
        | some s => (outcome (keepSource name s.1 (f s.2)) b).2
        | none => b := by
    intro b
    unfold changeSource
    rw [outcome_bind, outcome_source]
    cases b.sourceOf? name <;> rfl
  refine ⟨?_, ?_, ?_, ?_⟩
  · intro b
    unfold changeSource
    rw [requestsOf_bind, requestsOf_source, outcome_source]
    cases b.sourceOf? name <;> rfl
  · intro b
    rw [houtcome]
    cases b.sourceOf? name <;> rfl
  · intro b n _
    rw [houtcome]
    cases b.sourceOf? name <;> rfl
  · intro K hK b hb
    rw [houtcome]
    cases hs : b.sourceOf? name with
    | some s =>
      exact upkept_keepSource (hf K hK s.2 (hb s (mem_alive_of_sourceOf? hs))) name s.1 hb
    | none => exact hb

theorem calm_dropSource (name : String) : Calm touched (dropSource name) := by
  have houtcome : ∀ b : Workbench, requestsOf (dropSource name) b = [] ∧
      (outcome (dropSource name) b).2.requests = b.requests ∧
      (outcome (dropSource name) b).2.entities = b.entities ∧
      ∀ s ∈ (outcome (dropSource name) b).2.alive, s ∈ b.alive := by
    intro b
    unfold dropSource
    rw [requestsOf_bind, outcome_bind, outcome_get]
    cases hn : b.sources.get? name with
    | none =>
      simp only [hn]
      exact ⟨rfl, rfl, rfl, fun _ hs => hs⟩
    | some number =>
      simp only [hn]
      exact ⟨rfl, rfl, rfl, fun _ hs => (List.mem_filter.mp hs).1⟩
  refine ⟨fun b => (houtcome b).1, fun b => (houtcome b).2.1, ?_, ?_⟩
  · intro b n _
    rw [(houtcome b).2.2.1]
  · intro K _ b hb s hs
    exact hb s ((houtcome b).2.2.2 s hs)

end Parts

/-! ## §4. The tasks -/

/-- What a task that asks for children makes of the entity of a name. -/
def Task.asking? : Task → Option (String × (Sources → Entity → Logged Event Entity))
  | .children name kind => some (name, fun sources e => e.resolve sources kind)
  | .child name kind _ _ => some (name, fun sources e => e.resolve sources kind)
  | .materialize name => some (name, Entity.materialize)
  | _ => none

/-- The names under which a task may put another entity as a whole, or none. -/
def Task.puts : Task → List String
  | .create name _ _ _ _ => [name]
  | .load name _ _ => [name]
  | .copy _ into => [into]
  | .add _ moved true => [moved]
  | .remove _ _ _ (some into) => [into]
  | .child _ _ _ (some into) => [into]
  | .bindDocument _ into _ _ => [into]
  | _ => []

/-- The name of the entity that a task changes where it is, without asking for
children. -/
def Task.changes? : Task → Option String
  | .setAttribute name _ _ => some name
  | .setAttributeWith name _ _ _ => some name
  | .unsetAttribute name _ => some name
  | .replaceType name _ _ => some name
  | .add name _ _ => some name
  | .remove name _ _ _ => some name
  | .bind name _ => some name
  | _ => none

/-- The task is a request by hand. -/
def Task.isFetch : Task → Bool
  | .fetch _ _ _ => true
  | _ => false

/-- The task makes a shelf, which answers requests with entities of any kinds. -/
def Task.isShelf : Task → Bool
  | .newShelf _ => true
  | _ => false

/-- The workbenches before and after a task that asks no source. -/
structure Undisturbed (touched : String → Prop) (b b' : Workbench) : Prop where
  requests : b'.requests = b.requests
  entities : ∀ n, ¬ touched n → b'.entities.get? n = b.entities.get? n
  upkept : ∀ K, Upkeep K → b.Upkept K → b'.Upkept K

theorem Calm.after {touched : String → Prop} {w : Work α} (h : Calm touched w) (b : Workbench) :
    Undisturbed touched b (after w b) where
  requests := by
    rw [requests_after, h.silent, List.append_nil]
    exact h.requests b
  entities := h.entities b
  upkept K hK := h.upkept K hK b

section Tasks

variable {touched : String → Prop}

theorem calm_create {name : String} (h : touched name) (kind : Kind) (strict : Bool)
    (origin : Origin) (attributes : List (String × String)) :
    Calm touched (create name kind strict origin attributes) := by
  have hfresh : Calm touched (freshEntity kind strict origin) := by
    cases origin with
    | plain => exact calm_pure _
    | registry r =>
      exact (calm_named registries r).bind fun _ =>
        (calm_putRegistry r _).bind fun _ => calm_pure _
    | source s => exact (calm_named sources s).bind fun _ => calm_pure _
  refine hfresh.bind fun e => ?_
  have hset : (e.setAll attributes).requests = [] := by
    unfold Entity.setAll
    rw [Logged.requests_bind, Head.requests_setAll]
    rfl
  exact (calm_lift hset).bind fun e' => (calm_keep h e').bind fun _ => calm_pure e'

theorem calm_load {name : String} (h : touched name) (text : String) (strict : Bool) :
    Calm touched (load name text strict) :=
  (calm_orFail _).bind fun d => (calm_lift (Document.requests_build strict d)).bind fun e =>
    (calm_keep h e).bind fun _ => calm_pure e

theorem calm_setAttribute {name : String} (h : touched name) (attributeName text : String) :
    Calm touched (setAttribute name attributeName text) := by
  apply calm_change h
  intro e
  unfold Entity.set
  rw [Logged.requests_bind, Head.requests_set]
  rfl

theorem calm_setAttributeWith {name : String} (h : touched name) (attributeName text : String)
    (strict : Bool) : Calm touched (setAttributeWith name attributeName text strict) := by
  refine (calm_named entities name).bind fun e => ?_
  have hset : (e.setWith attributeName text strict).requests = [] := by
    unfold Entity.setWith
    rw [Logged.requests_bind, Head.requests_setWith]
    rfl
  exact (calm_lift hset).bind fun result => (calm_orFail _).bind fun e' =>
    (calm_keep h e').bind fun _ => calm_pure e'

theorem calm_add {name child : String} {move : Bool} (h : touched name)
    (hm : move = true → touched child) : Calm touched (add name child move) := by
  refine (calm_named entities child).bind fun c => ?_
  have hrest : Calm touched (do
      let e ← entity name
      let e' ← orFail (e.add c)
      keep name e'
      pure (e'.resolved c.kind)) :=
    (calm_named entities name).bind fun e => (calm_orFail _).bind fun e' =>
      (calm_keep h e').bind fun _ => calm_pure _
  cases move with
  | true =>
    have hdrop : Calm touched (modify fun b => { b with entities := b.entities.drop child } :
        Work Unit) := by
      refine calm_modify (fun _ => rfl) ?_ fun _ _ _ hb => hb
      intro b n hn
      apply Text.Named.get?_drop_of_ne
      intro hname
      exact hn (hname ▸ hm rfl)
    exact hdrop.bind fun _ => hrest
  | false => exact hrest

theorem calm_remove {name : String} {into : Option String} (h : touched name)
    (hi : ∀ n, into = some n → touched n) (kind : Kind) (id : String) :
    Calm touched (remove name kind id into) :=
  (calm_named entities name).bind fun e =>
    (calm_keep h (e.remove kind id).2).bind fun _ =>
      (calm_keepIn hi (e.remove kind id).1).bind fun _ => calm_pure (e.remove kind id).1

theorem calm_bind {name : String} (h : touched name) (source : Option String) :
    Calm touched (bind name source) := by
  have hchange : ∀ number, Calm touched (change name fun e => pure (e.setSource number)) :=
    fun number => calm_change h fun _ => rfl
  cases source with
  | none => exact hchange none
  | some s => exact (calm_named sources s).bind fun number => hchange (some number)

theorem calm_bindDocument {into : String} (h : touched into) (name text : String) (strict : Bool) :
    Calm touched (bindDocument name into text strict) := by
  refine (calm_orFail _).bind fun d => calm_freshNumber.bind fun number => ?_
  apply calm_lift_bind (Document.requests_bind number strict d)
  refine (calm_keepSource (fun K hK => hK.ofDocument number strict d) name number).bind fun _ => ?_
  exact (calm_keep h _).bind fun _ => calm_pure _

theorem calm_layout (name : String) (kind : Kind) (strict : Bool) (into : Option String) :
    Calm touched (layout name kind strict into) := by
  refine (calm_named registries name).bind fun r => (calm_putRegistry name _).bind fun _ => ?_
  cases into with
  | none => exact calm_pure _
  | some other => exact (calm_putLayout other _).bind fun _ => calm_pure _

theorem calm_unsetAttribute {name : String} (h : touched name) (attributeName : String) :
    Calm touched (unsetAttribute name attributeName) :=
  (calm_named entities name).bind fun _ => (calm_keep h _).bind fun _ => calm_pure _

theorem calm_replaceType {name : String} (h : touched name) (attributeName : String)
    (type : ValueType) : Calm touched (replaceType name attributeName type) :=
  (calm_named entities name).bind fun _ => calm_freshNumber.bind fun _ =>
    (calm_keep h _).bind fun _ => calm_pure _

theorem calm_copy {into : String} (h : touched into) (name : String) :
    Calm touched (copy name into) :=
  (calm_named entities name).bind fun e => calm_keep h e

theorem calm_newSource {s : Source} (hs : ∀ K, Upkeep K → K s) (name : String) :
    Calm touched (newSource name s) :=
  calm_freshNumber.bind fun number => calm_keepSource hs name number

/-- The names whose entities a task puts or changes. -/
def Task.touches (t : Task) (n : String) : Prop :=
  n ∈ t.puts ∨ t.changes? = some n

/-- **A task that asks for no children, makes no request by hand and makes no
shelf is calm.** -/
theorem calm_step {t : Task} (hasking : t.asking? = none) (hfetch : t.isFetch = false)
    (hshelf : t.isShelf = false) (b : Workbench) : Undisturbed t.touches b (step b t) := by
  cases t with
  | create name kind strict origin attributes =>
    exact (calm_create (Or.inl (List.mem_singleton_self name)) kind strict origin
      attributes).after b
  | load name text strict =>
    exact (calm_load (Or.inl (List.mem_singleton_self name)) text strict).after b
  | setAttribute name attributeName text =>
    exact (calm_setAttribute (Or.inr rfl) attributeName text).after b
  | setAttributeWith name attributeName text strict =>
    exact (calm_setAttributeWith (Or.inr rfl) attributeName text strict).after b
  | unsetAttribute name attributeName =>
    exact (calm_unsetAttribute (Or.inr rfl) attributeName).after b
  | replaceType name attributeName type =>
    exact (calm_replaceType (Or.inr rfl) attributeName type).after b
  | copy name into => exact (calm_copy (Or.inl (List.mem_singleton_self into)) name).after b
  | add name child move =>
    have hmoved : move = true → (Task.add name child move).touches child := by
      intro hm
      subst hm
      exact Or.inl (List.mem_singleton_self child)
    exact (calm_add (Or.inr rfl) hmoved).after b
  | remove name kind id into =>
    have hinto : ∀ n, into = some n → (Task.remove name kind id into).touches n := by
      intro n hn
      subst hn
      exact Or.inl (List.mem_singleton_self n)
    exact (calm_remove (Or.inr rfl) hinto kind id).after b
  | children => cases hasking
  | child => cases hasking
  | materialize => cases hasking
  | bind name source => exact (calm_bind (Or.inr rfl) source).after b
  | newStore name => exact (calm_newSource (fun K hK => hK.emptyStore) name).after b
  | newShelf => cases hshelf
  | insert name path entities =>
    have h : Calm (Task.insert name path entities).touches (insert name path entities) :=
      (calm_entitiesOf entities).bind fun es =>
        calm_changeSource (fun K hK s hs => hK.insert s path es hs) name
    exact h.after b
  | place name kind path entities =>
    have h : Calm (Task.place name kind path entities).touches (place name kind path entities) :=
      (calm_entitiesOf entities).bind fun es =>
        calm_changeSource (fun K hK s hs => hK.place s ⟨kind, path⟩ es hs) name
    exact h.after b
  | failOn name kind path =>
    exact (calm_changeSource (fun K hK s hs => hK.failOn s ⟨kind, path⟩ hs) name).after b
  | bindDocument name into text strict =>
    exact (calm_bindDocument (Or.inl (List.mem_singleton_self into)) name text strict).after b
  | fetch => cases hfetch
  | dropSource name => exact (calm_dropSource name).after b
  | newRegistry name =>
    have h : Calm (Task.newRegistry name).touches (newRegistry name) :=
      calm_freshNumber.bind fun number => calm_putRegistry name _
    exact h.after b
  | changeRegistry name f =>
    have h : Calm (Task.changeRegistry name f).touches (changeRegistry name f) :=
      (calm_named registries name).bind fun r =>
        (calm_putRegistry name _).bind fun _ => calm_pure _
    exact h.after b
  | layout name kind strict into => exact (calm_layout name kind strict into).after b

end Tasks

/-! ## §5. Asking for children -/

/-- The workbenches before and after a task that asks for the children of the
entity of a name. -/
structure Asked (t : Task) (e : Entity) (name : String) (x : Logged Event Entity)
    (b b' : Workbench) : Prop where
  requests : b'.requests = b.requests ++ x.requests
  alive : b'.alive = b.alive
  entities : ∀ n, n ∉ t.puts →
    b'.entities.get? n = (b.entities.put name x.value).get? n

theorem entities_keepIn {into : Option String} {n : String} (h : into ≠ some n)
    (found : Option Entity) (b : Workbench) :
    (outcome (keepIn into found) b).2.entities.get? n = b.entities.get? n := by
  cases into with
  | none => rfl
  | some m =>
    cases found with
    | none => rfl
    | some e =>
      apply Text.Named.get?_put_of_ne
      intro hn
      exact h (by rw [hn])

theorem requestsOf_get_bind (f : Workbench → Work α) (b : Workbench) :
    requestsOf (get >>= f) b = requestsOf (f b) b := by
  rw [requestsOf_bind, outcome_get]
  rfl

theorem requestsOf_lift_bind (x : Logged Event β) (f : β → Work α) (b : Workbench) :
    requestsOf (liftM x >>= f) b = x.requests ++ requestsOf (f x.value) b := by
  rw [requestsOf_bind, requestsOf_lift]
  rfl

theorem requestsOf_entity (name : String) (b : Workbench) : requestsOf (entity name) b = [] := by
  have hcalm : Calm (fun _ => True) (entity name) := calm_named entities name
  exact hcalm.silent b

theorem requestsOf_entity_bind {name : String} {b : Workbench} {e : Entity}
    (he : b.entities.get? name = some e) (f : Entity → Work α) :
    requestsOf (entity name >>= f) b = requestsOf (f e) b := by
  rw [requestsOf_bind, outcome_entity_some he, requestsOf_entity, List.nil_append]

theorem outcome_entity_bind {name : String} {b : Workbench} {e : Entity}
    (he : b.entities.get? name = some e) (f : Entity → Work α) :
    outcome (entity name >>= f) b = outcome (f e) b := by
  rw [outcome_bind, outcome_entity_some he]

theorem requestsOf_keepIn (into : Option String) (found : Option Entity) (b : Workbench) :
    requestsOf (keepIn into found) b = [] := by
  have hcalm : Calm (fun _ => True) (keepIn into found) := calm_keepIn (fun _ _ => trivial) found
  exact hcalm.silent b

theorem state_keepIn (into : Option String) (found : Option Entity) (b : Workbench) :
    (outcome (keepIn into found) b).2.requests = b.requests ∧
      (outcome (keepIn into found) b).2.alive = b.alive := by
  cases into with
  | none => exact ⟨rfl, rfl⟩
  | some name =>
    cases found with
    | none => exact ⟨rfl, rfl⟩
    | some e => exact ⟨rfl, rfl⟩

/-- The workbench with an entity under a name. -/
def keeping (b : Workbench) (name : String) (e : Entity) : Workbench :=
  { b with entities := b.entities.put name e }

/-- The workbench with an entity under a name, and the requests that were made for it. -/
def recording (b : Workbench) (name : String) (x : Logged Event Entity) : Workbench :=
  { b.keeping name x.value with requests := b.requests ++ x.requests }

theorem get?_recording (b : Workbench) (name : String) (x : Logged Event Entity) :
    (b.recording name x).entities.get? name = some x.value :=
  Text.Named.get?_put_self _ _ _

/-- **A task that has nothing left to ask leaves the workbench as it is.** -/
theorem step_again {t : Task} {name : String} {ask : Sources → Entity → Logged Event Entity}
    (hstep : ∀ (b : Workbench) (e : Entity), b.entities.get? name = some e →
      step b t = b.recording name (ask b.alive e))
    {b : Workbench} {e : Entity} (he : b.entities.get? name = some e)
    (hidle : ∀ sources, ask sources (ask b.alive e).value = pure (ask b.alive e).value) :
    step (step b t) t = step b t := by
  rw [hstep b e he, hstep _ _ (get?_recording b name _), hidle]
  -- the same entity is put under its name again, and no request is added
  unfold recording keeping
  simp only [Logged.value_pure, Logged.requests_pure, List.append_nil, Text.Named.put_put]

/-- A task that leaves the entity that it asked in its place. -/
theorem asked_of_recording {t : Task} {name : String} {e : Entity} {x : Logged Event Entity}
    {b : Workbench} (h : step b t = b.recording name x) : Asked t e name x b (step b t) := by
  rw [h]
  exact ⟨rfl, rfl, fun _ _ => rfl⟩

theorem outcome_children (name : String) (kind : Kind) {b : Workbench} {e : Entity}
    (he : b.entities.get? name = some e) :
    outcome (children name kind) b
      = (.ok ((e.resolve b.alive kind).value.resolved kind),
          b.keeping name (e.resolve b.alive kind).value) := by
  unfold children
  rw [outcome_entity_bind he]
  rfl

theorem requestsOf_children (name : String) (kind : Kind) {b : Workbench} {e : Entity}
    (he : b.entities.get? name = some e) :
    requestsOf (children name kind) b = (e.resolve b.alive kind).requests := by
  unfold children
  rw [requestsOf_entity_bind he, requestsOf_get_bind, requestsOf_lift_bind]
  unfold Entity.getChildren
  rw [Logged.requests_bind, Logged.requests_pure, List.append_nil]
  exact List.append_nil _

/-- **Asking for the children of a kind** puts the asked entity in its place. -/
theorem step_children (name : String) (kind : Kind) {b : Workbench} {e : Entity}
    (he : b.entities.get? name = some e) :
    step b (.children name kind) = b.recording name (e.resolve b.alive kind) := by
  show after (children name kind) b = _
  rw [after_eq, outcome_children name kind he, requestsOf_children name kind he]
  rfl

theorem state_child (name : String) (kind : Kind) (id : String) (into : Option String)
    {b : Workbench} {e : Entity} (he : b.entities.get? name = some e) :
    (outcome (child name kind id into) b).2
      = (outcome (keepIn into ((e.resolve b.alive kind).value.resolvedChild? kind id))
          (b.keeping name (e.resolve b.alive kind).value)).2 := by
  unfold child
  rw [outcome_entity_bind he]
  show (outcome (keepIn into _ >>= fun _ => pure _) (b.keeping name _)).2 = _
  rw [outcome_bind]
  cases (outcome (keepIn into ((e.resolve b.alive kind).value.resolvedChild? kind id))
    (b.keeping name (e.resolve b.alive kind).value)).1 <;> rfl

theorem requestsOf_child (name : String) (kind : Kind) (id : String) (into : Option String)
    {b : Workbench} {e : Entity} (he : b.entities.get? name = some e) :
    requestsOf (child name kind id into) b = (e.resolve b.alive kind).requests := by
  have hkept : ∀ (found : Option Entity) (b : Workbench),
      requestsOf (keepIn into found >>= fun _ => pure found) b = [] := by
    intro found b
    rw [requestsOf_bind, requestsOf_keepIn]
    cases (outcome (keepIn into found) b).1 <;> rfl
  unfold child
  rw [requestsOf_entity_bind he, requestsOf_get_bind, requestsOf_lift_bind]
  unfold Entity.getChild
  rw [Logged.requests_bind, Logged.requests_pure, List.append_nil]
  show _ ++ requestsOf (keep name _ >>= fun _ => keepIn into _ >>= fun _ => pure _) b = _
  rw [requestsOf_bind]
  show _ ++ ([] ++ requestsOf (keepIn into _ >>= fun _ => pure _) (b.keeping name _)) = _
  rw [hkept]
  exact List.append_nil _

theorem asked_child (name : String) (kind : Kind) (id : String) (into : Option String)
    {b : Workbench} {e : Entity} (he : b.entities.get? name = some e) :
    Asked (.child name kind id into) e name (e.resolve b.alive kind) b
      (after (child name kind id into) b) := by
  have hstate := state_keepIn into ((e.resolve b.alive kind).value.resolvedChild? kind id)
    (b.keeping name (e.resolve b.alive kind).value)
  refine ⟨?_, ?_, ?_⟩
  · rw [requests_after, state_child name kind id into he, requestsOf_child name kind id into he,
      hstate.1]
    rfl
  · rw [alive_after, state_child name kind id into he, hstate.2]
    rfl
  · intro n hn
    have hinto : into ≠ some n := by
      intro hi
      subst hi
      exact hn (List.mem_singleton_self n)
    rw [entities_after, state_child name kind id into he, entities_keepIn hinto]
    rfl

/-- A named entity that work changes: the changed one is under its name, and the
requests are those of the change. -/
theorem changed_some {name : String} {b : Workbench} {e : Entity}
    (he : b.entities.get? name = some e) (f : Entity → Logged Event Entity) :
    (outcome (change name f) b).2 = { b with entities := b.entities.put name (f e).value } ∧
      requestsOf (change name f) b = (f e).requests := by
  unfold change
  rw [outcome_entity_bind he, requestsOf_entity_bind he, requestsOf_lift_bind]
  exact ⟨rfl, List.append_nil _⟩

theorem after_get_bind (f : Workbench → Work α) (b : Workbench) :
    after (get >>= f) b = after (f b) b := rfl

/-- **Materializing** puts the materialized entity in its place. -/
theorem step_materialize (name : String) {b : Workbench} {e : Entity}
    (he : b.entities.get? name = some e) :
    step b (.materialize name) = b.recording name (e.materialize b.alive) := by
  obtain ⟨hout, hrequests⟩ := changed_some he (Entity.materialize b.alive)
  show after (materialize name) b = _
  unfold materialize
  rw [after_get_bind, after_eq, hout, hrequests]
  rfl

/-- **A task that asks for children puts the asked entity in its place and makes
the requests that asking makes.** -/
theorem asked_step {t : Task} {name : String} {ask : Sources → Entity → Logged Event Entity}
    (ht : t.asking? = some (name, ask)) {b : Workbench} {e : Entity}
    (he : b.entities.get? name = some e) : Asked t e name (ask b.alive e) b (step b t) := by
  cases t with
  | children n kind =>
    cases ht
    exact asked_of_recording (step_children name kind he)
  | child n kind id into =>
    cases ht
    exact asked_child name kind id into he
  | materialize n =>
    cases ht
    exact asked_of_recording (step_materialize name he)
  | _ => cases ht

/-- Work on a named entity that is not there does nothing. -/
theorem after_entity_none {name : String} {b : Workbench} (he : b.entities.get? name = none)
    (f : Entity → Work α) : after (entity name >>= f) b = b := by
  have hout : (outcome (entity name >>= f) b).2 = b := by
    rw [outcome_bind, outcome_entity_none he]
  have hsilent : requestsOf (entity name >>= f) b = [] := by
    rw [requestsOf_bind, outcome_entity_none he, requestsOf_entity]
    rfl
  rw [after_eq, hout, hsilent, List.append_nil]

/-- **Without an entity of that name a task that asks for children does
nothing.** -/
theorem step_of_nameless {t : Task} {name : String}
    {ask : Sources → Entity → Logged Event Entity} (ht : t.asking? = some (name, ask))
    {b : Workbench} (he : b.entities.get? name = none) : step b t = b := by
  cases t with
  | children n kind =>
    cases ht
    exact after_entity_none he _
  | child n kind id into =>
    cases ht
    exact after_entity_none he _
  | materialize n =>
    cases ht
    show after (materialize name) b = b
    unfold materialize change
    rw [after_get_bind, after_entity_none he]
  | _ => cases ht

/-! ## §6. Requests by hand -/

/-- The requests that a task makes by hand: those of a source that is alive. -/
def byHand (b : Workbench) : Task → List Event
  | .fetch name kind path =>
    match b.sourceOf? name with
    | some s => [.asked s.1 kind path]
    | none => []
  | _ => []

theorem byHand_of_not_fetch {t : Task} (h : t.isFetch = false) (b : Workbench) :
    byHand b t = [] := by
  cases t with
  | fetch => cases h
  | _ => rfl

/-- **A request by hand leaves only itself.** -/
theorem hand_step {t : Task} (h : t.isFetch = true) (b : Workbench) :
    (step b t).requests = b.requests ++ byHand b t ∧ (step b t).alive = b.alive ∧
      (step b t).entities = b.entities := by
  cases t with
  | fetch name kind path =>
    show (after (fetch name kind path) b).requests = _ ∧ (after (fetch name kind path) b).alive = _ ∧
      (after (fetch name kind path) b).entities = _
    rw [requests_after, alive_after, entities_after]
    have hhand : byHand b (.fetch name kind path)
        = match b.sourceOf? name with
          | some s => [.asked s.1 kind path]
          | none => [] := rfl
    unfold fetch
    rw [requestsOf_bind, outcome_bind, requestsOf_source, outcome_source, hhand]
    cases b.sourceOf? name with
    | none => exact ⟨rfl, rfl, rfl⟩
    | some s =>
      obtain ⟨number, s⟩ := s
      have hanswer : ∀ found : Except Failure (List Entity),
          (outcome (orFail found) b).2 = b ∧ requestsOf (orFail found) b = [] := by
        intro found
        cases found <;> exact ⟨rfl, rfl⟩
      obtain ⟨hstate, hno⟩ := hanswer (s.answer ⟨kind, path⟩).value
      show (outcome (orFail (s.answer ⟨kind, path⟩).value) b).2.requests
          ++ ([] ++ requestsOf (liftM (Logged.tell (Event.asked number kind path)) >>= fun _ =>
            liftM (s.answer ⟨kind, path⟩) >>= orFail) b) = _ ∧
        (outcome (orFail (s.answer ⟨kind, path⟩).value) b).2.alive = _ ∧
        (outcome (orFail (s.answer ⟨kind, path⟩).value) b).2.entities = _
      rw [hstate, requestsOf_lift_bind, requestsOf_lift_bind, hno, Source.requests_answer]
      exact ⟨rfl, rfl, rfl⟩
  | _ => cases h

/-! ## §7. The sources of runs -/

/-- A new shelf leaves entities and requests alone, and all sources beside it. -/
theorem shelf_step (name : String) (b : Workbench) :
    (step b (.newShelf name)).requests = b.requests ∧
      (step b (.newShelf name)).entities = b.entities ∧
      ∀ K : Source → Prop, K Source.emptyShelf → b.Upkept K →
        (step b (.newShelf name)).Upkept K := by
  refine ⟨List.append_nil _, rfl, ?_⟩
  intro K hK hb
  exact upkept_keepSource hK name b.next hb

/-- **What one task keeps of all sources.** -/
theorem upkept_step {K : Source → Prop} (hK : Upkeep K) {t : Task}
    (hshelf : t.isShelf = true → K Source.emptyShelf) {b : Workbench} (hb : b.Upkept K) :
    (step b t).Upkept K := by
  cases hasking : t.asking? with
  | none =>
    cases hfetch : t.isFetch with
    | false =>
      cases hs : t.isShelf with
      | false => exact (calm_step hasking hfetch hs b).upkept K hK hb
      | true =>
        cases t with
        | newShelf name => exact (shelf_step name b).2.2 K (hshelf rfl) hb
        | _ => cases hs
    | true =>
      unfold Upkept
      rw [(hand_step hfetch b).2.1]
      exact hb
  | some asking =>
    obtain ⟨name, ask⟩ := asking
    cases he : b.entities.get? name with
    | none =>
      rw [step_of_nameless hasking he]
      exact hb
    | some e =>
      unfold Upkept
      rw [(asked_step hasking he).alive]
      exact hb

/-- **What holds of all sources in every run.** -/
theorem upkept_run {K : Source → Prop} (hK : Upkeep K) {ts : List Task}
    (hshelf : ∀ t ∈ ts, t.isShelf = true → K Source.emptyShelf) : (run ts).Upkept K := by
  induction ts using List.reverseRecOn with
  | nil =>
    intro s hs
    cases hs
  | append_singleton ts t ih =>
    rw [run_append_singleton]
    exact upkept_step hK (hshelf t (List.mem_append_right _ (List.mem_singleton_self t)))
      (ih fun t' ht' => hshelf t' (List.mem_append_left _ ht'))

theorem inKind_insert {s : Source} (h : s.InKind) (path : String) (cs : List Entity) :
    (s.insert path cs).InKind := by
  cases s with
  | store entries failing =>
    intro r c hc
    rcases List.mem_append.mp hc with hold | hnew
    · exact h r c hold
    · obtain ⟨d, -, hd⟩ := List.mem_map.mp hnew
      cases hd
      rfl
  | shelf entries => exact h.elim
  | document strict entries => exact h

theorem inKind_emptyStore : Source.emptyStore.InKind := by
  intro r c h
  cases h

theorem inKind_bind (number : Nat) (strict : Bool) (d : Document) :
    (d.bind number strict).value.1.InKind :=
  Document.filedByKind_indexedAll strict _ d

theorem upkeep_inKind : Upkeep Source.InKind where
  emptyStore := inKind_emptyStore
  ofDocument := inKind_bind
  insert _ path cs h := inKind_insert h path cs
  place s _ _ h := by cases s <;> exact h
  failOn s _ h := by cases s <;> exact h

theorem inKind_step {t : Task} (hshelf : t.isShelf = false) {b : Workbench}
    (hb : b.alive.InKind) : (step b t).alive.InKind :=
  upkept_step upkeep_inKind (by rw [hshelf]; simp) hb

/-- **Stores and documents answer in kind in every run.** -/
theorem inKind_run {ts : List Task} (hshelf : ∀ t ∈ ts, t.isShelf = false) :
    (run ts).alive.InKind :=
  upkept_run upkeep_inKind fun t ht => by rw [hshelf t ht]; simp

/-- Shelves aside, sources answer in kind. -/
theorem upkeep_inKind_of_not_shelf : Upkeep fun s => s.isShelf = false → s.InKind where
  emptyStore _ := inKind_emptyStore
  ofDocument number strict d _ := inKind_bind number strict d
  insert s path cs h hs := by
    cases s with
    | shelf entries => cases hs
    | _ => exact inKind_insert (h rfl) path cs
  place s _ _ h hs := by
    cases s with
    | shelf entries => cases hs
    | _ => exact h rfl
  failOn s _ h hs := by
    cases s with
    | shelf entries => cases hs
    | _ => exact h rfl

/-- **Whoever asks no shelf is answered in kind**, also in a run with shelves. -/
theorem asksInKind_run (ts : List Task) {e : Entity} (he : e.AsksNoShelf (run ts).alive) :
    e.AsksInKind (run ts).alive := by
  have hupkept : (run ts).Upkept fun s => s.isShelf = false → s.InKind :=
    upkept_run upkeep_inKind_of_not_shelf fun _ _ _ h => by cases h
  intro s hs
  obtain ⟨number, -, hnumber⟩ := Option.bind_eq_some_iff.mp hs
  exact hupkept _ (Sources.mem_of_source? hnumber) (he s hs)

end ListingMetadata.Workbench
