/-
  ListingMetadata.Workbench
  ─────────────────────────
  **WORKING WITH NAMED ENTITIES, SOURCES AND REGISTRIES.**

  A workbench keeps entities, sources, registries and layouts under names.
  Names stand for copies: what is done to an entity under one name is not seen
  under another.  A source lives as long as its name; entities know it by
  number only, so they outlive it.  Work that fails leaves what it has done so
  far.
-/
import ListingMetadata.Document.Reading
import ListingMetadata.Section.Standard
import ListingMetadata.Source.Fetching

namespace ListingMetadata

open Text

/-! ## §1. The state -/

/-- Why work fails. -/
inductive Complaint where
  /-- Nothing has this name. -/
  | noSuchName (name : String)
  | failure (failure : Failure)
deriving DecidableEq, Repr

/-- Things by name. -/
structure Workbench where
  /-- The number of the next source, registry or changed layout. -/
  next : Nat
  entities : Named Entity
  /-- The numbers of the sources. -/
  sources : Named Nat
  /-- The sources that still exist. -/
  alive : Sources
  registries : Named Registry
  layouts : Named SharedLayout
  /-- The requests so far. -/
  requests : List Event

/-- A workbench with nothing on it. -/
def Workbench.empty : Workbench :=
  ⟨0, [], [], [], [], [], []⟩

/-- Work on a workbench. -/
abbrev Work := ExceptT Complaint (StateT Workbench (Logged Event))

namespace Workbench

/-- The event is a request. -/
def isRequest : Event → Bool
  | .asked _ _ _ => true
  | _ => false

/-- Work done, and the requests in it remembered. -/
def perform {α : Type} (work : Work α) (b : Workbench) :
    Logged Event (Except Complaint α × Workbench) :=
  let done := work.run.run b
  let b' := done.value.2
  ⟨(done.value.1, { b' with requests := b'.requests ++ done.events.filter isRequest }),
    done.events⟩

/-! ## §2. Names -/

/-- What has a name. -/
def named {α : Type} (things : Workbench → Named α) (name : String) : Work α := do
  match (things (← get)).get? name with
  | some x => pure x
  | none => throw (.noSuchName name)

/-- The entity of a name. -/
def entity (name : String) : Work Entity :=
  named Workbench.entities name

/-- An entity put under a name. -/
def keep (name : String) (e : Entity) : Work Unit :=
  modify fun b => { b with entities := b.entities.put name e }

/-- The entities of names. -/
def entitiesOf : List String → Work (List Entity)
  | [] => pure []
  | name :: names => do
    let e ← entity name
    let es ← entitiesOf names
    pure (e :: es)

/-- A number that was not given before. -/
def freshNumber : Work Nat := do
  let b ← get
  set { b with next := b.next + 1 }
  pure b.next

/-- A failure ends the work. -/
def orFail {α : Type} : Except Failure α → Work α
  | .ok x => pure x
  | .error f => throw (.failure f)

/-- A named entity changed. -/
def change (name : String) (f : Entity → Logged Event Entity) : Work Entity := do
  let e ← entity name
  let e' ← f e
  keep name e'
  pure e'

/-! ## §3. Entities -/

/-- Where the layout and the source of a new entity come from. -/
inductive Origin where
  /-- Built-in columns and no source. -/
  | plain
  /-- The layout of a registry and no source. -/
  | registry (name : String)
  /-- Built-in columns and a source. -/
  | source (name : String)

/-- A new entity without attributes. -/
def freshEntity (kind : Kind) (strict : Bool) : Origin → Work Entity
  | .plain => pure (Entity.plain kind strict)
  | .registry name => do
    let r ← named Workbench.registries name
    let (layout, r') := r.layout kind strict
    modify fun b => { b with registries := b.registries.put name r' }
    pure (Entity.fresh kind strict layout)
  | .source name => do
    let number ← named Workbench.sources name
    pure ((Entity.plain kind strict).setSource (some number))

/-- A new entity with attributes set in turn. -/
def create (name : String) (kind : Kind) (strict : Bool) (origin : Origin)
    (attributes : List (String × String)) : Work Entity := do
  let e ← freshEntity kind strict origin
  let e' ← e.setAll attributes
  keep name e'
  pure e'

/-- The entity of a document. -/
def load (name text : String) (strict : Bool) : Work Entity := do
  let d ← orFail ((Document.ofJson text).mapError Failure.json)
  let e ← d.build strict
  keep name e
  pure e

/-- An attribute set in the mode of the entity. -/
def setAttribute (name attributeName text : String) : Work Entity :=
  change name fun e => e.set attributeName text

/-- An attribute set in a mode of the caller. -/
def setAttributeWith (name attributeName text : String) (strict : Bool) : Work Entity := do
  let e ← entity name
  let result ← e.setWith attributeName text strict
  let e' ← orFail (result.mapError Failure.parse)
  keep name e'
  pure e'

/-- An attribute removed, and the value it had. -/
def unsetAttribute (name attributeName : String) : Work (Option Value) := do
  let e ← entity name
  keep name (e.unset attributeName)
  pure (e.head.value? attributeName)

/-- Another type for a name, and the type it had. -/
def replaceType (name attributeName : String) (type : ValueType) : Work (Option ValueType) := do
  let e ← entity name
  let serial ← freshNumber
  keep name (e.replaceType serial attributeName type)
  pure (e.head.layout.layout.typeOf? attributeName)

/-- An entity copied to another name. -/
def copy (name into : String) : Work Unit := do
  let e ← entity name
  keep into e

/-! ## §4. Children -/

/-- A copy of an entity added to another, or the entity moved there; the
children of its kind then. -/
def add (name child : String) (move : Bool) : Work (List Entity) := do
  let c ← entity child
  if move then
    modify fun b => { b with entities := b.entities.drop child }
  let e ← entity name
  let e' ← orFail (e.add c)
  keep name e'
  pure (e'.resolved c.kind)

/-- A result put under a name, if there are both. -/
def keepIn (into : Option String) (e : Option Entity) : Work Unit :=
  match into, e with
  | some name, some e => keep name e
  | _, _ => pure ()

/-- A resolved child removed. -/
def remove (name : String) (kind : Kind) (id : String) (into : Option String) :
    Work (Option Entity) := do
  let e ← entity name
  let (removed, e') := e.remove kind id
  keep name e'
  keepIn into removed
  pure removed

/-- The children of a kind, fetched on first use. -/
def children (name : String) (kind : Kind) : Work (List Entity) := do
  let e ← entity name
  let (found, e') ← e.getChildren (← get).alive kind
  keep name e'
  pure found

/-- A child by kind and id, its kind fetched on first use. -/
def child (name : String) (kind : Kind) (id : String) (into : Option String) :
    Work (Option Entity) := do
  let e ← entity name
  let (found, e') ← e.getChild (← get).alive kind id
  keep name e'
  keepIn into found
  pure found

/-- All kinds of children resolved, down to the leaves. -/
def materialize (name : String) : Work Entity := do
  let b ← get
  change name (Entity.materialize b.alive)

/-- An entity bound to a source, or to none. -/
def bind (name : String) (source : Option String) : Work Entity := do
  let number ←
    match source with
    | none => pure none
    | some s => do
      let n ← named Workbench.sources s
      pure (some n)
  change name fun e => pure (e.setSource number)

/-! ## §5. Sources -/

/-- A source under a name; the one that had the name is gone. -/
def keepSource (name : String) (number : Nat) (source : Source) : Work Unit :=
  modify fun b =>
    let others := b.alive.filter fun s => decide (some s.1 ≠ b.sources.get? name)
    { b with sources := b.sources.put name number, alive := (number, source) :: others }

/-- A new source under a name. -/
def newSource (name : String) (source : Source) : Work Unit := do
  let number ← freshNumber
  keepSource name number source

/-- The number of a named source, and the source. -/
def source (name : String) : Work (Nat × Source) := do
  let number ← named Workbench.sources name
  match (← get).alive.source? number with
  | some s => pure (number, s)
  | none => throw (.noSuchName name)

/-- A named source changed. -/
def changeSource (name : String) (f : Source → Source) : Work Unit := do
  let (number, s) ← source name
  keepSource name number (f s)

/-- Copies of entities put into a store. -/
def insert (name path : String) (entities : List String) : Work Unit := do
  let es ← entitiesOf entities
  changeSource name (Source.insert path es)

/-- Copies of entities put on a shelf. -/
def place (name : String) (kind : Kind) (path : String) (entities : List String) : Work Unit := do
  let es ← entitiesOf entities
  changeSource name (Source.place ⟨kind, path⟩ es)

/-- A store told to fail on a request. -/
def failOn (name : String) (kind : Kind) (path : String) : Work Unit :=
  changeSource name (Source.failOn ⟨kind, path⟩)

/-- How often a source was asked. -/
def askedCount (name : String) : Work Nat := do
  let number ← named Workbench.sources name
  pure (timesAsked number (← get).requests)

/-- A document as a source, and its root bound to it. -/
def bindDocument (name into text : String) (strict : Bool) : Work Entity := do
  let d ← orFail ((Document.ofJson text).mapError Failure.json)
  let number ← freshNumber
  let (s, root) ← d.bind number strict
  keepSource name number s
  keep into root
  pure root

/-- A source asked by hand. -/
def fetch (name : String) (kind : Kind) (path : String) : Work (List Entity) := do
  let (number, s) ← source name
  Logged.tell (Event.asked number kind path)
  let found ← s.answer ⟨kind, path⟩
  orFail found

/-- A source dropped, if there is one. -/
def dropSource (name : String) : Work Bool := do
  let b ← get
  match b.sources.get? name with
  | none => pure false
  | some number =>
    set { b with
      sources := b.sources.drop name
      alive := b.alive.filter fun s => decide (s.1 ≠ number) }
    pure true

/-! ## §6. Registries -/

/-- A new registry over the built-in declarations. -/
def newRegistry (name : String) : Work Unit := do
  let number ← freshNumber
  modify fun b => { b with registries := b.registries.put name (Registry.fresh number) }

/-- A named registry changed. -/
def changeRegistry (name : String) (f : Registry → Registry) : Work Registry := do
  let r ← named Workbench.registries name
  modify fun b => { b with registries := b.registries.put name (f r) }
  pure (f r)

/-- The layout that a registry hands out, kept under a name if one is given. -/
def layout (name : String) (kind : Kind) (strict : Bool) (into : Option String) :
    Work SharedLayout := do
  let r ← named Workbench.registries name
  let (l, r') := r.layout kind strict
  modify fun b => { b with registries := b.registries.put name r' }
  match into with
  | some into => modify fun b => { b with layouts := b.layouts.put into l }
  | none => pure ()
  pure l

/-! ## §7. Output -/

/-- The sections of named entities. -/
def sections (kind : Kind) (mode : Mode) (context : Context) (entities : List String) :
    Work String := do
  let es ← entitiesOf entities
  pure (format kind mode context es)

end Workbench

end ListingMetadata
