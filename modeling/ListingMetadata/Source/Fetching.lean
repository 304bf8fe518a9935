/-
  ListingMetadata.Source.Fetching
  ───────────────────────────────
  **FETCHING CHILDREN.**

  The children of a kind are asked for once, on first use: afterwards they are
  fetched, or have failed for good.  An entity without a source, or whose
  source is gone, has no children to fetch.  Fetched children are added one by
  one; one that cannot be added is left out and told.
-/
import ListingMetadata.Source.Basic

namespace ListingMetadata

/-! ## §1. The sources there are -/

/-- The sources that still exist, by number. -/
abbrev Sources := List (Nat × Source)

/-- The source of a number. -/
def Sources.source? (sources : Sources) (number : Nat) : Option Source :=
  sources.lookup number

namespace Entity

/-! ## §2. One kind of children -/

/-- The fetched children added one by one. -/
def takeIn (asked : Kind) : Entity → List Entity → Logged Event Entity
  | e, [] => pure e
  | e, c :: cs =>
    match e.add c with
    | .ok e' => takeIn asked e' cs
    | .error f => do
      Logged.tell (.droppedChild e.path asked f)
      takeIn asked e cs

/-- The children of a kind asked for. -/
def fetch (sources : Sources) (e : Entity) (kind : Kind) : Logged Event Entity :=
  match e.head.source with
  | none => pure (e.opened kind)
  | some number =>
    match sources.source? number with
    | none => pure (e.opened kind)
    | some source => do
      Logged.tell (.asked number kind e.path)
      match ← source.answer ⟨kind, e.path⟩ with
      | .ok found => takeIn kind (e.opened kind) found
      | .error f => do
        Logged.tell (.fetchFailed e.head.shown kind f)
        pure (e.withHead (e.head.setProgress kind .failed))

/-- The children of a kind asked for if they never were. -/
def resolve (sources : Sources) (e : Entity) (kind : Kind) : Logged Event Entity :=
  if e.head.progress? kind = some .unfetched then e.fetch sources kind else pure e

/-- The children of a kind, and the entity after fetching them. -/
def getChildren (sources : Sources) (e : Entity) (kind : Kind) :
    Logged Event (List Entity × Entity) := do
  let e' ← e.resolve sources kind
  pure (e'.resolved kind, e')

/-- A child by kind and id, and the entity after fetching its kind. -/
def getChild (sources : Sources) (e : Entity) (kind : Kind) (id : String) :
    Logged Event (Option Entity × Entity) := do
  let e' ← e.resolve sources kind
  pure (e'.resolvedChild? kind id, e')

/-! ## §3. The whole tree -/

/-- The resolved children of a kind changed one by one. -/
def eachChild (f : Entity → Logged Event Entity) (e : Entity) (kind : Kind) :
    Logged Event Entity :=
  match e.head.progress? kind with
  | some .fetched => do
    let cs ← Logged.each (fun c => if c.kind = kind then f c else pure c) e.children
    pure (mk e.head cs)
  | _ => pure e

/-- An entity with all kinds of children resolved, down to a depth. -/
def materializeTo (sources : Sources) : Nat → Entity → Logged Event Entity
  | 0, e => pure e
  | depth + 1, e =>
    Logged.steps (fun e kind => do
        let e' ← e.resolve sources kind
        eachChild (materializeTo sources depth) e' kind)
      e e.kind.childKinds

/-- An entity with all kinds of children resolved, down to the leaves. -/
def materialize (sources : Sources) (e : Entity) : Logged Event Entity :=
  materializeTo sources e.kind.rank e

end Entity

end ListingMetadata
