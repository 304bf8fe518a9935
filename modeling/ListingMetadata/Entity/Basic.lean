/-
  ListingMetadata.Entity.Basic
  ────────────────────────────
  **ENTITIES AND THEIR CHILDREN.**

  An entity is a head and the children resolved so far.  The children of one
  kind are in the order in which their ids first came; a child added under an
  id that is taken replaces the one that has it.  A child that is added gets
  the path and the source of its new parent, and so does everything below it.
-/
import ListingMetadata.Entity.Head

namespace ListingMetadata

/-! ## §1. The type -/

/-- An entity of a metadata tree. -/
inductive Entity where
  | mk (head : Head) (children : List Entity)
deriving Repr

namespace Entity

/-- The entity without its children. -/
def head : Entity → Head
  | mk h _ => h

/-- The resolved children of all kinds. -/
def children : Entity → List Entity
  | mk _ cs => cs

/-- An entity without attributes, parent, source and children. -/
def fresh (kind : Kind) (strict : Bool) (layout : SharedLayout) : Entity :=
  mk (Head.fresh kind strict layout) []

/-- An entity with the built-in columns of its kind. -/
def plain (kind : Kind) (strict : Bool) : Entity :=
  fresh kind strict (SharedLayout.builtin kind strict)

/-- The same children under another head. -/
def withHead (e : Entity) (h : Head) : Entity :=
  mk h e.children

/-- The kind of an entity. -/
def kind (e : Entity) : Kind :=
  e.head.kind

/-- What tells an entity from its siblings. -/
def id (e : Entity) : String :=
  e.head.id

/-- The ids from the root down to an entity. -/
def path (e : Entity) : String :=
  e.head.path

/-! ## §2. Attributes -/

/-- An attribute set in the mode of the entity. -/
def set (e : Entity) (name text : String) : Logged Event Entity := do
  let h ← e.head.set name text
  pure (e.withHead h)

/-- An attribute set in a mode of the caller. -/
def setWith (e : Entity) (name text : String) (strict : Bool) :
    Logged Event (Except ParseFault Entity) := do
  let result ← e.head.setWith name text strict
  pure (result.map e.withHead)

/-- Several attributes set in turn. -/
def setAll (e : Entity) (pairs : List (String × String)) : Logged Event Entity := do
  let h ← e.head.setAll pairs
  pure (e.withHead h)

/-- Without the value of a name. -/
def unset (e : Entity) (name : String) : Entity :=
  e.withHead (e.head.unset name)

/-- With another type for a name, on a layout of its own. -/
def replaceType (e : Entity) (serial : Nat) (name : String) (type : ValueType) : Entity :=
  e.withHead (e.head.replaceType serial name type)

/-! ## §3. Resolved children -/

/-- The state of the children of a kind. -/
inductive ChildState where
  | unfetched
  | fetched (count : Nat)
  | failed
deriving DecidableEq, Repr

/-- The resolved children of a kind. -/
def resolved (e : Entity) (kind : Kind) : List Entity :=
  match e.head.progress? kind with
  | some .fetched => e.children.filter fun c => decide (c.kind = kind)
  | _ => []

/-- The state of the children of a kind, if they may stand below the entity. -/
def state? (e : Entity) (kind : Kind) : Option ChildState :=
  (e.head.progress? kind).map fun
    | .unfetched => .unfetched
    | .fetched => .fetched (e.resolved kind).length
    | .failed => .failed

/-! ## §4. Placing -/

mutual

/-- An entity and all below it, placed below a path and bound to a source. -/
def placed (parentPath : Option String) (source : Option Nat) : Entity → Entity
  | mk h cs =>
    let h' := h.placed parentPath source
    mk h' (placedAll (some h'.path) source cs)

/-- Siblings placed below a path and bound to a source. -/
def placedAll (parentPath : Option String) (source : Option Nat) : List Entity → List Entity
  | [] => []
  | c :: cs => c.placed parentPath source :: placedAll parentPath source cs

end

theorem placedAll_eq_map (parentPath : Option String) (source : Option Nat) (cs : List Entity) :
    placedAll parentPath source cs = cs.map (placed parentPath source) := by
  induction cs with
  | nil => rfl
  | cons c cs ih => simp [placedAll, ih]

/-- Bound to a source, or to none, with all below it. -/
def setSource (e : Entity) (source : Option Nat) : Entity :=
  e.placed none source

/-! ## §5. Adding and removing -/

/-- Another entity of a kind and id in the place of the first, or else at the
end. -/
def replaceOrAppend (child : Entity) : List Entity → List Entity
  | [] => [child]
  | c :: cs =>
    if c.kind = child.kind ∧ c.id = child.id then child :: cs
    else c :: replaceOrAppend child cs

/-- The children of a kind forgotten, and none fetched in their place. -/
def opened (e : Entity) (kind : Kind) : Entity :=
  mk (e.head.setProgress kind .fetched) (e.children.filter fun c => decide (c.kind ≠ kind))

/-- The children of a kind open for one more: those fetched, otherwise none. -/
def readied (e : Entity) (kind : Kind) : Entity :=
  match e.head.progress? kind with
  | some .fetched => e
  | _ => e.opened kind

/-- Why an entity cannot be a child. -/
def refusal? (parent child : Entity) : Option Failure :=
  if !parent.kind.permits child.kind then some (.childNotPermitted parent.kind child.kind)
  else if child.id = "" then some (.missingId child.kind)
  else none

/-- A child put below an entity without asking whether it may stand there. -/
def adopt (e child : Entity) : Entity :=
  let ready := e.readied child.kind
  mk ready.head
    (replaceOrAppend (child.placed (some e.path) e.head.source) ready.children)

/-- A child added, in the place of one of its kind and id. -/
def add (e child : Entity) : Except Failure Entity :=
  match e.refusal? child with
  | some f => .error f
  | none => .ok (e.adopt child)

/-- A resolved child by kind and id. -/
def resolvedChild? (e : Entity) (kind : Kind) (id : String) : Option Entity :=
  (e.resolved kind).find? fun c => decide (c.id = id)

/-- The first of a kind and id taken out. -/
def removeFirst (kind : Kind) (id : String) : List Entity → List Entity
  | [] => []
  | c :: cs => if c.kind = kind ∧ c.id = id then cs else c :: removeFirst kind id cs

/-- Without a resolved child, which keeps its path and source. -/
def remove (e : Entity) (kind : Kind) (id : String) : Option Entity × Entity :=
  match e.resolvedChild? kind id with
  | some c => (some c, mk e.head (removeFirst kind id e.children))
  | none => (none, e)

/-! ## §6. Going through a tree -/

mutual

/-- The results for an entity and all below it, made from the bottom up: at each
entity from its head and from its children with their results. -/
def fold {α : Type} (f : Head → List (Entity × α) → α) : Entity → α
  | mk h cs => f h (foldAll f cs)

/-- The siblings with their results. -/
def foldAll {α : Type} (f : Head → List (Entity × α) → α) : List Entity → List (Entity × α)
  | [] => []
  | c :: cs => (c, c.fold f) :: foldAll f cs

end

/-- Of the children with their results, those of a kind that is resolved. -/
def resolvedResults {α : Type} (h : Head) (results : List (Entity × α)) (kind : Kind) : List α :=
  match h.progress? kind with
  | some .fetched => (results.filter fun r => decide (r.1.kind = kind)).map Prod.snd
  | _ => []

theorem foldAll_eq_map {α : Type} (f : Head → List (Entity × α) → α) (cs : List Entity) :
    foldAll f cs = cs.map fun c => (c, c.fold f) := by
  induction cs with
  | nil => rfl
  | cons c cs ih => simp [foldAll, ih]

/-- The results of the resolved children of a kind, in their order. -/
theorem resolvedResults_foldAll {α : Type} (f : Head → List (Entity × α) → α) (e : Entity)
    (kind : Kind) :
    resolvedResults e.head (foldAll f e.children) kind = (e.resolved kind).map (fold f) := by
  unfold resolvedResults resolved
  rw [foldAll_eq_map]
  split
  · rw [List.filter_map, List.map_map]
    rfl
  · rfl

end Entity

end ListingMetadata
