/-
  ListingMetadata.Source.Basic
  ────────────────────────────
  **SOURCES OF CHILDREN.**

  A source answers a request for the children of a kind below a path.  A store
  holds entities that were put there one by one and can be told to fail; a
  shelf answers exactly the list put under the request; a document answers the
  roots of the documents that stand at the path, without their children.
-/
import ListingMetadata.Document.Build

namespace ListingMetadata

/-! ## §1. Requests -/

/-- What a source is asked for. -/
structure Request where
  kind : Kind
  path : String
deriving DecidableEq, Repr

/-- The things filed under a request, in their order. -/
def filed {α : Type} (entries : List (Request × α)) (request : Request) : List α :=
  (entries.filter fun e => decide (e.1 = request)).map Prod.snd

/-! ## §2. Sources -/

/-- A source of children. -/
inductive Source where
  | store (entries : List (Request × Entity)) (failing : List Request)
  | shelf (entries : List (Request × Entity))
  | document (strict : Bool) (entries : List (Request × Document))
deriving Repr

namespace Source

/-- A store that holds nothing. -/
def emptyStore : Source :=
  store [] []

/-- A shelf that holds nothing. -/
def emptyShelf : Source :=
  shelf []

/-- With further entities below a path; only stores take them. -/
def insert (path : String) (children : List Entity) : Source → Source
  | store entries failing => store (entries ++ children.map fun c => (⟨c.kind, path⟩, c)) failing
  | other => other

/-- Failing on a request; only stores do. -/
def failOn (request : Request) : Source → Source
  | store entries failing => store entries (failing ++ [request])
  | other => other

/-- With this list as the answer to a request; only shelves take it. -/
def place (request : Request) (children : List Entity) : Source → Source
  | shelf entries =>
    shelf (entries.filter (fun e => decide (e.1 ≠ request)) ++ children.map fun c => (request, c))
  | other => other

/-- What a store says when it fails. -/
def failureReason : String :=
  "simulated collector failure"

/-- The answer to a request. -/
def answer (request : Request) : Source → Logged Event (Except Failure (List Entity))
  | store entries failing =>
    if failing.contains request then pure (.error (.fetch request.kind request.path failureReason))
    else pure (.ok (filed entries request))
  | shelf entries => pure (.ok (filed entries request))
  | document strict entries => do
    let leaves ← Logged.each (Document.leaf strict) (filed entries request)
    pure (.ok leaves)

end Source

/-! ## §3. Documents as sources -/

namespace Document

mutual

/-- The entries of a document that stands below a path. -/
def indexed (strict : Bool) (path : String) : Document →
    Logged Event (List (Request × Document))
  | mk k as cs => do
    let h ← Head.ofWire strict k as
    let below ← indexedAll strict (path ++ ":" ++ h.id) cs
    pure ((⟨k, path⟩, mk k as cs) :: below)

/-- The entries of documents that stand below a path. -/
def indexedAll (strict : Bool) (path : String) : List Document →
    Logged Event (List (Request × Document))
  | [] => pure []
  | d :: ds => do
    let entries ← d.indexed strict path
    let more ← indexedAll strict path ds
    pure (entries ++ more)

end

/-- A document as a source, and the entity of its root bound to the source of
that number. -/
def bind (number : Nat) (strict : Bool) (d : Document) : Logged Event (Source × Entity) := do
  let root ← d.leaf strict
  let entries ← indexedAll strict root.path d.children
  pure (.document strict entries, root.setSource (some number))

end Document

end ListingMetadata
