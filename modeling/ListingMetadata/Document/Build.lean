/-
  ListingMetadata.Document.Build
  ──────────────────────────────
  **FROM DOCUMENTS TO ENTITIES AND BACK.**

  Building turns a document into a tree that is resolved as far as the document
  goes: a kind of children that has none in the document stays unfetched.  A
  child that cannot be added is left out with all below it, and told.  The
  snapshot of an entity is the document of what is resolved, its texts being
  the canonical ones.
-/
import ListingMetadata.Document.Basic
import ListingMetadata.Entity.Basic

namespace ListingMetadata

open Text

/-! ## §1. Building -/

/-- The head of an entity with built-in columns and attributes set in turn. -/
def Head.ofWire (strict : Bool) (kind : Kind) (attributes : Named String) : Logged Event Head :=
  (Head.fresh kind strict (SharedLayout.builtin kind strict)).setAll attributes

namespace Document

/-- The root alone; its children stay unfetched. -/
def leaf (strict : Bool) : Document → Logged Event Entity
  | mk k as _ => do
    let h ← Head.ofWire strict k as
    pure (Entity.mk h [])

mutual

/-- The entity of a document, with the children of the document. -/
def build (strict : Bool) : Document → Logged Event Entity
  | mk k as cs => do
    let h ← Head.ofWire strict k as
    buildBelow strict (Entity.mk h []) cs

/-- An entity with further children of documents. -/
def buildBelow (strict : Bool) (e : Entity) : List Document → Logged Event Entity
  | [] => pure e
  | d :: ds => do
    let child ← d.build strict
    match e.add child with
    | .ok e' => buildBelow strict e' ds
    | .error f =>
      Logged.tell (.skippedChild e.path f)
      buildBelow strict e ds

end

end Document

/-! ## §2. Snapshots -/

/-- The attributes of an entity on the wire: canonical texts of declared
attributes, and the undeclared texts. -/
def Head.wire (h : Head) : Named String :=
  Named.ofPairs ((h.knownNames.filterMap fun n => (h.text? n).map fun s => (n, s)) ++ h.extras)

/-- The document of an entity and its resolved children, by kind. -/
def Entity.snapshot : Entity → Document :=
  Entity.fold fun h results =>
    Document.mk h.kind h.wire (h.kind.childKinds.flatMap (Entity.resolvedResults h results))

end ListingMetadata
