/-
  ListingMetadata.Document.Basic
  ──────────────────────────────
  **DOCUMENTS: METADATA TREES AS TEXTS.**

  A document holds what an entity is on the wire: a kind, attributes as texts,
  and the documents of its children.  Nothing about it is checked, so it may
  hold texts that break their grammar and children that are not permitted.
  As JSON, the attributes are always written, the children only if there are
  any.
-/
import ListingMetadata.Json.Tree
import ListingMetadata.Kind.Basic
import ListingMetadata.Text.Named

namespace ListingMetadata

open Json Text

/-! ## §1. The type -/

/-- A metadata tree as texts. -/
inductive Document where
  | mk (kind : Kind) (attributes : Named String) (children : List Document)
deriving Repr

namespace Document

/-- The kind of the root. -/
def kind : Document → Kind
  | mk k _ _ => k

/-- The attributes of the root. -/
def attributes : Document → Named String
  | mk _ as _ => as

/-- The documents below the root. -/
def children : Document → List Document
  | mk _ _ cs => cs

/-! ## §2. Equality -/

mutual

/-- The documents agree in everything. -/
def same : Document → Document → Bool
  | mk k as cs, mk k' as' cs' => decide (k = k') && decide (as = as') && sameAll cs cs'

/-- The documents agree one by one. -/
def sameAll : List Document → List Document → Bool
  | [], [] => true
  | d :: ds, e :: es => d.same e && sameAll ds es
  | _, _ => false

end

mutual

theorem eq_of_same : ∀ d e : Document, d.same e = true → d = e
  | mk k as cs, mk k' as' cs', h => by
    simp only [same, Bool.and_eq_true, decide_eq_true_eq] at h
    obtain ⟨⟨rfl, rfl⟩, h⟩ := h
    rw [eq_of_sameAll cs cs' h]

theorem eq_of_sameAll : ∀ ds es : List Document, sameAll ds es = true → ds = es
  | [], [], _ => rfl
  | d :: ds, e :: es, h => by
    simp only [sameAll, Bool.and_eq_true] at h
    rw [eq_of_same d e h.1, eq_of_sameAll ds es h.2]
  | [], _ :: _, h => by simp [sameAll] at h
  | _ :: _, [], h => by simp [sameAll] at h

end

mutual

theorem same_self : ∀ d : Document, d.same d = true
  | mk k as cs => by simp [same, sameAll_self cs]

theorem sameAll_self : ∀ ds : List Document, sameAll ds ds = true
  | [] => rfl
  | d :: ds => by simp [sameAll, same_self d, sameAll_self ds]

end

instance : DecidableEq Document := fun d e =>
  if h : d.same e = true then isTrue (eq_of_same d e h)
  else isFalse fun he => h (he ▸ same_self d)

/-! ## §3. As JSON -/

/-- Attributes as members of an object. -/
def attributeMembers (as : Named String) : List (String × Tree) :=
  as.map fun (name, text) => (name, .text text)

mutual

/-- A document as JSON. -/
def toTree : Document → Tree
  | mk k as [] =>
    .object [("kind", .text k.typeName), ("attributes", .object (attributeMembers as))]
  | mk k as (c :: cs) =>
    .object [("kind", .text k.typeName), ("attributes", .object (attributeMembers as)),
      ("children", .list (c.toTree :: toTrees cs))]

/-- Documents as JSON, one by one. -/
def toTrees : List Document → List Tree
  | [] => []
  | d :: ds => d.toTree :: toTrees ds

end

/-- The text of a document. -/
def toJson (d : Document) : String :=
  d.toTree.renderIndented

end Document

end ListingMetadata
