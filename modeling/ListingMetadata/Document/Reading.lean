/-
  ListingMetadata.Document.Reading
  ────────────────────────────────
  **READING DOCUMENTS.**

  A document is an object with the members `kind`, `attributes` and `children`,
  in any order; the last two may be left out, others are passed over.  It may
  also be given as a list of the three in that order.  The first fault in the
  order of the text decides.
-/
import ListingMetadata.Document.Basic
import ListingMetadata.Json.Draft

namespace ListingMetadata.Document

open Json Text

/-! ## §1. Kinds and attributes -/

/-- The kind of an index among the names of all kinds. -/
def kindAt (i : Nat) : Kind :=
  Kind.all.getD i .system

/-- A kind by its type name. -/
def kindOf (depth : Nat) (d : Draft) : Except Fault Kind :=
  d.variant (Kind.all.map Kind.typeName) (fun i => .ok (kindAt i))
    (fun i content => content.asNull.map fun _ => kindAt i) depth

/-- Attributes, a repeated name having its last text. -/
def attributesFrom (sofar : Named String) : List (Lexeme String × Draft) →
    Except Fault (Named String)
  | [] => .ok sofar
  | (name, value) :: rest => do
    let n ← name.value
    let s ← value.asText "a string"
    attributesFrom (sofar.put n s) rest

/-- The attributes of a document. -/
def attributesOf (depth : Nat) : Draft → Except Fault (Named String)
  | .object members ending => do
    let _ ← enter depth
    let as ← attributesFrom [] members
    match ending.objectFault with
    | none => .ok as
    | some f => .error f
  | .unnamed => do
    let _ ← enter depth
    .error (.malformed .keyNotText)
  | d => .error (d.wrong "a map")

/-! ## §2. Documents -/

/-- The members of a document found so far. -/
structure Parts where
  kind : Option Kind
  attributes : Option (Named String)
  children : Option (List Document)

/-- No members yet. -/
def Parts.none : Parts :=
  ⟨.none, .none, .none⟩

/-- The document of its members. -/
def Parts.document (p : Parts) : Except Fault Document :=
  match p.kind with
  | .none => .error (.mismatched (.missingField "kind"))
  | some k => .ok (Document.mk k (p.attributes.getD []) (p.children.getD []))

/-- What a reader expects where a document should be. -/
def expected : String := "struct MetadataDocument"

/-- The fault of a list that does not end after the members of a document. -/
def Ending.surplus : Ending → Option Fault
  | .closed => none
  | .cut => some (.ended .list)
  | .commaClosed => some (.malformed .trailingComma)
  | _ => some (.malformed .trailingText)

mutual

/-- The document of a draft. -/
def ofDraft (depth : Nat) : Draft → Except Fault Document
  | .object members ending => do
    let inside ← enter depth
    let parts ← ofMembers inside Parts.none members
    match ending.objectFault with
    | some f => .error f
    | none => parts.document
  | .list items ending => do
    let inside ← enter depth
    ofItems inside 0 Parts.none items ending
  | .unnamed => do
    let _ ← enter depth
    .error (.malformed .keyNotText)
  | d => .error (d.wrong expected)

/-- The members of a document given by name. -/
def ofMembers (depth : Nat) (p : Parts) : List (Lexeme String × Draft) → Except Fault Parts
  | [] => .ok p
  | (name, value) :: rest => do
    let n ← name.value
    if n = "kind" then
      if p.kind.isSome then .error (.mismatched (.duplicateField n))
      else
        let k ← kindOf depth value
        ofMembers depth { p with kind := some k } rest
    else if n = "attributes" then
      if p.attributes.isSome then .error (.mismatched (.duplicateField n))
      else
        let as ← attributesOf depth value
        ofMembers depth { p with attributes := some as } rest
    else if n = "children" then
      if p.children.isSome then .error (.mismatched (.duplicateField n))
      else
        let cs ← ofChildren depth value
        ofMembers depth { p with children := some cs } rest
    else
      match value.skipped with
      | some f => .error f
      | none => ofMembers depth p rest

/-- The members of a document given by place. -/
def ofItems (depth place : Nat) (p : Parts) : List Draft → Ending → Except Fault Document
  | [], ending =>
    match if place < 3 then ending.listFault else Ending.surplus ending with
    | some f => .error f
    | none =>
      if place = 0 then
        .error (.mismatched (.wrongLength 0 (expected ++ " with 3 elements")))
      else p.document
  | value :: rest, ending =>
    match place with
    | 0 => do
      let k ← kindOf depth value
      ofItems depth 1 { p with kind := some k } rest ending
    | 1 => do
      let as ← attributesOf depth value
      ofItems depth 2 { p with attributes := some as } rest ending
    | 2 => do
      let cs ← ofChildren depth value
      ofItems depth 3 { p with children := some cs } rest ending
    | _ => .error (.malformed .trailingText)

/-- The children of a document. -/
def ofChildren (depth : Nat) : Draft → Except Fault (List Document)
  | .list items ending => do
    let inside ← enter depth
    let ds ← ofDrafts inside items
    match ending.listFault with
    | some f => .error f
    | none => .ok ds
  | d => .error (d.wrong "a sequence")

/-- The documents of drafts. -/
def ofDrafts (depth : Nat) : List Draft → Except Fault (List Document)
  | [] => .ok []
  | d :: ds => do
    let document ← ofDraft depth d
    let documents ← ofDrafts depth ds
    .ok (document :: documents)

end

/-- The document of a JSON text. -/
def ofJson (text : String) : Except Fault Document := do
  let (draft, trailing) := draftOf text
  let d ← ofDraft depthLimit draft
  match trailing with
  | none => .ok d
  | some f => .error f

end ListingMetadata.Document
