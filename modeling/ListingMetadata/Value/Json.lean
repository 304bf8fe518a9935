/-
  ListingMetadata.Value.Json
  ──────────────────────────
  **ATTRIBUTE VALUES AS JSON.**

  A value is an object whose only member is named for the family.
-/
import ListingMetadata.Calendar.Internet
import ListingMetadata.Json.Draft
import ListingMetadata.Value.Basic

namespace ListingMetadata

open Json Calendar

/-- The family names in the order of their declaration. -/
def familyTags : List String :=
  [Family.text, .integer, .boolean, .date].map Family.tag

/-- A value as JSON. -/
def Value.toJson (v : Value) : Tree :=
  .object [(v.family.tag,
    match v with
    | .text s => .text s
    | .int v => .whole v
    | .bool b => .bool b
    | .date t => .text t.fullText)]

/-- A date in a document. -/
def dateOf (d : Draft) : Except Fault Instant := do
  let s ← d.asText "an RFC 3339 formatted date and time string"
  match readRoomy s with
  | .ok t => .ok t
  | .error f => .error (.mismatched (.badDate f))

/-- The value of a draft. -/
def Value.ofDraft (d : Draft) : Except Fault Value :=
  d.variant familyTags
    (fun _ => .error (.mismatched (.wrongType .bareVariant "newtype variant")))
    (fun i content =>
      match i with
      | 0 => (content.asText "a string").map .text
      | 1 => content.asInt.map .int
      | 2 => content.asBool.map .bool
      | _ => (dateOf content).map .date)
    depthLimit

/-- The value of a JSON text. -/
def Value.ofJson (text : String) : Except Fault Value := do
  let (draft, trailing) := draftOf text
  let v ← Value.ofDraft draft
  match trailing with
  | none => .ok v
  | some f => .error f

end ListingMetadata
