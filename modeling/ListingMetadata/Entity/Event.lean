/-
  ListingMetadata.Entity.Event
  ────────────────────────────
  **WHAT HAPPENS WHILE ENTITIES ARE BUILT AND READ.**

  Most events are lines of the log.  That a source was asked is not; it is kept
  to count how often a source was asked.
-/
import ListingMetadata.Failure
import ListingMetadata.Log

namespace ListingMetadata

/-- Something that happened. -/
inductive Event where
  /-- A text that breaks its grammar was kept. -/
  | keptLoosely (fault : ParseFault)
  /-- An attribute was asked for as a value of another family. -/
  | familyDiffers (kind : Kind) (attributeName : String) (expected declared : Family)
  /-- A text that breaks its grammar was refused. -/
  | refusedText (entity attributeName text : String) (fault : ParseFault)
  /-- An attribute was set that is neither declared nor an extension. -/
  | unknownAttribute (kind : Kind) (attributeName : String)
  /-- A fetched child cannot be added. -/
  | droppedChild (path : String) (kind : Kind) (failure : Failure)
  /-- A source failed. -/
  | fetchFailed (entity : String) (kind : Kind) (failure : Failure)
  /-- A child in a document cannot be added. -/
  | skippedChild (parent : String) (failure : Failure)
  /-- A source was asked for children. -/
  | asked (source : Nat) (kind : Kind) (path : String)
deriving DecidableEq, Repr

/-- The line of the log that an event leaves. -/
def Event.line? : Event → Option LogLine
  | .keptLoosely fault =>
    some ⟨.warning, "keeping loosely parsed value: " ++ fault.message,
      [("grammar", fault.grammar), ("value", fault.text)]⟩
  | .familyDiffers kind attributeName expected declared =>
    some ⟨.warning,
      "type mismatch, expected " ++ expected.name ++ " but got " ++ declared.name,
      [("kind", kind.typeName), ("attribute", attributeName)]⟩
  | .refusedText entity attributeName text fault =>
    some ⟨.warning, "couldn't parse attribute: " ++ fault.message,
      [("entity", entity), ("attribute", attributeName), ("value", text)]⟩
  | .unknownAttribute kind attributeName =>
    some ⟨.warning, "unknown attribute",
      [("kind", kind.typeName), ("attribute", attributeName)]⟩
  | .droppedChild path kind failure =>
    some ⟨.warning, "dropping fetched child: " ++ failure.message,
      [("path", path), ("kind", kind.typeName)]⟩
  | .fetchFailed entity kind failure =>
    some ⟨.error, "unable to fetch children: " ++ failure.message,
      [("entity", entity), ("kind", kind.typeName)]⟩
  | .skippedChild parent failure =>
    some ⟨.warning, "skipping document child: " ++ failure.message, [("parent", parent)]⟩
  | .asked _ _ _ => none

/-- The lines of the log that events leave. -/
def logLines (events : List Event) : List LogLine :=
  events.filterMap Event.line?

/-- How often a source was asked. -/
def timesAsked (source : Nat) (events : List Event) : Nat :=
  events.countP fun
    | .asked s _ _ => decide (s = source)
    | _ => false

end ListingMetadata
