/-
  ListingMetadata.Section.Basic
  ─────────────────────────────
  **SECTIONS.**

  A section lists entities of one kind, its records, under a header.  A record
  may have sections of its own, one for each kind of children that has any, in
  the order of the kinds.  What a section shows is settled here; how it is
  written depends on the mode.
-/
import ListingMetadata.Section.Context

namespace ListingMetadata

/-! ## §1. The types -/

mutual

/-- A header and the records below it. -/
inductive Section where
  | mk (kind : Kind) (context : Context) (records : List Record)

/-- An entity and the sections embedded in it. -/
inductive Record where
  | mk (head : Head) (embedded : List Section)

end

/-- The entity of a record. -/
def Record.head : Record → Head
  | mk h _ => h

/-- The sections embedded in a record. -/
def Record.embedded : Record → List Section
  | mk _ ss => ss

/-- A section of records, if there are any. -/
def Section.ofRecords? (kind : Kind) (context : Context) : List Record → Option Section
  | [] => none
  | r :: rs => some (Section.mk kind context (r :: rs))

/-! ## §2. Sections of entities -/

/-- The record of an entity in a section of a context.  The sections embedded
in it are headed by the context and the id of the entity. -/
def Entity.record : Entity → Context → Record :=
  Entity.fold fun h results context =>
    let inner := context.nested h
    Record.mk h (h.kind.childKinds.filterMap fun kind =>
      Section.ofRecords? kind inner
        ((Entity.resolvedResults h results kind).map fun record => record inner))

/-- The section of the entities of a kind, if there are any. -/
def Section.of? (kind : Kind) (context : Context) (entities : List Entity) : Option Section :=
  Section.ofRecords? kind context
    ((entities.filter fun e => decide (e.kind = kind)).map fun e => e.record context)

end ListingMetadata
