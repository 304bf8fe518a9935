/-
  ListingMetadata.Kind.Basic
  ──────────────────────────
  **KINDS OF METADATA ENTITIES.**

  A listing system describes itself by entities of seventeen kinds.  What a
  kind looks like never varies: its names, the attribute that identifies an
  entity among its siblings, the kinds of its children and the header keys of
  its sections.  Children always have a lower rank than their parent, so no
  tree is deeper than five levels.
-/
import ListingMetadata.Text.Fold

namespace ListingMetadata

open Text

/-! ## §1. The kinds -/

/-- The kinds of entities. -/
inductive Kind where
  | system
  | resource
  | propertyClass
  | table
  | update
  | updateType
  | object
  | searchHelp
  | editMask
  | lookup
  | lookupType
  | validationLookup
  | validationLookupType
  | validationExternal
  | validationExternalType
  | validationExpression
  | foreignKey
deriving DecidableEq, Repr

namespace Kind

/-- All kinds, in their order. -/
def all : List Kind :=
  [system, resource, propertyClass, table, update, updateType, object, searchHelp, editMask, lookup,
   lookupType, validationLookup, validationLookupType, validationExternal,
   validationExternalType, validationExpression, foreignKey]

/-- The name of a kind, which is also the id of an entity without an id
attribute. -/
def typeName : Kind → String
  | system => "System"
  | resource => "Resource"
  | propertyClass => "Class"
  | table => "Table"
  | update => "Update"
  | updateType => "UpdateType"
  | object => "Object"
  | searchHelp => "SearchHelp"
  | editMask => "EditMask"
  | lookup => "Lookup"
  | lookupType => "LookupType"
  | validationLookup => "ValidationLookup"
  | validationLookupType => "ValidationLookupType"
  | validationExternal => "ValidationExternal"
  | validationExternalType => "ValidationExternalType"
  | validationExpression => "ValidationExpression"
  | foreignKey => "ForeignKey"

/-- The name of a kind in section tags. -/
def wireName : Kind → String
  | system => "SYSTEM"
  | resource => "RESOURCE"
  | propertyClass => "CLASS"
  | table => "TABLE"
  | update => "UPDATE"
  | updateType => "UPDATE_TYPE"
  | object => "OBJECT"
  | searchHelp => "SEARCH_HELP"
  | editMask => "EDITMASK"
  | lookup => "LOOKUP"
  | lookupType => "LOOKUP_TYPE"
  | validationLookup => "VALIDATION_LOOKUP"
  | validationLookupType => "VALIDATION_LOOKUP_TYPE"
  | validationExternal => "VALIDATION_EXTERNAL"
  | validationExternalType => "VALIDATION_EXTERNAL_TYPE"
  | validationExpression => "VALIDATION_EXPRESSION"
  | foreignKey => "FOREIGNKEYS"

/-- The element of one entity in STANDARD-XML. -/
def elementName : Kind → String
  | table => "Field"
  | k => k.typeName

/-- The attribute that identifies an entity among its siblings. -/
def idAttribute? : Kind → Option String
  | system => none
  | resource => some "ResourceID"
  | propertyClass => some "ClassName"
  | table => some "SystemName"
  | update => some "UpdateName"
  | updateType => some "SystemName"
  | object => some "ObjectType"
  | searchHelp => some "SearchHelpID"
  | editMask => some "EditMaskID"
  | lookup => some "LookupName"
  | lookupType => some "Value"
  | validationLookup => some "ValidationLookupName"
  | validationLookupType => some "ValidText"
  | validationExternal => some "ValidationExternalName"
  | validationExternalType => some "SearchField"
  | validationExpression => some "ValidationExpressionID"
  | foreignKey => some "ForeignKeyID"

/-! ## §2. The hierarchy -/

/-- The kinds that children may have, in the order of their sections. -/
def childKinds : Kind → List Kind
  | system => [resource, foreignKey]
  | resource => [propertyClass, object, searchHelp, editMask, lookup, validationLookup,
      validationExternal, validationExpression]
  | propertyClass => [table, update]
  | update => [updateType]
  | lookup => [lookupType]
  | validationLookup => [validationLookupType]
  | validationExternal => [validationExternalType]
  | _ => []

/-- A child of the second kind may stand under the first. -/
def permits (parent child : Kind) : Bool :=
  parent.childKinds.contains child

/-- The levels that may stand below an entity. -/
def rank : Kind → Nat
  | system => 4
  | resource => 3
  | propertyClass => 2
  | update => 1
  | lookup => 1
  | validationLookup => 1
  | validationExternal => 1
  | _ => 0

/-- Children have a lower rank than their parent. -/
theorem rank_lt_of_mem_childKinds {parent child : Kind} (h : child ∈ parent.childKinds) :
    child.rank < parent.rank := by
  have below : ∀ c ∈ parent.childKinds, c.rank < parent.rank := by cases parent <;> decide
  exact below child h

/-- No kind is listed twice below a kind. -/
theorem nodup_childKinds (k : Kind) : k.childKinds.Nodup := by
  cases k <;> decide

/-! ## §3. Section headers -/

/-- The header key under which an entity's id is passed on to the sections
below it. -/
def contextKey? : Kind → Option String
  | resource => some "Resource"
  | propertyClass => some "Class"
  | update => some "Update"
  | lookup => some "Lookup"
  | validationLookup => some "ValidationLookup"
  | validationExternal => some "ValidationExternal"
  | _ => none

/-- The header keys of a section, before version and date. -/
def headerKeys : Kind → List String
  | system => []
  | resource => []
  | foreignKey => []
  | table => ["Resource", "Class"]
  | update => ["Resource", "Class"]
  | updateType => ["Resource", "Class", "Update"]
  | lookupType => ["Resource", "Lookup"]
  | validationLookupType => ["Resource", "ValidationLookup"]
  | validationExternalType => ["Resource", "ValidationExternal"]
  | _ => ["Resource"]

/-! ## §4. Names -/

/-- The kind of a type name or wire name, in any case. -/
def ofName? (name : String) : Option Kind :=
  all.find? fun k => sameFolded k.typeName name || sameFolded k.wireName name

end Kind

end ListingMetadata
