/-
  ListingMetadata.Entity.Head
  ───────────────────────────
  **WHAT AN ENTITY HOLDS ON ITS OWN.**

  The head of an entity is all of it but its children: its attributes, the
  layout that they are read through, the path of its parent, the source of its
  children, and how far the children of each kind are resolved.  A declared
  name is looked up through the layout, so an entity with a lenient layout
  takes it in any case; an undeclared name stands for itself.
-/
import ListingMetadata.Entity.Event
import ListingMetadata.Layout.Registry
import ListingMetadata.Text.Named
import ListingMetadata.Value.Reading

namespace ListingMetadata

open Text

/-! ## §1. The type -/

/-- How far the children of a kind are resolved. -/
inductive Progress where
  | unfetched
  | fetched
  | failed
deriving DecidableEq, Repr

/-- An entity without its children. -/
structure Head where
  kind : Kind
  strict : Bool
  parentPath : Option String
  layout : SharedLayout
  values : Named Value
  /-- The kinds of children that may stand below, in their order. -/
  slots : List (Kind × Progress)
  /-- The number of the source of the children. -/
  source : Option Nat
deriving DecidableEq, Repr

/-- Nothing is fetched yet. -/
def freshSlots (kind : Kind) : List (Kind × Progress) :=
  kind.childKinds.map fun k => (k, Progress.unfetched)

/-- The value of a text in either mode; it is told when lenient reading keeps what
strict reading refuses. -/
def ValueType.read (t : ValueType) (text : String) (strict : Bool) :
    Logged Event (Except ParseFault Value) :=
  match t.strict text with
  | .ok v => pure (.ok v)
  | .error reason =>
    if strict then pure (.error (t.fault text reason))
    else do
      Logged.tell (.keptLoosely (t.fault text reason))
      pure (.ok (t.lenient text))

/-- Telling aside, a text is read as its type says. -/
theorem ValueType.value_read (t : ValueType) (text : String) (strict : Bool) :
    (t.read text strict).value = t.parse text strict := by
  unfold ValueType.read ValueType.parse
  cases t.strict text with
  | ok v => rfl
  | error reason => cases strict <;> rfl

namespace Head

/-- An entity without attributes, parent and source. -/
def fresh (kind : Kind) (strict : Bool) (layout : SharedLayout) : Head :=
  ⟨kind, strict, none, layout, [], freshSlots kind, none⟩

/-! ## §2. Reading attributes -/

/-- The declaration of a name. -/
def column? (h : Head) (name : String) : Option Column :=
  h.layout.layout.find? name

/-- The name under which the value of a name is kept. -/
def keptName (h : Head) (name : String) : String :=
  ((h.column? name).map Column.name).getD name

/-- The value of a name. -/
def value? (h : Head) (name : String) : Option Value :=
  h.values.get? (h.keptName name)

/-- The text of a name's value: canonical if declared, otherwise as it is. -/
def text? (h : Head) (name : String) : Option String :=
  match h.column? name with
  | some c => (h.values.get? c.name).map c.type.render
  | none => (h.values.get? name).map Value.labelled

/-- The declared names. -/
def knownNames (h : Head) : List String :=
  h.layout.layout.names

/-- The undeclared names that have a text, with it. -/
def extras (h : Head) : List (String × String) :=
  h.values.filterMap fun (name, value) =>
    if h.layout.layout.declares name then none else value.text?.map fun s => (name, s)

/-- A complete entity has a value for the name. -/
def requires (h : Head) (name : String) : Bool :=
  (h.column? name).any Column.required

/-- The names without a value that a complete entity has one for. -/
def missing (h : Head) : List String :=
  (h.layout.layout.columns.filter fun c => c.required && !h.values.has c.name).map Column.name

/-! ## §3. Identity -/

/-- What tells the entity from its siblings; empty if its attribute is unset. -/
def id (h : Head) : String :=
  match h.kind.idAttribute? with
  | some name => (h.text? name).getD ""
  | none => h.kind.typeName

/-- A path and an id below it; below the empty path the id stands alone. -/
def below (parent id : String) : String :=
  if parent = "" then id else parent ++ ":" ++ id

/-- The ids from the root down to the entity. -/
def path (h : Head) : String :=
  below (h.parentPath.getD "") h.id

/-- The kind and all declared attributes. -/
def shown (h : Head) : String :=
  h.kind.typeName ++ "["
    ++ joined "," (h.knownNames.map fun n => n ++ "=" ++ (h.text? n).getD "") ++ "]"

/-! ## §4. Reading attributes of one family -/

/-- The value of a name that is declared with values of a family. -/
def valueOf (h : Head) (expected : Family) (name : String) : Logged Event (Option Value) :=
  match h.column? name with
  | none => pure none
  | some c =>
    if c.type.family = expected then pure (h.values.get? c.name)
    else do
      Logged.tell (.familyDiffers h.kind name expected c.type.family)
      pure none

/-- The text of an attribute of texts. -/
def readText (h : Head) (name : String) : Logged Event (Option String) := do
  let v ← h.valueOf .text name
  pure (v.bind Value.text?)

/-- The number of an attribute of numbers, otherwise 0. -/
def readInt (h : Head) (name : String) : Logged Event Int := do
  let v ← h.valueOf .integer name
  pure ((v.bind Value.int?).getD 0)

/-- The truth value of an attribute of truth values, otherwise false. -/
def readBool (h : Head) (name : String) : Logged Event Bool := do
  let v ← h.valueOf .boolean name
  pure ((v.bind Value.bool?).getD false)

/-- The instant of an attribute of dates. -/
def readDate (h : Head) (name : String) : Logged Event (Option Calendar.Instant) := do
  let v ← h.valueOf .date name
  pure (v.bind Value.date?)

/-! ## §5. Changing attributes -/

/-- The name is one of an extension, which need not be declared. -/
def isExtension (name : String) : Bool :=
  name.toList.take 2 = ['X', '-']

/-- The head with a value under a name that values are kept by. -/
def keep (h : Head) (name : String) (value : Value) : Head :=
  { h with values := h.values.put name value }

/-- A text read as the value of a name, in a mode of the caller. -/
def store (h : Head) (name text : String) (strict : Bool) :
    Logged Event (Except ParseFault Head) :=
  match h.column? name with
  | some c => do
    match ← c.type.read text strict with
    | .ok v => pure (.ok (h.keep c.name v))
    | .error f => pure (.error { f with attributeName := c.name })
  | none =>
    if isExtension name then pure (.ok (h.keep name (.text text)))
    else do
      Logged.tell (.unknownAttribute h.kind name)
      pure (.ok (h.keep name (.text text)))

/-- An attribute set in a mode of the caller; a refused text is told. -/
def setWith (h : Head) (name text : String) (strict : Bool) :
    Logged Event (Except ParseFault Head) := do
  match ← h.store name text strict with
  | .ok h' => pure (.ok h')
  | .error f =>
    Logged.tell (.refusedText h.shown name text f)
    pure (.error f)

/-- An attribute set in the mode of the entity; a refused text leaves it as it
was. -/
def set (h : Head) (name text : String) : Logged Event Head := do
  match ← h.setWith name text h.strict with
  | .ok h' => pure h'
  | .error _ => pure h

/-- Several attributes set in turn. -/
def setAll (h : Head) (pairs : List (String × String)) : Logged Event Head :=
  Logged.steps (fun h (name, text) => h.set name text) h pairs

/-- Without the value of a name. -/
def unset (h : Head) (name : String) : Head :=
  { h with values := h.values.drop (h.keptName name) }

/-- With another type for a name, on a layout of its own. -/
def replaceType (h : Head) (serial : Nat) (name : String) (type : ValueType) : Head :=
  { h with layout := h.layout.replaceType serial name type }

/-! ## §6. Progress -/

/-- The progress of a kind of children that may stand below. -/
def progress? (h : Head) (kind : Kind) : Option Progress :=
  (h.slots.find? fun (k, _) => decide (k = kind)).map Prod.snd

/-- With another progress of a kind of children. -/
def setProgress (h : Head) (kind : Kind) (progress : Progress) : Head :=
  { h with slots := h.slots.map fun (k, p) => (k, if k = kind then progress else p) }

/-- The head of a child of the entity at a path, with the source of its
parent. -/
def placed (h : Head) (parentPath : Option String) (source : Option Nat) : Head :=
  { h with parentPath := parentPath.or h.parentPath, source := source }

end Head

end ListingMetadata
