/-
  ListingMetadata.Layout.Registry
  ───────────────────────────────
  **REGISTRIES: SHARED LAYOUTS.**

  A registry hands out one layout per kind and mode and keeps it until all
  layouts are dropped.  Declarations may change at any time; a layout that was
  handed out never does.  Every layout bears a mark, and two holders share a
  layout exactly when the marks agree.
-/
import ListingMetadata.Layout.Basic

namespace ListingMetadata

/-! ## §1. Marked layouts -/

/-- Where a layout comes from. -/
inductive Mark where
  /-- From the built-in declarations. -/
  | builtin
  /-- From a registry, since it last dropped its layouts. -/
  | issued (registry generation : Nat)
  /-- From a change of its own to a layout. -/
  | changed (serial : Nat)
deriving DecidableEq, Repr

/-- A layout that may have several holders. -/
structure SharedLayout where
  mark : Mark
  layout : Layout
deriving DecidableEq, Repr

namespace SharedLayout

/-- The layout of the built-in declarations. -/
def builtin (kind : Kind) (strict : Bool) : SharedLayout :=
  ⟨.builtin, Layout.builtin kind strict⟩

/-- Both are one layout and not merely equal ones. -/
def sameAs (a b : SharedLayout) : Bool :=
  decide (a.mark = b.mark) && decide (a.layout.kind = b.layout.kind)
    && decide (a.layout.strict = b.layout.strict)

/-- A layout of its own with another type for a name; the serial number tells it
from every other changed layout. -/
def replaceType (serial : Nat) (s : SharedLayout) (name : String) (type : ValueType) :
    SharedLayout :=
  ⟨.changed serial, s.layout.replaceType name type⟩

end SharedLayout

/-! ## §2. Registries -/

/-- Declarations and the layouts handed out since all were dropped. -/
structure Registry where
  id : Nat
  generation : Nat
  /-- The kinds whose declarations were changed; others have the built-in ones. -/
  changed : List (Kind × List Column)
  /-- The layouts handed out. -/
  cached : List Layout
deriving DecidableEq, Repr

namespace Registry

/-- A registry over the built-in declarations that has handed out nothing. -/
def fresh (id : Nat) : Registry :=
  ⟨id, 0, [], []⟩

/-- The current declarations of a kind. -/
def declarations (r : Registry) (kind : Kind) : List Column :=
  ((r.changed.find? fun (k, _) => decide (k = kind)).map Prod.snd).getD kind.builtinColumns

/-- A layout of the current declarations that is not handed out. -/
def build (r : Registry) (kind : Kind) (strict : Bool) : Layout :=
  Layout.build kind strict (r.declarations kind)

/-- The layout that was handed out for a kind and mode. -/
def handedOut? (r : Registry) (kind : Kind) (strict : Bool) : Option Layout :=
  r.cached.find? fun l => decide (l.kind = kind) && decide (l.strict = strict)

/-- The layout for a kind and mode, built on first use. -/
def layout (r : Registry) (kind : Kind) (strict : Bool) : SharedLayout × Registry :=
  match r.handedOut? kind strict with
  | some l => (⟨.issued r.id r.generation, l⟩, r)
  | none =>
    let l := r.build kind strict
    (⟨.issued r.id r.generation, l⟩, { r with cached := r.cached ++ [l] })

/-- The declarations of a kind changed; layouts handed out stay as they are. -/
def declare (r : Registry) (kind : Kind) (change : List Column → List Column) : Registry :=
  { r with changed :=
      (kind, change (r.declarations kind)) :: r.changed.filter fun (k, _) => decide (k ≠ kind) }

/-- The first declaration of exactly this name replaced, or else appended. -/
def replaceDeclaration (column : Column) : List Column → List Column
  | [] => [column]
  | c :: cs => if c.name = column.name then column :: cs else c :: replaceDeclaration column cs

/-- Declares a column in the place of the one of its name. -/
def update (r : Registry) (kind : Kind) (column : Column) : Registry :=
  r.declare kind (replaceDeclaration column)

/-- Declares a further column. -/
def add (r : Registry) (kind : Kind) (column : Column) : Registry :=
  r.declare kind fun cs => cs ++ [column]

/-- Drops all layouts; whoever holds one keeps it. -/
def invalidateAll (r : Registry) : Registry :=
  { r with generation := r.generation + 1, cached := [] }

/-- The number of layouts handed out since all were dropped. -/
def cachedCount (r : Registry) : Nat :=
  r.cached.length

end Registry

end ListingMetadata
