/-
  ListingMetadata.Section.Context
  ───────────────────────────────
  **WHAT SECTIONS OF ONE OUTPUT SHARE.**

  All sections of an output bear the same version and date.  Below them stand
  values by key, such as the id of the resource whose classes are listed; an
  entity adds its own id for the sections embedded in it.
-/
import ListingMetadata.Entity.Basic
import ListingMetadata.Failure
import ListingMetadata.Text.Blank

namespace ListingMetadata

open Text

/-! ## §1. Modes -/

/-- The forms in which sections are written. -/
inductive Mode where
  | compact
  | standard
deriving DecidableEq, Repr

namespace Mode

/-- The code of a mode. -/
def code : Mode → String
  | compact => "COMPACT"
  | standard => "STANDARD-XML"

/-- The mode of a code, in any case and with blanks around it. -/
def ofCode (text : String) : Except Failure Mode :=
  let code := raised (trimmed text)
  if code = "COMPACT" then .ok compact
  else if code = "STANDARD-XML" ∨ code = "STANDARD" then .ok standard
  else .error (.unknownFormat text)

theorem ofCode_code (m : Mode) : ofCode m.code = .ok m := by
  cases m <;> rfl

end Mode

/-! ## §2. Contexts -/

/-- Version, date and values by key. -/
structure Context where
  version : String
  date : Calendar.Instant
  values : List (String × String)
deriving DecidableEq, Repr

/-- The first value of a key replaced, or else one more value. -/
def replaceValue (key value : String) : List (String × String) → List (String × String)
  | [] => [(key, value)]
  | (k, v) :: rest => if k = key then (key, value) :: rest else (k, v) :: replaceValue key value rest

namespace Context

/-- A context without values. -/
def fresh (version : String) (date : Calendar.Instant) : Context :=
  ⟨version, date, []⟩

/-- With a value of a key. -/
def set (c : Context) (key value : String) : Context :=
  { c with values := replaceValue key value c.values }

/-- The value of a key. -/
def get? (c : Context) (key : String) : Option String :=
  c.values.lookup key

/-- With several values in turn. -/
def setAll (c : Context) (pairs : List (String × String)) : Context :=
  pairs.foldl (fun c (key, value) => c.set key value) c

/-- With the id of the resource. -/
def withResource (c : Context) (id : String) : Context := c.set "Resource" id

/-- With the id of the class. -/
def withClass (c : Context) (id : String) : Context := c.set "Class" id

/-- With the id of the lookup. -/
def withLookup (c : Context) (id : String) : Context := c.set "Lookup" id

/-- The date in headers and cells. -/
def dateText (c : Context) : String :=
  c.date.text

/-- The header of a section: its keys with their values, empty if there are
none. -/
def header (c : Context) (kind : Kind) : List (String × String) :=
  kind.headerKeys.map fun key => (key, (c.get? key).getD "")

/-- The context of the sections embedded in an entity. -/
def nested (c : Context) (h : Head) : Context :=
  match h.kind.contextKey? with
  | some key => c.set key h.id
  | none => c

/-- What stands in a column for an entity: its text, or else what the column
falls back to. -/
def cell (c : Context) (h : Head) (column : Column) : String :=
  match h.text? column.name, column.stamp with
  | some text, _ => text
  | none, some .version => c.version
  | none, some .date => c.dateText
  | none, none => ""

end Context

/-! ## §3. Lookup laws -/

theorem lookup_replaceValue_self (key value : String) (vs : List (String × String)) :
    (replaceValue key value vs).lookup key = some value := by
  induction vs with
  | nil => simp [replaceValue]
  | cons e rest ih =>
    obtain ⟨k, v⟩ := e
    by_cases h : k = key
    · simp [replaceValue, h]
    · have hk : (key == k) = false := by simpa using Ne.symm h
      simp [replaceValue, h, List.lookup_cons, hk, ih]

theorem lookup_replaceValue_of_ne {key other : String} (value : String)
    (vs : List (String × String)) (h : other ≠ key) :
    (replaceValue key value vs).lookup other = vs.lookup other := by
  induction vs with
  | nil =>
    have ho : (other == key) = false := by simpa using h
    simp [replaceValue, List.lookup_cons, ho]
  | cons e rest ih =>
    obtain ⟨k, v⟩ := e
    by_cases hk : k = key
    · subst hk
      have ho : (other == k) = false := by simpa using h
      simp [replaceValue, List.lookup_cons, ho]
    · simp only [replaceValue, hk, if_false, List.lookup_cons, ih]

/-- A key has the value it was last set to. -/
theorem Context.get?_set_self (c : Context) (key value : String) :
    (c.set key value).get? key = some value :=
  lookup_replaceValue_self key value c.values

/-- Setting a key leaves the others alone. -/
theorem Context.get?_set_of_ne (c : Context) {key other : String} (value : String)
    (h : other ≠ key) : (c.set key value).get? other = c.get? other :=
  lookup_replaceValue_of_ne value c.values h

end ListingMetadata
