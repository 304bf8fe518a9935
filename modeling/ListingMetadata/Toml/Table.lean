/-
  ListingMetadata.Toml.Table
  ──────────────────────────
  **TABLES OF A TOML FILE.**

  A file defines tables by headers and by names with dots.  Nothing is defined
  twice: a value keeps its name for itself, a header names a table once, and a
  table made by dotted names is only extended by dotted names.
-/

namespace ListingMetadata.Toml

/-! ## §1. Entries -/

/-- A value that is no table; of lists and dates only that they are there. -/
inductive Scalar where
  | text (s : String)
  | whole (v : Int)
  | bool (b : Bool)
  | other
deriving DecidableEq, Repr

/-- How a table came to be. -/
inductive Standing where
  /-- On the way to a table with a header. -/
  | implied
  /-- By a name with dots. -/
  | dotted
  /-- By a header of its own. -/
  | headed
deriving DecidableEq, Repr

/-- What a name stands for. -/
inductive Entry where
  | value (v : Scalar)
  | table (standing : Standing) (entries : List (String × Entry))
  /-- A list of tables by its last, the only one that can be extended. -/
  | tables (last : List (String × Entry))
deriving Repr

/-- Entries by name. -/
abbrev Entries := List (String × Entry)

/-! ## §2. Changing what a name stands for -/

/-- The entry of a name changed; the change is given what is there, if
anything. -/
def alter (change : Option Entry → Option Entry) (name : String) : Entries → Option Entries
  | [] => (change none).map fun e => [(name, e)]
  | (n, e) :: rest =>
    if n = name then (change (some e)).map fun e => (n, e) :: rest
    else (alter change name rest).map fun rest => (n, e) :: rest

/-- The entries below a name changed; a new table is on the way to one with a
header. -/
def below (change : Entries → Option Entries) : Option Entry → Option Entry
  | none => (change []).map (.table .implied)
  | some (.table standing entries) => (change entries).map (.table standing)
  | some (.tables last) => (change last).map .tables
  | some (.value _) => none

/-- The entries of a table changed that headers lead to. -/
def atPath (change : Entries → Option Entries) : List String → Entries → Option Entries
  | [], entries => change entries
  | name :: path, entries => alter (below (atPath change path)) name entries

/-! ## §3. Definitions -/

/-- A value defined that was not. -/
def defineHere (v : Scalar) : Option Entry → Option Entry
  | none => some (.value v)
  | some _ => none

/-- A value defined by a dotted name: all tables on the way are made by dotted
names, or lie on the way to a header. -/
def define (v : Scalar) : List String → Entries → Option Entries
  | [], _ => none
  | [name], entries => alter (defineHere v) name entries
  | [first, name], entries => alter (inLast fun es => alter (defineHere v) name es) first entries
  | first :: name :: path, entries => alter (onWay fun es => define v (name :: path) es) first entries
where
  /-- The table that the value is put into. -/
  inLast (change : Entries → Option Entries) : Option Entry → Option Entry
    | none => (change []).map (.table .dotted)
    | some (.table .dotted entries) => (change entries).map (.table .dotted)
    | some _ => none
  /-- A table on the way to it. -/
  onWay (change : Entries → Option Entries) : Option Entry → Option Entry
    | none => (change []).map (.table .dotted)
    | some (.table .headed _) => none
    | some (.table standing entries) => (change entries).map (.table standing)
    | some (.tables last) => (change last).map .tables
    | some (.value _) => none

/-- A table gets its header. -/
def headHere : Option Entry → Option Entry
  | none => some (.table .headed [])
  | some (.table .implied entries) => some (.table .headed entries)
  | some _ => none

/-- A list of tables gets one more. -/
def listHere : Option Entry → Option Entry
  | none => some (.tables [])
  | some (.tables _) => some (.tables [])
  | some _ => none

/-- Changes the last name of a path. -/
def atLast (change : Option Entry → Option Entry) : List String → Entries → Option Entries
  | [], _ => none
  | [name], entries => alter change name entries
  | first :: name :: path, entries =>
    alter (below fun es => atLast change (name :: path) es) first entries

/-- The value of a name. -/
def valueOf? (name : String) (entries : Entries) : Option Entry :=
  entries.lookup name

end ListingMetadata.Toml
