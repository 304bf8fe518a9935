/-
  ListingMetadata.Command.Invocation
  ──────────────────────────────────
  **WHAT THE PROGRAM IS ASKED TO DO.**

  The program writes the sections of a document, lists the columns of a kind,
  or writes a clause as SQL.  The file of settings may be named before or after
  the command; after it, it counts.
-/
import ListingMetadata.Command.Words

namespace ListingMetadata.Command

/-! ## §1. Tasks -/

/-- How the sections of a document are written. -/
structure FormatTask where
  document : String
  mode : Option String
  version : Option String
  date : Option String
  resource : Option String
  className : Option String
  lookup : Option String
  strict : Bool
deriving DecidableEq, Repr

/-- What the program does. -/
inductive Task where
  /-- Writes the sections of a document. -/
  | format (task : FormatTask)
  /-- Lists the columns of a kind. -/
  | columns (kind : String) (strict : Bool)
  /-- Writes a clause as SQL. -/
  | sql (clause : String)
deriving DecidableEq, Repr

/-- A task and the file of settings. -/
structure Invocation where
  task : Task
  settings : Option String
deriving DecidableEq, Repr

/-! ## §2. What may be given -/

/-- The options that every command takes. -/
def commonValued : List Parameter := [⟨⟨"config", none⟩, .fileName⟩]

/-- The flags that every command takes. -/
def commonFlags : List Switch := [⟨"verbose", some 'v'⟩]

/-- What may stand before the command. -/
def programSynopsis : Synopsis :=
  ⟨commonValued, commonFlags, true, .anyText, 1, true⟩

/-- What a document's sections are written with. -/
def formatSynopsis : Synopsis :=
  ⟨[⟨⟨"mode", some 'm'⟩, .anyText⟩, ⟨⟨"metadata-version", none⟩, .anyText⟩,
      ⟨⟨"date", none⟩, .anyText⟩, ⟨⟨"resource", none⟩, .anyText⟩, ⟨⟨"class", none⟩, .anyText⟩,
      ⟨⟨"lookup", none⟩, .anyText⟩] ++ commonValued,
    ⟨"strict", none⟩ :: commonFlags, false, .fileName, 1, false⟩

/-- What columns are listed with. -/
def columnsSynopsis : Synopsis :=
  ⟨commonValued, ⟨"strict", none⟩ :: commonFlags, false, .anyText, 1, false⟩

/-- What a clause is written with. -/
def sqlSynopsis : Synopsis :=
  ⟨commonValued, commonFlags, false, .fileName, 1, false⟩

/-! ## §3. Reading a command line -/

/-- The only operand. -/
def operand (g : Given) : Except Stop String :=
  match g.operands with
  | [w] => .ok w
  | _ => .error .misuse

/-- The file of settings among what is given. -/
def settingsName (g : Given) : Option String :=
  g.values.lookup "config"

/-- The task of writing sections. -/
def formatTask (g : Given) : Except Stop Task := do
  let document ← operand g
  .ok (.format
    ⟨document, g.values.lookup "mode", g.values.lookup "metadata-version",
      g.values.lookup "date", g.values.lookup "resource", g.values.lookup "class",
      g.values.lookup "lookup", decide ("strict" ∈ g.flags)⟩)

/-- The task of listing columns. -/
def columnsTask (g : Given) : Except Stop Task := do
  let kind ← operand g
  .ok (.columns kind (decide ("strict" ∈ g.flags)))

/-- The task of writing a clause. -/
def sqlTask (g : Given) : Except Stop Task := do
  let clause ← operand g
  .ok (.sql clause)

/-- What a command takes and the task that it is, by the command's name. -/
def command? (name : String) : Option (Synopsis × (Given → Except Stop Task)) :=
  if name = "format" ∨ name = "f" then some (formatSynopsis, formatTask)
  else if name = "columns" ∨ name = "cols" then some (columnsSynopsis, columnsTask)
  else if name = "sql" then some (sqlSynopsis, sqlTask)
  else none

/-- What the words of a command line ask for. -/
def Invocation.ofWords (words : List String) : Except Stop Invocation := do
  let before ← programSynopsis.read words
  let name ← operand before
  match command? name with
  | none => .error .misuse
  | some (synopsis, taskOf) =>
    let after ← synopsis.read before.rest
    let task ← taskOf after
    .ok ⟨task, (settingsName after).or (settingsName before)⟩

end ListingMetadata.Command
