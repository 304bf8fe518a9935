/-
  ListingMetadata.Command.Run
  ───────────────────────────
  **WHAT THE PROGRAM ANSWERS.**

  What is printed, what is warned about and how the program ends depends on
  nothing but the words of the command line and what the world holds: files,
  environment, the user's settings and the time.
-/
import ListingMetadata.Command.Invocation
import ListingMetadata.Document.Reading
import ListingMetadata.Query.Json
import ListingMetadata.Query.Statement
import ListingMetadata.Section.Standard
import ListingMetadata.Settings.Basic
import ListingMetadata.Source.Fetching

namespace ListingMetadata.Command

open Text Number

/-! ## §1. The world and the answer -/

/-- What the program depends on. -/
structure World where
  /-- The text of a file, by a name that leads to it. -/
  file : String → Except Unreadable String
  /-- The value of an environment variable. -/
  variableValue : String → Option String
  /-- The text of the user's settings, if there are any. -/
  userSettings : Option String
  now : Calendar.Instant

/-- Why a run fails. -/
inductive RunFault where
  /-- There are no settings to run with. -/
  | settings (fault : SettingsFault)
  /-- The format or the kind that is asked for does not exist. -/
  | unknown (failure : Failure)
  /-- The date that is asked for is none. -/
  | date (text : String) (fault : Calendar.DateFault)
  /-- The document cannot be read. -/
  | document (name : String) (cause : Failure)
  /-- The file of the clause cannot be read. -/
  | noClause (name : String) (cause : Unreadable)
  /-- The file of the clause holds none. -/
  | clause (fault : Json.Fault)
deriving DecidableEq, Repr

/-- How a run ends. -/
structure Answer where
  code : Nat
  output : String
  /-- Entities that are not complete: their paths and missing attributes. -/
  incomplete : List (String × List String)
  /-- Why the run failed. -/
  fault : Option RunFault
deriving DecidableEq, Repr

/-- A run that ends well. -/
def Answer.good (output : String) : Answer :=
  ⟨0, output, [], none⟩

/-- The name and version of the program. -/
def versionLine : String := "retsmeta 0.3.0\n"

/-! ## §2. Wording -/

/-- A failure followed by its cause, although most failures name it
themselves. -/
def withCause (f : Failure) : String :=
  match f with
  | .unreadable cause => f.message ++ ": " ++ cause.message
  | .json fault => f.message ++ ": " ++ fault.message
  | f => f.message

/-- The wording of a failed run. -/
def RunFault.message : RunFault → String
  | .settings fault => (Failure.settings fault).message
  | .unknown failure => failure.message
  | .date text fault => "invalid --date " ++ quoted text ++ ": " ++ fault.message
  | .document name cause => "couldn't load " ++ name ++ ": " ++ withCause cause
  | .noClause name cause => "couldn't read " ++ name ++ ": " ++ cause.message
  | .clause fault => "invalid clause tree: " ++ fault.message

/-! ## §3. Sections of a document -/

/-- The entities of a resolved tree that are not complete, each before those
below it. -/
def incompleteIn : Entity → List (String × List String) :=
  Entity.fold fun h results =>
    (if h.missing = [] then [] else [(h.path, h.missing)])
      ++ h.kind.childKinds.flatMap fun kind => (Entity.resolvedResults h results kind).flatten

/-- The document of a file. -/
def loadDocument (w : World) (name : String) : Except Failure Document :=
  match w.file name with
  | .error cause => .error (.unreadable cause)
  | .ok text => (Document.ofJson text).mapError Failure.json

/-- The tree of a document, fetched from the document down to the leaves. -/
def documentTree (d : Document) (strict : Bool) : Entity :=
  let (source, root) := (d.bind 0 strict).value
  (root.materialize [(0, source)]).value

/-- The date that is asked for, otherwise the time of the run. -/
def dateOf (w : World) : Option String → Except RunFault Calendar.Instant
  | none => .ok w.now
  | some text => (Calendar.readInternet text).mapError (RunFault.date text)

/-- The values of the header that are asked for. -/
def headerValues (t : FormatTask) : List (String × String) :=
  [("Resource", t.resource), ("Class", t.className), ("Lookup", t.lookup)].filterMap
    fun (key, value) => value.map fun v => (key, v)

/-- The sections of a document. -/
def runFormat (w : World) (s : Settings) (t : FormatTask) : Except RunFault Answer := do
  let mode ← ((t.mode.map Mode.ofCode).getD s.mode).mapError RunFault.unknown
  let date ← dateOf w t.date
  let context := (Context.fresh (t.version.getD s.metadataVersion) date).setAll (headerValues t)
  let d ← (loadDocument w t.document).mapError (RunFault.document t.document)
  let strict := t.strict || s.strictParsing
  let tree := documentTree d strict
  .ok ⟨0, format d.kind mode context [tree], if strict then incompleteIn tree else [], none⟩

/-! ## §4. Columns of a kind -/

/-- Blanks behind a text up to a width. -/
def filled (width : Nat) (text : String) : List Char :=
  text.toList ++ List.replicate (width - text.length) ' '

/-- The line of a column: name, type, and whether it has to be filled. -/
def columnLine (c : Column) : String :=
  String.ofList (trimEnd
    (filled 28 c.name ++ [' '] ++ filled 22 (Catalog.label c.type) ++ [' ']
      ++ (if c.required then "required".toList else [])))

/-- The columns of a kind. -/
def runColumns (name : String) (strict : Bool) : Except RunFault Answer :=
  match Kind.ofName? name with
  | none => .error (.unknown (.unknownKind name))
  | some kind =>
    .ok (Answer.good
      (joined "\n" ((Layout.builtin kind strict).columns.map columnLine) ++ "\n"))

/-! ## §5. Clauses -/

/-- The lines of parameters, numbered from a number on. -/
def parameterLines : Nat → List Query.Literal → String
  | _, [] => ""
  | n, v :: vs => "  ?" ++ showNat n ++ " = " ++ v.shown ++ "\n" ++ parameterLines (n + 1) vs

/-- A clause as SQL. -/
def runSql (w : World) (name : String) : Except RunFault Answer :=
  match w.file name with
  | .error cause => .error (.noClause name cause)
  | .ok text =>
    match Query.Clause.ofJson text with
    | .error f => .error (.clause f)
    | .ok c =>
      let s := c.statement
      .ok (Answer.good (s.text ++ "\n" ++ parameterLines 1 s.params))

/-! ## §6. Runs -/

/-- The settings of a run. -/
def settingsOf (w : World) (name : Option String) : Except RunFault Settings :=
  (Settings.load w.variableValue (name.map fun n => ⟨n, (w.file n).toOption⟩) w.userSettings).mapError
    RunFault.settings

/-- What a task comes to under settings. -/
def runTask (w : World) (s : Settings) : Task → Except RunFault Answer
  | .format t => runFormat w s t
  | .columns kind strict => runColumns kind strict
  | .sql clause => runSql w clause

/-- What an invocation comes to. -/
def Invocation.run (w : World) (i : Invocation) : Except RunFault Answer := do
  let s ← settingsOf w i.settings
  runTask w s i.task

/-- The answer to the words of a command line. -/
def run (w : World) (words : List String) : Answer :=
  match Invocation.ofWords words with
  | .error .misuse => ⟨2, "", [], none⟩
  | .error .help => Answer.good ""
  | .error .version => Answer.good versionLine
  | .ok i =>
    match i.run w with
    | .ok answer => answer
    | .error fault => ⟨1, "", [], some fault⟩

/-- The files that the words of a command line name. -/
def filesOf (words : List String) : List String :=
  match Invocation.ofWords words with
  | .error _ => []
  | .ok i =>
    i.settings.toList ++
      match i.task with
      | .format t => [t.document]
      | .columns _ _ => []
      | .sql clause => [clause]

end ListingMetadata.Command
