/-
  ListingMetadata.Main
  ────────────────────
  **THE PROGRAM.**

  Looks up what an invocation depends on, the files it names, the environment,
  the user's settings and the time, and passes on what the run answers.
-/
import ListingMetadata.Command.Run
import Std.Time.DateTime.Timestamp

namespace ListingMetadata.Command

open Text

/-! ## §1. What the world holds -/

/-- Why a file was not read. -/
def causeOf : IO.Error → Unreadable
  | .inappropriateType _ 21 _ => .directory
  | .inappropriateType _ _ _ => .notDirectory
  | .invalidArgument _ _ _ => .nameTooLong
  | _ => .missing

/-- The text of a file. -/
def readFile (name : String) : IO (Except Unreadable String) := do
  try
    let text ← IO.FS.readFile name
    pure (.ok text)
  catch e => pure (.error (causeOf e))

/-- Each name with what is found under it. -/
def gather {α : Type} (find : String → IO α) (names : List String) : IO (List (String × α)) :=
  names.mapM fun name => do
    let found ← find name
    pure (name, found)

/-- The directory of the user's configuration: the one that the environment
names by a full path, otherwise the usual one in the user's home. -/
def configurationDirectory? : IO (Option String) := do
  let named ← IO.getEnv "XDG_CONFIG_HOME"
  let home ← IO.getEnv "HOME"
  match named.bind fun d => if d.toList.head? = some '/' then some d else none with
  | some d => pure (some d)
  | none => pure (home.map (· ++ "/.config"))

/-- The text of the user's settings. -/
def userSettings? : IO (Option String) := do
  match ← configurationDirectory? with
  | some d => do
    let text ← readFile (d ++ Settings.userFile)
    pure text.toOption
  | none => pure none

/-- The time of the run. -/
def now : IO Calendar.Instant := do
  let t ← Std.Time.Timestamp.now
  pure ⟨t.val.second.val, t.val.nano.val.toNat⟩

/-- What the words of a command line depend on. -/
def world (words : List String) : IO World := do
  let files ← gather readFile (filesOf words)
  let environment ← gather (fun name => IO.getEnv name) Layer.variableNames
  let user ← userSettings?
  let time ← now
  pure ⟨fun name => (files.lookup name).getD (.error .missing),
    fun name => (environment.lookup name).join, user, time⟩

/-! ## §2. Passing on the answer -/

/-- The warning about an entity that is not complete. -/
def warning (path : String) (missing : List String) : String :=
  "WARN entity lacks required attributes path=" ++ path ++ " missing=" ++ joined "," missing

/-- How the program is used. -/
def usage : String :=
  "Usage: retsmeta [--config <FILE>] [--verbose] <format|columns|sql> ..."

/-- Prints an answer: the output, and beside it the warnings and the failure. -/
def Answer.print (a : Answer) : IO Unit := do
  for (path, missing) in a.incomplete do
    IO.eprintln (warning path missing)
  IO.print a.output
  match a.fault with
  | some fault => IO.eprintln ("Error: " ++ fault.message)
  | none => if a.code = 2 then IO.eprintln usage else pure ()

end ListingMetadata.Command

/-- Runs the program on the words of the command line. -/
def main (words : List String) : IO UInt32 := do
  let w ← ListingMetadata.Command.world words
  let answer := ListingMetadata.Command.run w words
  answer.print
  pure answer.code.toUInt32
