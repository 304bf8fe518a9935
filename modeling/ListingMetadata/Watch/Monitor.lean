/-
  ListingMetadata.Watch.Monitor
  ─────────────────────────────
  **WATCHING FOR CHANGES.**

  A check reads the time of the last change.  The first time read is the
  baseline; a later one becomes the baseline and is told to all listeners that
  are registered then; an equal or earlier one is nothing new.  A reading that
  fails changes nothing.  Listeners may register, remove and replace listeners
  while they are told, which is heeded from the next change on, and may fail,
  which keeps none of the others from being told.
-/
import ListingMetadata.Calendar.Instant
import ListingMetadata.Failure
import ListingMetadata.Log
import ListingMetadata.Watch.Listeners

namespace ListingMetadata.Watch

open Calendar Number

/-! ## §1. Listeners at work -/

/-- What a listener does when it is told. -/
inductive Act where
  | add (name : String)
  | remove (name : String)
  /-- These listeners in place of all others. -/
  | replace (names : List String)
  /-- It fails, with a message or without one. -/
  | fail (message : Option String)
deriving DecidableEq, Repr

/-- No listeners any more. -/
def Act.clear : Act :=
  .replace []

/-- What happens while watching. -/
inductive Event where
  | readFailed (failure : Failure)
  | changed (previous changedAt : Instant)
  | told (name : String) (changedAt : Instant)
  | listenerFailed (place : Nat) (message : Option String)
deriving DecidableEq, Repr

/-- The line of the log that an event leaves. -/
def Event.line? : Event → Option LogLine
  | .readFailed failure =>
    some ⟨.error, "caught error while checking config: " ++ failure.message, []⟩
  | .changed previous changedAt =>
    some ⟨.info, "config changed",
      [("previous", previous.spokenText), ("changed_at", changedAt.spokenText)]⟩
  | .told _ _ => none
  | .listenerFailed place message =>
    some ⟨.error, "config listener panicked: " ++ message.getD "non-string panic",
      [("listener", showNat place)]⟩

/-- The listener and time of being told. -/
def Event.told? : Event → Option (String × Instant)
  | .told name changedAt => some (name, changedAt)
  | _ => none

/-- What a listener's acts leave of the listeners; a failure ends them. -/
def perform (place : Nat) : List Act → Listeners → Logged Event Listeners
  | [], ls => pure ls
  | .add name :: acts, ls => perform place acts (ls.add name)
  | .remove name :: acts, ls => perform place acts (ls.remove name)
  | .replace names :: acts, _ => perform place acts (Listeners.ofNames names)
  | .fail message :: _, ls => do
    Logged.tell (.listenerFailed place message)
    pure ls

/-- Listeners told of a change one by one; `place` is the place of the first. -/
def tellAll (acts : String → List Act) (changedAt : Instant) :
    Nat → List String → Listeners → Logged Event Listeners
  | _, [], ls => pure ls
  | place, name :: names, ls => do
    Logged.tell (.told name changedAt)
    let ls ← perform place (acts name) ls
    tellAll acts changedAt (place + 1) names ls

/-! ## §2. Checks -/

/-- What a check comes to. -/
inductive Outcome where
  | baseline (changedAt : Instant)
  | changed (changedAt : Instant)
  | unchanged
  | failed
deriving DecidableEq, Repr

/-- The latest time read, and who is told of a later one. -/
structure Monitor where
  baseline : Option Instant
  listeners : Listeners
deriving DecidableEq, Repr

namespace Monitor

/-- Nothing read and nobody to tell. -/
def fresh : Monitor :=
  ⟨none, []⟩

/-- A check that reads a time, or fails to. -/
def check (acts : String → List Act) (m : Monitor) :
    Except Failure Instant → Logged Event (Outcome × Monitor)
  | .error f => do
    Logged.tell (.readFailed f)
    pure (.failed, m)
  | .ok at' =>
    match m.baseline with
    | none => pure (.baseline at', { m with baseline := some at' })
    | some previous =>
      if previous.before at' then do
        Logged.tell (.changed previous at')
        let ls ← tellAll acts at' 0 m.listeners m.listeners
        pure (.changed at', ⟨some at', ls⟩)
      else pure (.unchanged, m)

end Monitor

/-! ## §3. Readings -/

/-- Where the times come from. -/
inductive Feed where
  /-- One after the other, a missing one being a failure; then failures. -/
  | script (readings : List (Option Instant))
  /-- The time of a file, if it exists. -/
  | file (changedAt : Option Instant)
deriving DecidableEq, Repr

/-- The next reading. -/
def Feed.read : Feed → Except Failure Instant × Feed
  | .script [] => (.error (.settings .unavailable), .script [])
  | .script (none :: rest) => (.error (.settings .unavailable), .script rest)
  | .script (some t :: rest) => (.ok t, .script rest)
  | .file none => (.error (.unreadable .missing), .file none)
  | .file (some t) => (.ok t, .file (some t))

/-- The readings that are left, at least one. -/
def Feed.remaining : Feed → Nat
  | .script readings => max 1 readings.length
  | .file _ => 1

/-- A monitor and its readings. -/
structure Session where
  monitor : Monitor
  feed : Feed
deriving DecidableEq, Repr

namespace Session

/-- A check of the next reading. -/
def check (acts : String → List Act) (w : Session) : Logged Event (Outcome × Session) := do
  let (reading, feed) := w.feed.read
  let (outcome, monitor) ← w.monitor.check acts reading
  pure (outcome, ⟨monitor, feed⟩)

/-- A number of checks. -/
def checks (acts : String → List Act) : Nat → Session → Logged Event Session
  | 0, w => pure w
  | n + 1, w => do
    let (_, w) ← w.check acts
    checks acts n w

/-- Checks until all readings are used up, at least one. -/
def run (acts : String → List Act) (w : Session) : Logged Event Session :=
  checks acts w.feed.remaining w

/-- With other listeners. -/
def withListeners (w : Session) (ls : Listeners) : Session :=
  { w with monitor := { w.monitor with listeners := ls } }

/-- With another time of the file, or no file. -/
def withFile (w : Session) (changedAt : Option Instant) : Session :=
  { w with feed := .file changedAt }

end Session

end ListingMetadata.Watch
