/-
  ListingMetadata.Settings.Basic
  ──────────────────────────────
  **SETTINGS IN LAYERS.**

  A setting comes from the first of four layers that has it: the environment,
  the file given by name, the file of the user, the defaults.  A setting of the
  wrong type in any layer spoils all of them.
-/
import ListingMetadata.Section.Context
import ListingMetadata.Toml.Reading

namespace ListingMetadata

open Number Text

/-! ## §1. Settings -/

/-- The settings of the program. -/
structure Settings where
  strictParsing : Bool
  format : String
  metadataVersion : String
  pollInterval : Nat
deriving DecidableEq, Repr

namespace Settings

/-- The settings that hold unless a layer says otherwise. -/
def defaults : Settings :=
  ⟨false, "COMPACT", "1.00.000", 60⟩

/-- The mode that the format names. -/
def mode (s : Settings) : Except Failure Mode :=
  Mode.ofCode s.format

/-- The seconds between two checks, at least one. -/
def pollSeconds (s : Settings) : Nat :=
  max 1 s.pollInterval

end Settings

/-! ## §2. Layers -/

/-- The settings that a layer has. -/
structure Layer where
  strictParsing : Option Bool
  format : Option String
  metadataVersion : Option String
  pollInterval : Option Nat
deriving DecidableEq, Repr

namespace Layer

/-- A layer that has nothing. -/
def empty : Layer :=
  ⟨none, none, none, none⟩

/-- What the first layer has, otherwise what the second has. -/
def backedBy (first second : Layer) : Layer :=
  ⟨first.strictParsing.or second.strictParsing, first.format.or second.format,
    first.metadataVersion.or second.metadataVersion, first.pollInterval.or second.pollInterval⟩

/-- The settings of a layer, the rest by default. -/
def settings (l : Layer) : Settings :=
  let d := Settings.defaults
  ⟨l.strictParsing.getD d.strictParsing, l.format.getD d.format,
    l.metadataVersion.getD d.metadataVersion, l.pollInterval.getD d.pollInterval⟩

/-! ## §3. Layers of files -/

/-- The setting of a name in a file, if it is there; its type is what `read`
takes. -/
def fileSetting {α : Type} (entries : Toml.Entries) (name : String)
    (read : Toml.Scalar → Option α) : Option (Option α) :=
  match Toml.valueOf? name entries with
  | none => some none
  | some (.value v) => (read v).map some
  | some _ => none

/-- A truth value. -/
def readBool : Toml.Scalar → Option Bool
  | .bool b => some b
  | _ => none

/-- A text. -/
def readText : Toml.Scalar → Option String
  | .text s => some s
  | _ => none

/-- A natural number of at most 64 bits. -/
def readCount : Toml.Scalar → Option Nat
  | .whole v => if 0 ≤ v ∧ v ≤ maxNat then some v.toNat else none
  | _ => none

/-- The layer of a file. -/
def ofFile? (text : String) : Option Layer := do
  let entries ← Toml.read text
  let strict ← fileSetting entries "strict_parsing" readBool
  let format ← fileSetting entries "format" readText
  let version ← fileSetting entries "metadata_version" readText
  let interval ← fileSetting entries "poll_interval_secs" readCount
  some ⟨strict, format, version, interval⟩

/-! ## §4. The layer of the environment -/

/-- The variable of a setting as a value; an empty one that is none is as good
as missing. -/
def environmentSetting {α : Type} (environment : String → Option String) (name : String)
    (read : String → Option α) : Option (Option α) :=
  match environment name with
  | none => some none
  | some text =>
    match read text with
    | some v => some (some v)
    | none => if text = "" then some none else none

/-- A truth value in words. -/
def wordBool (text : String) : Option Bool :=
  let word := lowered (trimmed text)
  if word ∈ ["1", "true", "yes"] then some true
  else if word ∈ ["0", "false", "no"] then some false
  else none

/-- A natural number in digits. -/
def wordCount (text : String) : Option Nat :=
  (readNat (trimmed text).toList).toOption

/-- The variables that settings are taken from. -/
def variableNames : List String :=
  ["RETSMETA_STRICT_PARSING", "RETSMETA_FORMAT", "RETSMETA_METADATA_VERSION",
    "RETSMETA_POLL_INTERVAL_SECS"]

/-- The layer of the environment. -/
def ofEnvironment? (environment : String → Option String) : Option Layer := do
  let strict ← environmentSetting environment "RETSMETA_STRICT_PARSING" wordBool
  let format ← environmentSetting environment "RETSMETA_FORMAT" some
  let version ← environmentSetting environment "RETSMETA_METADATA_VERSION" some
  let interval ← environmentSetting environment "RETSMETA_POLL_INTERVAL_SECS" wordCount
  some ⟨strict, format, version, interval⟩

end Layer

/-! ## §5. Loading -/

/-- The characters after the last slash. -/
def lastPart (cs : List Char) : List Char :=
  (cs.reverse.takeWhile (· ≠ '/')).reverse

/-- The file is one of settings: its name ends in `.toml` after at least one
character. -/
def isSettingsName (name : String) : Bool :=
  let part := (lastPart name.toList).reverse
  part.take 5 = ['l', 'm', 'o', 't', '.'] && !(part.drop 5).isEmpty

/-- A file given by name, with its text if it exists. -/
structure NamedFile where
  name : String
  text : Option String
deriving DecidableEq, Repr

namespace Settings

/-- The place of the user's settings below the directory of the user's
configuration. -/
def userFile : String := "/retsmeta/retsmeta.toml"

/-- The layer of the file given by name. -/
def explicitLayer : Option NamedFile → Except SettingsFault Layer
  | none => .ok Layer.empty
  | some file =>
    match file.text with
    | none => .error (.notFound file.name)
    | some text =>
      match if isSettingsName file.name then Layer.ofFile? text else none with
      | some l => .ok l
      | none => .error .unusable

/-- The layer of the user's file, which need not exist. -/
def userLayer : Option String → Except SettingsFault Layer
  | none => .ok Layer.empty
  | some text =>
    match Layer.ofFile? text with
    | some l => .ok l
    | none => .error .unusable

/-- The layer of the environment. -/
def environmentLayer (environment : String → Option String) : Except SettingsFault Layer :=
  match Layer.ofEnvironment? environment with
  | some l => .ok l
  | none => .error .unusable

/-- The settings of all layers. -/
def load (environment : String → Option String) (explicit : Option NamedFile)
    (user : Option String) : Except SettingsFault Settings := do
  let given ← explicitLayer explicit
  let first ← environmentLayer environment
  let last ← userLayer user
  .ok ((first.backedBy given).backedBy last).settings

end Settings

example : isSettingsName "conf" = false := by decide
example : isSettingsName "a/c.toml" = true := by decide
example : isSettingsName ".toml" = false := by decide

end ListingMetadata
