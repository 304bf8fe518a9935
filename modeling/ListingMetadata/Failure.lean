/-
  ListingMetadata.Failure
  ───────────────────────
  **WHY AN OPERATION FAILS.**
-/
import ListingMetadata.Folder
import ListingMetadata.Json.Fault
import ListingMetadata.Kind.Basic
import ListingMetadata.Value.Grammar

namespace ListingMetadata

/-- What is wrong with the settings. -/
inductive SettingsFault where
  /-- There is no file of this name. -/
  | notFound (name : String)
  /-- The time of the last change is not to be had. -/
  | unavailable
  /-- A file cannot be read, or holds a setting of the wrong type. -/
  | unusable
deriving DecidableEq, Repr

/-- The wording of a fault of the settings. -/
def SettingsFault.message : SettingsFault → String
  | .notFound name => "config file not found: " ++ name
  | .unavailable => "dao unavailable"
  | .unusable => "unusable settings"

/-- The causes of failure. -/
inductive Failure where
  | parse (fault : ParseFault)
  | fetch (kind : Kind) (path reason : String)
  | unknownFormat (code : String)
  | childNotPermitted (parent child : Kind)
  | missingId (kind : Kind)
  | unknownKind (name : String)
  | settings (fault : SettingsFault)
  /-- A file cannot be read. -/
  | unreadable (cause : Unreadable)
  | json (fault : Json.Fault)
deriving DecidableEq, Repr

/-- The wording of a failure. -/
def Failure.message : Failure → String
  | .parse fault => fault.message
  | .fetch kind path reason =>
    "unable to fetch " ++ kind.typeName ++ " children of '" ++ path ++ "': " ++ reason
  | .unknownFormat code => "Unknown format: " ++ code
  | .childNotPermitted parent child =>
    child.typeName ++ " is not a permitted child of " ++ parent.typeName
  | .missingId kind => kind.typeName ++ " entity has no value for its id attribute"
  | .unknownKind name => "Unknown metadata kind: " ++ name
  | .settings fault => "Config error: " ++ fault.message
  | .unreadable cause => "IO error: " ++ cause.message
  | .json fault => "Serialization error: " ++ fault.message

end ListingMetadata
