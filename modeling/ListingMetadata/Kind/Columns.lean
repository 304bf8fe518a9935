/-
  ListingMetadata.Kind.Columns
  ────────────────────────────
  **THE BUILT-IN COLUMNS OF EVERY KIND.**
-/
import ListingMetadata.Kind.Basic
import ListingMetadata.Layout.Column

namespace ListingMetadata.Kind

open Catalog Column

/-- The columns that a kind declares on its own. -/
def builtinColumns : Kind → List Column
  | system =>
    [mandatory "SystemID" alphanum10, optional "SystemDescription" plaintext64,
     optional "TimeZoneOffset" timeZone, optional "Comments" text]
  | resource =>
    [mandatory "ResourceID" identifier64, optional "StandardName" alphanum64,
     mandatory "VisibleName" plaintext32, mandatory "Description" plaintext64,
     mandatory "KeyField" identifier64, mandatory "ClassCount" numeric,
     versionStamp "ClassVersion", dateStamp "ClassDate",
     versionStamp "ObjectVersion", dateStamp "ObjectDate",
     versionStamp "SearchHelpVersion", dateStamp "SearchHelpDate",
     versionStamp "EditMaskVersion", dateStamp "EditMaskDate",
     versionStamp "LookupVersion", dateStamp "LookupDate",
     versionStamp "ValidationExpressionVersion", dateStamp "ValidationExpressionDate",
     versionStamp "ValidationLookupVersion", dateStamp "ValidationLookupDate",
     versionStamp "ValidationExternalVersion", dateStamp "ValidationExternalDate"]
  | propertyClass =>
    [mandatory "ClassName" alphanum32, optional "StandardName" alphanum64,
     mandatory "VisibleName" plaintext32, optional "DBName" alphanum10,
     optional "Description" plaintext128, versionStamp "TableVersion", dateStamp "TableDate",
     versionStamp "UpdateVersion", dateStamp "UpdateDate"]
  | table =>
    [mandatory "SystemName" identifier64, optional "StandardName" alphanum64,
     mandatory "LongName" plaintext32, mandatory "DBName" alphanum10,
     optional "ShortName" plaintext32, mandatory "MaximumLength" positive,
     mandatory "DataType" alphanum10, optional "Precision" numeric,
     mandatory "Searchable" boolean, optional "Interpretation" alphanum24,
     optional "Alignment" alphanum10, optional "UseSeparator" boolean,
     optional "EditMaskID" identifier64, optional "LookupName" identifier64,
     optional "MaxSelect" numeric, optional "Units" alphanum32, optional "Index" boolean,
     optional "Minimum" numeric, optional "Maximum" numeric, optional "Default" numeric,
     optional "Required" numeric, optional "SearchHelpID" identifier64,
     optional "Unique" boolean]
  | update =>
    [mandatory "UpdateName" alphanum24, mandatory "Description" plaintext64,
     mandatory "KeyField" identifier64, versionStamp "UpdateTypeVersion",
     dateStamp "UpdateTypeDate"]
  | updateType =>
    [mandatory "SystemName" identifier64, mandatory "Sequence" numeric,
     mandatory "Attributes" oneToFive, optional "Default" plaintext,
     optional "ValidationExpressionID" text, optional "UpdateHelpID" identifier64,
     optional "ValidationLookupName" identifier64,
     optional "ValidationExternalName" identifier64]
  | object =>
    [mandatory "ObjectType" alphanum24, mandatory "StandardName" alphanum24,
     mandatory "MimeType" plaintext64, optional "Description" plaintext64]
  | searchHelp =>
    [mandatory "SearchHelpID" identifier64, mandatory "Value" text256]
  | editMask =>
    [mandatory "EditMaskID" identifier64, mandatory "Value" text256]
  | lookup =>
    [mandatory "LookupName" identifier64, mandatory "VisibleName" plaintext32,
     versionStamp "LookupTypeVersion", dateStamp "LookupTypeDate"]
  | lookupType =>
    [mandatory "LongValue" plaintext128, mandatory "ShortValue" plaintext32,
     mandatory "Value" plaintext128]
  | validationLookup =>
    [mandatory "ValidationLookupName" identifier64, optional "Parent1Field" identifier64,
     optional "Parent2Field" identifier64, versionStamp "Version", dateStamp "Date"]
  | validationLookupType =>
    [mandatory "ValidText" plaintext32, optional "Parent1Value" plaintext32,
     optional "Parent2Value" plaintext32]
  | validationExternal =>
    [mandatory "ValidationExternalName" identifier64, mandatory "SearchResource" identifier64,
     mandatory "SearchClass" identifier64, versionStamp "Version", dateStamp "Date"]
  | validationExternalType =>
    [mandatory "SearchField" plaintext512, mandatory "DisplayField" plaintext512,
     mandatory "ResultFields" plaintext1024]
  | validationExpression =>
    [mandatory "ValidationExpressionID" identifier64,
     mandatory "ValidationExpressionType" expressionType, mandatory "Value" text512]
  | foreignKey =>
    [mandatory "ForeignKeyID" identifier64, mandatory "ParentResourceID" identifier64,
     mandatory "ParentClassID" identifier64, mandatory "ParentSystemName" identifier64,
     mandatory "ChildResourceID" identifier64, mandatory "ChildClassID" identifier64,
     mandatory "ChildSystemName" identifier64]

end ListingMetadata.Kind
