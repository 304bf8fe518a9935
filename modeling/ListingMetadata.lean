import ListingMetadata.Text.Blank
import ListingMetadata.Text.Fold
import ListingMetadata.Text.Printable
import ListingMetadata.Text.Quoted
import ListingMetadata.Number.Binary
import ListingMetadata.Calendar.Day
import ListingMetadata.Calendar.Instant
import ListingMetadata.Calendar.Internet
import ListingMetadata.Calendar.Mail
import ListingMetadata.Calendar.Plain
import ListingMetadata.Json.Fault
import ListingMetadata.Json.Lexeme
import ListingMetadata.Json.Draft
import ListingMetadata.Value.Basic
import ListingMetadata.Value.Catalog
import ListingMetadata.Value.Json
import ListingMetadata.Value.Reading
import ListingMetadata.Kind.Basic
import ListingMetadata.Kind.Columns
import ListingMetadata.Layout.Basic
import ListingMetadata.Layout.Indexed
import ListingMetadata.Layout.Registry
import ListingMetadata.Entity.Event
import ListingMetadata.Text.Named
import ListingMetadata.Entity.Basic
import ListingMetadata.Document.Basic
import ListingMetadata.Document.Reading
import ListingMetadata.Document.Build
import ListingMetadata.Source.Basic
import ListingMetadata.Source.Fetching
import ListingMetadata.Section.Basic
import ListingMetadata.Section.Compact
import ListingMetadata.Section.Standard
import ListingMetadata.Query.Basic
import ListingMetadata.Query.Json
import ListingMetadata.Query.Statement
import ListingMetadata.Workbench
import ListingMetadata.Watch.Listeners
import ListingMetadata.Watch.Monitor
import ListingMetadata.Toml.Reading
import ListingMetadata.Settings.Basic
import ListingMetadata.Command.Invocation
import ListingMetadata.Command.Run
import ListingMetadata.Main
import ListingMetadata.Proofs.Kind.Hierarchy
import ListingMetadata.Proofs.Entity.Resolved
import ListingMetadata.Proofs.Entity.Placing
import ListingMetadata.Proofs.Entity.Adding
import ListingMetadata.Proofs.Entity.Attributes
import ListingMetadata.Proofs.Entity.Census
import ListingMetadata.Proofs.Entity.Outline
import ListingMetadata.Proofs.Entity.Paths
import ListingMetadata.Proofs.Entity.WellFormed
import ListingMetadata.Proofs.Section.Outline
import ListingMetadata.Proofs.Source.Materializing
import ListingMetadata.Proofs.Source.Lasting
import ListingMetadata.Proofs.Document.Filing
import ListingMetadata.Proofs.Document.Building
import ListingMetadata.Proofs.Document.Locality
import ListingMetadata.Proofs.Document.Pruning
import ListingMetadata.Proofs.Document.Live
import ListingMetadata.Proofs.Document.Agreement
import ListingMetadata.Proofs.Document.Comparison
import ListingMetadata.Proofs.Workbench.Keeping
import ListingMetadata.Proofs.Workbench.Tasks
import ListingMetadata.Proofs.Workbench.Paths
import ListingMetadata.Proofs.Workbench.WellFormed
import ListingMetadata.Proofs.Entity.Slots
import ListingMetadata.Proofs.Source.Requests
import ListingMetadata.Proofs.Source.Departures
import ListingMetadata.Proofs.Source.Ending
import ListingMetadata.Proofs.Source.Exploring
import ListingMetadata.Proofs.Source.Growing
import ListingMetadata.Proofs.Workbench.Requests
import ListingMetadata.Proofs.Workbench.Slots
import ListingMetadata.Proofs.Number.Digits
import ListingMetadata.Proofs.Value.Versions
import ListingMetadata.Proofs.Value.RoundTrip
import ListingMetadata.Proofs.Calendar.Day
import ListingMetadata.Proofs.Calendar.Texts
import ListingMetadata.Proofs.Value.DateRoundTrip
import ListingMetadata.Proofs.Layout.Builtin
import ListingMetadata.Proofs.Section.Cells
import ListingMetadata.Proofs.Text.Splitting
import ListingMetadata.Proofs.Value.Characters
import ListingMetadata.Proofs.Section.Escapes
import ListingMetadata.Proofs.Section.Pairs
import ListingMetadata.Proofs.Entity.StrictlyRead
import ListingMetadata.Proofs.Kind.Words
import ListingMetadata.Proofs.Section.Table
import ListingMetadata.Proofs.Section.Headers
import ListingMetadata.Proofs.Section.Transcript
import ListingMetadata.Proofs.Section.Decoding
import ListingMetadata.Proofs.Query.Grouping
import ListingMetadata.Proofs.Query.Operands
import ListingMetadata.Proofs.Query.Literals
import ListingMetadata.Proofs.Section.Places
import ListingMetadata.Proofs.Section.Pieces
import ListingMetadata.Proofs.Section.Once
import ListingMetadata.Proofs.Section.Apart
import ListingMetadata.Proofs.Watch.Calls
import ListingMetadata.Proofs.Watch.Runs
import ListingMetadata.Proofs.Text.Named
import ListingMetadata.Proofs.Entity.Rereading
import ListingMetadata.Proofs.Document.Reloading
import ListingMetadata.Proofs.Query.Patterns
import ListingMetadata.Proofs.Json.Lexemes
import ListingMetadata.Proofs.Json.Spelling
import ListingMetadata.Proofs.Document.JsonRoundTrip
import ListingMetadata.Proofs.Query.JsonRoundTrip
import ListingMetadata.Proofs.Layout.History
import ListingMetadata.Proofs.Workbench.Histories
import ListingMetadata.Proofs.Workbench.Layouts
import ListingMetadata.Proofs.Entity.Lineage
import ListingMetadata.Proofs.Entity.Moving
import ListingMetadata.Proofs.Workbench.Moving
import ListingMetadata.Proofs.Entity.Legible
import ListingMetadata.Proofs.Workbench.Legible
import ListingMetadata.Proofs.Entity.Naming
import ListingMetadata.Proofs.Workbench.Attributes
import ListingMetadata.Proofs.Layout.Lookup
import ListingMetadata.Proofs.Workbench.Materializing
import ListingMetadata.Proofs.Source.Gathering
import ListingMetadata.Proofs.Workbench.Gathering
import ListingMetadata.Proofs.Section.SystemTag
import ListingMetadata.Proofs.Query.Quotes
import ListingMetadata.Proofs.Value.Families
import ListingMetadata.Proofs.Workbench.Families
import ListingMetadata.Proofs.Layout.Changes
import ListingMetadata.Proofs.Layout.Index
import ListingMetadata.Proofs.Text.Bytes
import ListingMetadata.Proofs.Value.Zones
