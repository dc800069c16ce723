import JsxAudit.Asset.Alias
import JsxAudit.Asset.Expression
import JsxAudit.Asset.Fetch
import JsxAudit.Asset.Load
import JsxAudit.Asset.Module
import JsxAudit.Audit.Deferred
import JsxAudit.Audit.Violation
import JsxAudit.Cache.Score
import JsxAudit.Cache.Store
import JsxAudit.Cli.Arguments
import JsxAudit.Cli.Component
import JsxAudit.Cli.Run
import JsxAudit.Config.Provider
import JsxAudit.Config.Resolve
import JsxAudit.Data.EnvReader
import JsxAudit.Data.Fault
import JsxAudit.Data.JsonPrinter
import JsxAudit.Data.JsonReader
import JsxAudit.Data.Keyed
import JsxAudit.Data.Moment
import JsxAudit.Data.TomlReader
import JsxAudit.Data.Value
import JsxAudit.Decimal.Shortest
import JsxAudit.Digest.Sha256
import JsxAudit.Generation.Image
import JsxAudit.Generation.Prompt
import JsxAudit.Generation.Request
import JsxAudit.Generation.Service
import JsxAudit.Generation.Wire
import JsxAudit.Http.Exchange
import JsxAudit.Http.Url
import JsxAudit.Label.AltText
import JsxAudit.Label.Emoji
import JsxAudit.Label.EmojiTable
import JsxAudit.Label.Icon
import JsxAudit.Label.IconTable
import JsxAudit.Label.LoopVariable
import JsxAudit.Main
import JsxAudit.Project.Check
import JsxAudit.Project.Root
import JsxAudit.Project.Scan
import JsxAudit.Project.Selection
import JsxAudit.Project.Settings
import JsxAudit.Repair.Apply
import JsxAudit.Repair.Edit
import JsxAudit.Repair.Locate
import JsxAudit.Report.Grouping
import JsxAudit.Report.Markup
import JsxAudit.Report.Result
import JsxAudit.Report.Score
import JsxAudit.Report.Size
import JsxAudit.Report.Terminal
import JsxAudit.Resolution.Query
import JsxAudit.Resolution.Run
import JsxAudit.Rule.AccessibleName
import JsxAudit.Rule.Basic
import JsxAudit.Rule.Content
import JsxAudit.Rule.Control
import JsxAudit.Rule.Image
import JsxAudit.Rule.Link
import JsxAudit.Rule.Page
import JsxAudit.Rule.Registry
import JsxAudit.Source.Element
import JsxAudit.Source.File
import JsxAudit.Source.Import
import JsxAudit.Source.PageContext
import JsxAudit.Storage.Change
import JsxAudit.Storage.Disk
import JsxAudit.Syntax.Cursor
import JsxAudit.Syntax.Grammar.Element
import JsxAudit.Syntax.Grammar.Expression
import JsxAudit.Syntax.Grammar.Pattern
import JsxAudit.Syntax.Grammar.Statement
import JsxAudit.Syntax.Grammar.Types
import JsxAudit.Syntax.Kind
import JsxAudit.Syntax.Literal
import JsxAudit.Syntax.Node
import JsxAudit.Syntax.Parse
import JsxAudit.Text.Base64
import JsxAudit.Text.Blank
import JsxAudit.Text.Braces
import JsxAudit.Text.Casing
import JsxAudit.Text.CasingTable
import JsxAudit.Text.Digit
import JsxAudit.Text.Glob
import JsxAudit.Text.Path
import JsxAudit.Text.PrintableTable
import JsxAudit.Text.Quoted
import JsxAudit.Text.Utf8
import JsxAudit.Text.Word
import JsxAudit.Proofs.Cache.Score
import JsxAudit.Proofs.Cache.Store
import JsxAudit.Proofs.Data.Keyed
import JsxAudit.Proofs.Data.JsonGrammar
import JsxAudit.Proofs.Data.JsonReading
import JsxAudit.Proofs.Data.JsonRoundTrip
import JsxAudit.Proofs.Data.JsonString
import JsxAudit.Proofs.Data.StableSort
import JsxAudit.Proofs.Label.Emoji
import JsxAudit.Proofs.Label.Wording
import JsxAudit.Proofs.Project.FileByFile
import JsxAudit.Proofs.Project.Repairs
import JsxAudit.Proofs.Project.Penalty
import JsxAudit.Proofs.Project.Rerun
import JsxAudit.Proofs.Project.Rescan
import JsxAudit.Proofs.Project.Run
import JsxAudit.Proofs.Project.Selection
import JsxAudit.Proofs.Repair.Applicable
import JsxAudit.Proofs.Repair.Place
import JsxAudit.Proofs.Repair.Splice
import JsxAudit.Proofs.Repair.Replay
import JsxAudit.Proofs.Repair.Line
import JsxAudit.Proofs.Repair.Returns
import JsxAudit.Proofs.Resolution.Outcome
import JsxAudit.Proofs.Resolution.Requests
import JsxAudit.Proofs.Resolution.Turns
import JsxAudit.Proofs.Rule.Deferred
import JsxAudit.Proofs.Rule.Report
import JsxAudit.Proofs.Source.Program
import JsxAudit.Proofs.Storage.Files
import JsxAudit.Proofs.Storage.Places
import JsxAudit.Proofs.Syntax.Spans
import JsxAudit.Proofs.Text.Bytes
import JsxAudit.Proofs.Resolution.Entries
import JsxAudit.Proofs.Cache.Map
import JsxAudit.Proofs.Config.Misuse
import JsxAudit.Proofs.Cli.Refusal
import JsxAudit.Proofs.Repair.Kept
import JsxAudit.Proofs.Project.Untouched
import JsxAudit.Proofs.Generation.Parts
import JsxAudit.Proofs.Generation.Answer
import JsxAudit.Proofs.Generation.Attempts
import JsxAudit.Proofs.Resolution.Asking
import JsxAudit.Proofs.Cli.Replies
import JsxAudit.Proofs.Cache.Hit
import JsxAudit.Proofs.Resolution.Hits
import JsxAudit.Proofs.Storage.Alike
import JsxAudit.Proofs.Resolution.Twins
import JsxAudit.Proofs.Project.Lasting
import JsxAudit.Proofs.Project.Twins
import JsxAudit.Proofs.Project.History
import JsxAudit.Proofs.Text.Renaming
import JsxAudit.Proofs.Source.Renamed
import JsxAudit.Proofs.Source.RenamedElement
import JsxAudit.Proofs.Source.RenamedProgram
import JsxAudit.Proofs.Label.LoopVariable
import JsxAudit.Proofs.Rule.Renamed
import JsxAudit.Proofs.Rule.RenamedScan
import JsxAudit.Proofs.Report.Document
import JsxAudit.Proofs.Resolution.LabelKeys
import JsxAudit.Proofs.Asset.Expression
import JsxAudit.Proofs.Data.JsonSpacing
import JsxAudit.Proofs.Data.JsonTidy
import JsxAudit.Proofs.Asset.Comments
import JsxAudit.Proofs.Asset.Alias
import JsxAudit.Proofs.Label.Template
import JsxAudit.Proofs.Repair.Attribute
import JsxAudit.Proofs.Repair.Property
import JsxAudit.Proofs.Text.Casing
import JsxAudit.Proofs.Rule.Wording
import JsxAudit.Proofs.Source.Copied
import JsxAudit.Proofs.Rule.VisibleContent
import JsxAudit.Proofs.Label.Spoken
import JsxAudit.Proofs.Rule.Spoken
import JsxAudit.Proofs.Repair.Unwrap
import JsxAudit.Proofs.Source.Inserted
import JsxAudit.Proofs.Source.Scope
import JsxAudit.Proofs.Rule.Metadata
import JsxAudit.Proofs.Repair.Title
import JsxAudit.Proofs.Repair.Course
import JsxAudit.Proofs.Repair.Anchor
import JsxAudit.Proofs.Repair.Emoji
import JsxAudit.Proofs.Repair.Additive
import JsxAudit.Proofs.Repair.Carving
import JsxAudit.Proofs.Text.Blank
import JsxAudit.Proofs.Label.AltText
import JsxAudit.Proofs.Resolution.Labels
import JsxAudit.Proofs.Data.Outcome
import JsxAudit.Proofs.Text.Groups
import JsxAudit.Proofs.Text.Braces
import JsxAudit.Proofs.Generation.Retrying
import JsxAudit.Proofs.Config.Merge
import JsxAudit.Proofs.Config.Precedence
import JsxAudit.Proofs.Resolution.AltTexts
import JsxAudit.Proofs.Project.Scope
import JsxAudit.Proofs.Text.Tokens
import JsxAudit.Proofs.Text.Parts
import JsxAudit.Proofs.Text.Folders
import JsxAudit.Proofs.Asset.Closest
import JsxAudit.Proofs.Asset.Body
import JsxAudit.Proofs.Report.Score
import JsxAudit.Proofs.Report.Grouping
import JsxAudit.Proofs.Rule.Headings
import JsxAudit.Proofs.Rule.Relation
import JsxAudit.Proofs.Source.Route
import JsxAudit.Proofs.Label.Item
import JsxAudit.Proofs.Report.Size
