import CodeTint.Cli.Arguments
import CodeTint.Cli.Run
import CodeTint.Cli.Settings
import CodeTint.Config
import CodeTint.Config.Store
import CodeTint.Config.Yaml
import CodeTint.Decimal.Double
import CodeTint.Decoration.Basic
import CodeTint.Decoration.Compute
import CodeTint.Document.Basic
import CodeTint.Document.Edit
import CodeTint.Document.Node
import CodeTint.Document.Reader
import CodeTint.Document.Writer
import CodeTint.Engine.Basic
import CodeTint.Engine.Batches
import CodeTint.Engine.Detector
import CodeTint.Engine.Session
import CodeTint.Highlight.C
import CodeTint.Highlight.Capture
import CodeTint.Highlight.Cpp
import CodeTint.Highlight.Go
import CodeTint.Highlight.Grammar
import CodeTint.Highlight.Ini
import CodeTint.Highlight.Java
import CodeTint.Highlight.Json
import CodeTint.Highlight.Lexeme
import CodeTint.Highlight.Mark
import CodeTint.Highlight.Php
import CodeTint.Highlight.Python
import CodeTint.Highlight.Rust
import CodeTint.Highlight.Scheme
import CodeTint.Highlight.Script
import CodeTint.Highlight.Script.Lexis
import CodeTint.Highlight.Shell
import CodeTint.Highlight.Span
import CodeTint.Highlight.Xml
import CodeTint.Json.Reader
import CodeTint.Json.Value
import CodeTint.Language
import CodeTint.Main
import CodeTint.Parse.Grammar
import CodeTint.Parse.Lexer
import CodeTint.Parse.Parser
import CodeTint.Parse.Pattern
import CodeTint.Parse.Stack
import CodeTint.Parse.Table
import CodeTint.Parse.Tree
import CodeTint.Position.Map
import CodeTint.Position.Mapping
import CodeTint.Render.Listing
import CodeTint.Render.Terminal
import CodeTint.Resource.Cache
import CodeTint.Resource.Loader
import CodeTint.Storage.Disk
import CodeTint.Storage.Path
import CodeTint.Storage.Places
import CodeTint.Style.Category
import CodeTint.Style.Color
import CodeTint.Style.Span
import CodeTint.Text.Blank
import CodeTint.Text.Digits
import CodeTint.Text.Hidden
import CodeTint.Text.Identifier
import CodeTint.Theme.Basic
import CodeTint.Theme.Builtin
import CodeTint.Theme.Library
import CodeTint.Theme.Reader
import CodeTint.Transaction
import CodeTint.Yaml.Node
import CodeTint.Yaml.Printer
import CodeTint.Yaml.Reading
import CodeTint.Yaml.Scalar
import CodeTint.Yaml.Scanner
import CodeTint.Yaml.Tag
import CodeTint.Yaml.Token
import CodeTint.Proofs.Attempt
import CodeTint.Proofs.Cli.Input
import CodeTint.Proofs.Decoration.Batched
import CodeTint.Proofs.Decoration.Computed
import CodeTint.Proofs.Decoration.Coverage
import CodeTint.Proofs.Decoration.CutOff
import CodeTint.Proofs.Decoration.Footprint
import CodeTint.Proofs.Decoration.Remapped
import CodeTint.Proofs.Decoration.Restyling
import CodeTint.Proofs.Decoration.Valid
import CodeTint.Proofs.Document.Cursor
import CodeTint.Proofs.Document.Edit
import CodeTint.Proofs.Document.Flat
import CodeTint.Proofs.Document.Outline
import CodeTint.Proofs.Document.Place
import CodeTint.Proofs.Document.Region
import CodeTint.Proofs.Document.RoundTrip
import CodeTint.Proofs.Document.Undo
import CodeTint.Proofs.Engine.Assembled
import CodeTint.Proofs.Engine.Background
import CodeTint.Proofs.Engine.Booking
import CodeTint.Proofs.Engine.Incremental
import CodeTint.Proofs.Engine.Quiescence
import CodeTint.Proofs.Engine.Retry
import CodeTint.Proofs.Engine.Sparing
import CodeTint.Proofs.Engine.Tokens
import CodeTint.Proofs.Engine.Validity
import CodeTint.Proofs.Engine.Wakeup
import CodeTint.Proofs.Highlight.Flattening
import CodeTint.Proofs.Highlight.Precedence
import CodeTint.Proofs.Highlight.Tiling
import CodeTint.Proofs.Json.Written
import CodeTint.Proofs.Position.Carry
import CodeTint.Proofs.Position.Inverse
import CodeTint.Proofs.Position.Monotone
import CodeTint.Proofs.Position.Retrace
import CodeTint.Proofs.Position.Single
import CodeTint.Proofs.Position.Uncut
import CodeTint.Proofs.Render.Terminal
import CodeTint.Proofs.Resource.Cache
import CodeTint.Proofs.Resource.History
import CodeTint.Proofs.Resource.Report
import CodeTint.Proofs.Storage.Directory
import CodeTint.Proofs.Style.Category
import CodeTint.Proofs.Text.Cut
import CodeTint.Proofs.Theme.Ancestry
import CodeTint.Proofs.Theme.Color
import CodeTint.Proofs.Theme.Listing
import CodeTint.Proofs.Theme.Named
import CodeTint.Proofs.Theme.Resolution
import CodeTint.Proofs.Transaction.Accepted
import CodeTint.Proofs.Transaction.Attributes
import CodeTint.Proofs.Transaction.Built
import CodeTint.Proofs.Transaction.Changed
import CodeTint.Proofs.Transaction.Commands
import CodeTint.Proofs.Transaction.InsertedCode
import CodeTint.Proofs.Transaction.Inside
import CodeTint.Proofs.Transaction.Step
import CodeTint.Proofs.Transaction.Untouched
import CodeTint.Proofs.Transaction.Writes
import CodeTint.Proofs.Yaml.Kept
import CodeTint.Proofs.Yaml.Line
import CodeTint.Proofs.Yaml.Record
import CodeTint.Proofs.Yaml.Scalar
