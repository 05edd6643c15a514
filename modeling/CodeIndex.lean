import CodeIndex.Answer.Basic
import CodeIndex.Answer.Encode
import CodeIndex.Answer.Human
import CodeIndex.Catalog.Basic
import CodeIndex.Catalog.Entry
import CodeIndex.Command.Basic
import CodeIndex.Command.Parse
import CodeIndex.Command.Run
import CodeIndex.Command.Usage
import CodeIndex.Config
import CodeIndex.Decimal.Binary
import CodeIndex.Decimal.Fixed
import CodeIndex.Decimal.Read
import CodeIndex.Decimal.Shortest
import CodeIndex.Disk
import CodeIndex.Document
import CodeIndex.Error
import CodeIndex.Event
import CodeIndex.Extract.Basic
import CodeIndex.Extract.Bodies
import CodeIndex.Extract.Calls
import CodeIndex.Extract.Exports
import CodeIndex.Extract.Imports
import CodeIndex.Extract.Symbols
import CodeIndex.FileTree
import CodeIndex.Fingerprint.Basic
import CodeIndex.Fingerprint.Secret
import CodeIndex.Fingerprint.Word
import CodeIndex.Glob.Basic
import CodeIndex.Glob.Match
import CodeIndex.Glob.Read
import CodeIndex.Graph.Basic
import CodeIndex.Graph.Codec
import CodeIndex.Graph.Link
import CodeIndex.Graph.Query
import CodeIndex.Graph.Update
import CodeIndex.Ignore
import CodeIndex.Json.Basic
import CodeIndex.Json.Decode
import CodeIndex.Json.Number
import CodeIndex.Json.Read
import CodeIndex.Json.Write
import CodeIndex.Language
import CodeIndex.Main
import CodeIndex.Model.Basic
import CodeIndex.Model.Reindex
import CodeIndex.Multimap
import CodeIndex.Path.Basic
import CodeIndex.Project
import CodeIndex.Record.Basic
import CodeIndex.Record.Codec
import CodeIndex.Record.Export
import CodeIndex.Record.Import
import CodeIndex.Record.OfSource
import CodeIndex.Record.Symbol
import CodeIndex.Search.Chunk
import CodeIndex.Search.Codec
import CodeIndex.Search.Index
import CodeIndex.Search.Rank
import CodeIndex.Search.Term
import CodeIndex.Skeleton
import CodeIndex.Source.Character
import CodeIndex.Source.Cursor
import CodeIndex.Source.Grammar.Basic
import CodeIndex.Source.Grammar.Class
import CodeIndex.Source.Grammar.Declaration
import CodeIndex.Source.Grammar.Element
import CodeIndex.Source.Grammar.Expression
import CodeIndex.Source.Grammar.Function
import CodeIndex.Source.Grammar.Module
import CodeIndex.Source.Grammar.Pattern
import CodeIndex.Source.Grammar.Statement
import CodeIndex.Source.Grammar.Template
import CodeIndex.Source.Grammar.TypeExpression
import CodeIndex.Source.Parse
import CodeIndex.Source.Span
import CodeIndex.Source.Token
import CodeIndex.Source.Tree
import CodeIndex.Specifier
import CodeIndex.Staleness
import CodeIndex.State
import CodeIndex.Text.Alphabetic
import CodeIndex.Text.Blank
import CodeIndex.Text.CaseIgnorable
import CodeIndex.Text.CaseMap
import CodeIndex.Text.Cased
import CodeIndex.Text.CodeRange
import CodeIndex.Text.Digits
import CodeIndex.Text.Lowercase
import CodeIndex.Text.Numeric
import CodeIndex.Text.Split
import CodeIndex.Text.Uppercase
import CodeIndex.Text.Utf8
import CodeIndex.Toml.Basic
import CodeIndex.Toml.Moment
import CodeIndex.Toml.Number
import CodeIndex.Toml.Read
import CodeIndex.Toml.Scan
import CodeIndex.Toml.Table
import CodeIndex.Watch
import CodeIndex.Workspace
import CodeIndex.Proofs.Graph.Declared
import CodeIndex.Proofs.Graph.File
import CodeIndex.Proofs.Graph.Edges
import CodeIndex.Proofs.Graph.Teardown
import CodeIndex.Proofs.Graph.View
import CodeIndex.Proofs.Graph.Resolution
import CodeIndex.Proofs.Graph.Linked
import CodeIndex.Proofs.Graph.History
import CodeIndex.Proofs.Graph.Integrity
import CodeIndex.Proofs.Graph.Outline
import CodeIndex.Proofs.Search
import CodeIndex.Proofs.Search.Postings
import CodeIndex.Proofs.Catalog
import CodeIndex.Proofs.Catalog.Reconcile
import CodeIndex.Proofs.Catalog.Importers
import CodeIndex.Proofs.Model.Refresh
import CodeIndex.Proofs.Model.Drain
import CodeIndex.Proofs.FileTree
import CodeIndex.Proofs.Workspace
import CodeIndex.Proofs.Model.Views
import CodeIndex.Proofs.Model.Coherence
import CodeIndex.Proofs.LiveModel
import CodeIndex.Proofs.Incremental
import CodeIndex.Proofs.InterruptedSave
import CodeIndex.Proofs.Catalog.Restart
import CodeIndex.Proofs.Catalog.Race
import CodeIndex.Proofs.Search.History
import CodeIndex.Proofs.Text.Digits
import CodeIndex.Proofs.Text.Utf8
import CodeIndex.Proofs.Json.RoundTrip
import CodeIndex.Proofs.Json.Decode
import CodeIndex.Proofs.Record.Flags
import CodeIndex.Proofs.Record.RoundTrip
import CodeIndex.Proofs.Extract.Declared
import CodeIndex.Proofs.Document
import CodeIndex.Proofs.Model.Reached
import CodeIndex.Proofs.Model.Importers
import CodeIndex.Proofs.Model.Confluence
import CodeIndex.Proofs.Model.Cancellation
import CodeIndex.Proofs.Model.Coalescing
import CodeIndex.Proofs.State
import CodeIndex.Proofs.LostDocuments
import CodeIndex.Proofs.Catalog.Comparison
import CodeIndex.Proofs.Model.Admission
import CodeIndex.Proofs.Model.Lookup
import CodeIndex.Proofs.Skeleton.Merge
import CodeIndex.Proofs.Skeleton.Places
import CodeIndex.Proofs.Skeleton.Replacement
import CodeIndex.Proofs.Skeleton.Rest
import CodeIndex.Proofs.Extract.Bindings
import CodeIndex.Proofs.Graph.ModuleFiles
import CodeIndex.Proofs.Path.Walk
import CodeIndex.Proofs.Specifier.Normal
import CodeIndex.Proofs.Specifier.Reach
import CodeIndex.Proofs.Workspace.Keys
import CodeIndex.Proofs.Skeleton.Components
import CodeIndex.Proofs.Search.Terms
import CodeIndex.Proofs.Catalog.Locality
import CodeIndex.Proofs.Ordered
import CodeIndex.Proofs.Graph.Ranking
import CodeIndex.Proofs.Graph.References
import CodeIndex.Proofs.Event
import CodeIndex.Proofs.Source.Walk
import CodeIndex.Proofs.Extract.Calls
