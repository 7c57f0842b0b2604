import EditorInsight.Ambient.Bundled
import EditorInsight.Ambient.Decode
import EditorInsight.Ambient.Schema
import EditorInsight.Ambient.Stub
import EditorInsight.Cache.Keyed
import EditorInsight.Cache.Script
import EditorInsight.Cache.Slot
import EditorInsight.Cache.Statistics
import EditorInsight.Data.Dialogue
import EditorInsight.Data.OrderedMap
import EditorInsight.Data.Placement
import EditorInsight.Data.Value
import EditorInsight.Document.Basic
import EditorInsight.Document.Uri
import EditorInsight.Files.Disk
import EditorInsight.Files.Path
import EditorInsight.Files.Tree
import EditorInsight.Files.Write
import EditorInsight.Json.Read
import EditorInsight.Json.Render
import EditorInsight.Library.Listing
import EditorInsight.Library.Probe
import EditorInsight.Library.Resolve
import EditorInsight.Log.Event
import EditorInsight.Log.Moment
import EditorInsight.Log.Output
import EditorInsight.Log.Record
import EditorInsight.Log.Template
import EditorInsight.Main
import EditorInsight.Numeric.Double
import EditorInsight.Numeric.Numeral
import EditorInsight.Numeric.Quantity
import EditorInsight.Numeric.Rounded
import EditorInsight.Numeric.Shortest
import EditorInsight.Proofs.Ambient.MemberSignature
import EditorInsight.Proofs.Ambient.MethodStub
import EditorInsight.Proofs.Cache.Bookkeeping
import EditorInsight.Proofs.Cache.Entries
import EditorInsight.Proofs.Cache.History
import EditorInsight.Proofs.Cache.Recency
import EditorInsight.Proofs.Data.OrderedMap
import EditorInsight.Proofs.Data.ShownValue
import EditorInsight.Proofs.Document.EncodedPath
import EditorInsight.Proofs.Files.Path
import EditorInsight.Proofs.Files.Tree
import EditorInsight.Proofs.Library.DeepImports
import EditorInsight.Proofs.Library.Descent
import EditorInsight.Proofs.Library.Entries
import EditorInsight.Proofs.Library.Existence
import EditorInsight.Proofs.Library.FileSystem
import EditorInsight.Proofs.Library.Listed
import EditorInsight.Proofs.Library.Members
import EditorInsight.Proofs.Library.ModulePath
import EditorInsight.Proofs.Numeric.Clock
import EditorInsight.Proofs.Numeric.Rounding
import EditorInsight.Proofs.Service.Agreement
import EditorInsight.Proofs.Service.Cancellation
import EditorInsight.Proofs.Service.Coherence
import EditorInsight.Proofs.Service.Confinement
import EditorInsight.Proofs.Service.CurrentText
import EditorInsight.Proofs.Service.ImportGate
import EditorInsight.Proofs.Service.InlineText
import EditorInsight.Proofs.Service.OfferedLabels
import EditorInsight.Proofs.Service.Questions
import EditorInsight.Proofs.Service.Recall
import EditorInsight.Proofs.Service.Refinement
import EditorInsight.Proofs.Service.Stages
import EditorInsight.Proofs.Service.Undisturbed
import EditorInsight.Proofs.Service.Versions
import EditorInsight.Proofs.Settings.Decided
import EditorInsight.Proofs.Source.BracketPairs
import EditorInsight.Proofs.Source.Brackets
import EditorInsight.Proofs.Source.CollectedLines
import EditorInsight.Proofs.Source.Continuation
import EditorInsight.Proofs.Source.CursorPlaces
import EditorInsight.Proofs.Source.CursorRuns
import EditorInsight.Proofs.Source.CursorWords
import EditorInsight.Proofs.Source.DottedChains
import EditorInsight.Proofs.Source.EnclosingCall
import EditorInsight.Proofs.Source.Findings
import EditorInsight.Proofs.Source.IndexedLabels
import EditorInsight.Proofs.Source.Locality
import EditorInsight.Proofs.Source.Located
import EditorInsight.Proofs.Source.OfferedSymbols
import EditorInsight.Proofs.Source.Opening
import EditorInsight.Proofs.Source.ParameterList
import EditorInsight.Proofs.Source.ParsedHeader
import EditorInsight.Proofs.Source.Redefinition
import EditorInsight.Proofs.Source.TableReferences
import EditorInsight.Proofs.Source.TopLevelPieces
import EditorInsight.Proofs.Source.TrailingText
import EditorInsight.Proofs.Source.WellFormed
import EditorInsight.Proofs.Source.WrittenHeader
import EditorInsight.Proofs.Text.Blank
import EditorInsight.Proofs.Text.Cutting
import EditorInsight.Proofs.Text.Lines
import EditorInsight.Proofs.Text.Lowercase
import EditorInsight.Proofs.Text.Order
import EditorInsight.Proofs.Text.Utf8
import EditorInsight.Proofs.Watch.FileChange
import EditorInsight.Proofs.Watch.Listeners
import EditorInsight.Proofs.Watch.Restarts
import EditorInsight.Server.Answer
import EditorInsight.Server.Arguments
import EditorInsight.Server.Startup
import EditorInsight.Server.Tool
import EditorInsight.Service.Direct
import EditorInsight.Service.Inquiry
import EditorInsight.Service.Result
import EditorInsight.Service.Session
import EditorInsight.Service.Turn
import EditorInsight.Settings.Basic
import EditorInsight.Settings.Load
import EditorInsight.Source.Cursor
import EditorInsight.Source.Declaration
import EditorInsight.Source.Header
import EditorInsight.Source.Nesting
import EditorInsight.Source.Outline
import EditorInsight.Source.Parameters
import EditorInsight.Source.Reference
import EditorInsight.Source.Symbol
import EditorInsight.Text.AlphanumericTable
import EditorInsight.Text.Basic
import EditorInsight.Text.Blank
import EditorInsight.Text.CasedTable
import EditorInsight.Text.CodePoints
import EditorInsight.Text.Digit
import EditorInsight.Text.Identifier
import EditorInsight.Text.Lines
import EditorInsight.Text.Lowercase
import EditorInsight.Text.LowercaseTable
import EditorInsight.Text.Percent
import EditorInsight.Text.Quoted
import EditorInsight.Text.UnprintableTable
import EditorInsight.Text.Utf8
import EditorInsight.Text.Word
import EditorInsight.Watch.Watcher
import EditorInsight.Yaml.Build
import EditorInsight.Yaml.Fault
import EditorInsight.Yaml.Load
import EditorInsight.Yaml.Node
import EditorInsight.Yaml.Plain
import EditorInsight.Yaml.Property
import EditorInsight.Yaml.Quoted
import EditorInsight.Yaml.Scalar
import EditorInsight.Yaml.Scan
import EditorInsight.Yaml.Source
import EditorInsight.Yaml.Token
