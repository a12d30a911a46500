import DeadSymbols.Text.Blank
import DeadSymbols.Text.Digit
import DeadSymbols.Text.Letter
import DeadSymbols.Text.Printable
import DeadSymbols.Text.Quoted
import DeadSymbols.Text.Utf8
import DeadSymbols.Number.Double
import DeadSymbols.Number.Integer
import DeadSymbols.Number.Shortest
import DeadSymbols.Calendar
import DeadSymbols.Json
import DeadSymbols.Value
import DeadSymbols.File.Path
import DeadSymbols.File.Tree
import DeadSymbols.Dump.Basic
import DeadSymbols.Dump.Decode
import DeadSymbols.Identity
import DeadSymbols.Resolve
import DeadSymbols.Span
import DeadSymbols.Detector
import DeadSymbols.Graph
import DeadSymbols.Ledger
import DeadSymbols.Report
import DeadSymbols.Index.Analysis
import DeadSymbols.Index.Basic
import DeadSymbols.Index.Decode
import DeadSymbols.Index.Name
import DeadSymbols.Index.Wire
import DeadSymbols.Source.Extent
import DeadSymbols.Source.Lexeme
import DeadSymbols.Source.Node
import DeadSymbols.Source.Outline
import DeadSymbols.Region.Collect
import DeadSymbols.Log
import DeadSymbols.Region.Set
import DeadSymbols.Command.Template
import DeadSymbols.Build
import DeadSymbols.Error
import DeadSymbols.Region.Cache
import DeadSymbols.Session
import DeadSymbols.Command.Execute
import DeadSymbols.Command.Utility
import DeadSymbols.Command.Script
import DeadSymbols.Command.Shell
import DeadSymbols.Command.Builtin
import DeadSymbols.Indexer
import DeadSymbols.Toml.Scalar
import DeadSymbols.Toml.Document
import DeadSymbols.Number.Decimal
import DeadSymbols.Yaml.Token
import DeadSymbols.Yaml.Scan
import DeadSymbols.Yaml.Property
import DeadSymbols.Yaml.Content
import DeadSymbols.Yaml.Lexer
import DeadSymbols.Yaml.Scalar
import DeadSymbols.Yaml.Node
import DeadSymbols.Yaml.Document
import DeadSymbols.Settings.Reader
import DeadSymbols.Settings.Basic
import DeadSymbols.Settings.Document
import DeadSymbols.Settings.File
import DeadSymbols.Settings.Format
import DeadSymbols.Analysis
import DeadSymbols.CommandLine.Arguments
import DeadSymbols.CommandLine.Run
import DeadSymbols.Main
import DeadSymbols.Proofs.Ledger
import DeadSymbols.Proofs.ReportOrder
import DeadSymbols.Proofs.Resolution
import DeadSymbols.Proofs.Ingestion
import DeadSymbols.Proofs.Interruption
import DeadSymbols.Proofs.Representation
import DeadSymbols.Proofs.Renumbering
import DeadSymbols.Proofs.Assembly
import DeadSymbols.Proofs.Batches
import DeadSymbols.Proofs.DetectorReport
import DeadSymbols.Proofs.PrintedIdentities
import DeadSymbols.Proofs.Reingestion
import DeadSymbols.Proofs.Listing
import DeadSymbols.Proofs.Candidates
import DeadSymbols.Proofs.Sessions
import DeadSymbols.Proofs.Loading
import DeadSymbols.Proofs.Admission
import DeadSymbols.Proofs.LeafMembership
import DeadSymbols.Proofs.IndexReport
import DeadSymbols.Proofs.IndexAgreement
import DeadSymbols.Proofs.LocalSymbols
import DeadSymbols.Proofs.SymbolNames
import DeadSymbols.Proofs.Extents
import DeadSymbols.Proofs.RegionOrder
import DeadSymbols.Proofs.RegionLookup
import DeadSymbols.Proofs.Schedule
import DeadSymbols.Proofs.Agreement
import DeadSymbols.Proofs.IngestionOrder
import DeadSymbols.Proofs.ReportResponse
import DeadSymbols.Proofs.RegionHistory
import DeadSymbols.Proofs.Tuning
import DeadSymbols.Proofs.AnalysisReport
import DeadSymbols.Proofs.CommandOutput
import DeadSymbols.Proofs.Containment
import DeadSymbols.Proofs.RegionSearch
import DeadSymbols.Proofs.Columns
import DeadSymbols.Proofs.DecodingFailures
import DeadSymbols.Proofs.DumpEncoding
import DeadSymbols.Proofs.WireWriting
import DeadSymbols.Proofs.MessageWriting
import DeadSymbols.Proofs.MessageDecoding
import DeadSymbols.Proofs.IndexEncoding
import DeadSymbols.Proofs.Consultation
import DeadSymbols.Proofs.Freshness
import DeadSymbols.Proofs.UpperCase
import DeadSymbols.Proofs.NormalSettings
import DeadSymbols.Proofs.YamlScanning
import DeadSymbols.Proofs.YamlTokens
import DeadSymbols.Proofs.YamlNodes
import DeadSymbols.Proofs.YamlValues
import DeadSymbols.Proofs.SettingsFailures
