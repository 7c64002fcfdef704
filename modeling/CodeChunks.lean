import CodeChunks.Assembly
import CodeChunks.Batch.Limit
import CodeChunks.Batch.Processor
import CodeChunks.Batch.Settings
import CodeChunks.Batch.Stats
import CodeChunks.Batch.Summary
import CodeChunks.Chunk
import CodeChunks.Chunker
import CodeChunks.CommandLine.Arguments
import CodeChunks.CommandLine.Help
import CodeChunks.CommandLine.Run
import CodeChunks.Config
import CodeChunks.Entries
import CodeChunks.Error
import CodeChunks.Event
import CodeChunks.Extraction.Details
import CodeChunks.Extraction.Imports
import CodeChunks.Extraction.Naming
import CodeChunks.Extraction.PythonDetails
import CodeChunks.Extraction.ScriptDetails
import CodeChunks.Extraction.Traversal
import CodeChunks.Files.Entry
import CodeChunks.Files.Scan
import CodeChunks.Files.System
import CodeChunks.Json
import CodeChunks.Json.Parser
import CodeChunks.Json.Printer
import CodeChunks.Language
import CodeChunks.Language.Kind
import CodeChunks.Main
import CodeChunks.OsText
import CodeChunks.ParserLibrary
import CodeChunks.Path
import CodeChunks.Proofs.Assembly.Chain
import CodeChunks.Proofs.Assembly.Containment
import CodeChunks.Proofs.Assembly.Ids
import CodeChunks.Proofs.Assembly.Losses
import CodeChunks.Proofs.Assembly.Places
import CodeChunks.Proofs.Assembly.Plain
import CodeChunks.Proofs.Batch.Accounts
import CodeChunks.Proofs.Batch.Concurrency
import CodeChunks.Proofs.Batch.Crew
import CodeChunks.Proofs.Batch.Directory
import CodeChunks.Proofs.Batch.Interleaving
import CodeChunks.Proofs.Batch.Outcomes
import CodeChunks.Proofs.Batch.Permits
import CodeChunks.Proofs.Batch.SingleFile
import CodeChunks.Proofs.Batch.Task
import CodeChunks.Proofs.Chunker.DocumentOrder
import CodeChunks.Proofs.Chunker.Mappings
import CodeChunks.Proofs.Chunker.Switches
import CodeChunks.Proofs.Extraction.ChunkLines
import CodeChunks.Proofs.Extraction.Coarsening
import CodeChunks.Proofs.Extraction.CommentBlocks
import CodeChunks.Proofs.Extraction.Generators
import CodeChunks.Proofs.Extraction.ImportStatements
import CodeChunks.Proofs.Extraction.Names
import CodeChunks.Proofs.Extraction.Spans
import CodeChunks.Proofs.Extraction.Specifiers
import CodeChunks.Proofs.Extraction.Topmost
import CodeChunks.Proofs.Files.Padding
import CodeChunks.Proofs.Files.Scan
import CodeChunks.Proofs.Files.Tree
import CodeChunks.Proofs.Files.Walk
import CodeChunks.Proofs.Json.Lexemes
import CodeChunks.Proofs.Json.Text
import CodeChunks.Proofs.OsText
import CodeChunks.Proofs.Path.Order
import CodeChunks.Proofs.Registry.Calls
import CodeChunks.Proofs.Registry.Loans
import CodeChunks.Proofs.Syntax.FirstFault
import CodeChunks.Proofs.Syntax.Layout
import CodeChunks.Proofs.Syntax.Nesting
import CodeChunks.Proofs.Syntax.Position
import CodeChunks.Proofs.Syntax.Siblings
import CodeChunks.Proofs.Text.Decimal
import CodeChunks.Proofs.Text.Quoted
import CodeChunks.Proofs.Text.Rows
import CodeChunks.Proofs.Text.Slices
import CodeChunks.Proofs.Wire.Documents
import CodeChunks.Proofs.Wire.RoundTrip
import CodeChunks.Registry
import CodeChunks.Syntax.Fault
import CodeChunks.Syntax.Node
import CodeChunks.Text.Blank
import CodeChunks.Text.CaseTable
import CodeChunks.Text.Decimal
import CodeChunks.Text.Lines
import CodeChunks.Text.Lowercase
import CodeChunks.Text.Padding
import CodeChunks.Text.Quoted
import CodeChunks.Toml.Document
import CodeChunks.Toml.Moment
import CodeChunks.Toml.Number
import CodeChunks.Toml.Quoted
import CodeChunks.Toml.Table
import CodeChunks.Wire.Batch
import CodeChunks.Wire.Chunk
import CodeChunks.Wire.Toml
import CodeChunks.Wire.Tree
import CodeChunks.Wire.Workspace
