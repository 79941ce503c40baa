import Enclave.Backend.Basic
import Enclave.Backend.Cluster.Dispatch
import Enclave.Backend.Cluster.Manifest
import Enclave.Backend.Cluster.Phase
import Enclave.Backend.Command
import Enclave.Backend.Container
import Enclave.Backend.Dispatch
import Enclave.Budget
import Enclave.CommandLine
import Enclave.Decimal.Binary
import Enclave.Decimal.Notation
import Enclave.Decimal.Reading
import Enclave.Decimal.Shortest
import Enclave.Failure
import Enclave.Json.Decode
import Enclave.Json.Document
import Enclave.Json.Printer
import Enclave.Json.Value
import Enclave.Naming
import Enclave.Opening
import Enclave.Path.Confinement
import Enclave.Path.Lexical
import Enclave.Path.Tree
import Enclave.Plan.Basic
import Enclave.Plan.Check
import Enclave.Plan.Document
import Enclave.Plan.Schema
import Enclave.Plan.Statement
import Enclave.Proofs.Backend.Alike
import Enclave.Proofs.Backend.Answer
import Enclave.Proofs.Backend.Course
import Enclave.Proofs.Backend.Expansion
import Enclave.Proofs.Backend.Handover
import Enclave.Proofs.Backend.Isolation
import Enclave.Proofs.Backend.Label
import Enclave.Proofs.Backend.Phase
import Enclave.Proofs.Backend.Session
import Enclave.Proofs.Backend.Transport
import Enclave.Proofs.Decimal.Numeral
import Enclave.Proofs.Decimal.Reading
import Enclave.Proofs.Json.Abridged
import Enclave.Proofs.Json.Canonical
import Enclave.Proofs.Json.Decode
import Enclave.Proofs.Json.Dialect
import Enclave.Proofs.Json.Extent
import Enclave.Proofs.Json.Layout
import Enclave.Proofs.Json.Leaf
import Enclave.Proofs.Json.Passage
import Enclave.Proofs.Json.Quotes
import Enclave.Proofs.Json.Reading
import Enclave.Proofs.Json.RoundTrip
import Enclave.Proofs.Json.Spelling
import Enclave.Proofs.Json.Texts
import Enclave.Proofs.Json.Variant
import Enclave.Proofs.Naming
import Enclave.Proofs.Naming.Collision
import Enclave.Proofs.Naming.Identifier
import Enclave.Proofs.Outcome
import Enclave.Proofs.Path.Below
import Enclave.Proofs.Path.Joined
import Enclave.Proofs.Path.Lexical
import Enclave.Proofs.Path.Resolution
import Enclave.Proofs.Plan.Document
import Enclave.Proofs.Plan.Judgement
import Enclave.Proofs.Plan.Misfit
import Enclave.Proofs.Plan.Nodes
import Enclave.Proofs.Plan.ReadBack
import Enclave.Proofs.Plan.Reading
import Enclave.Proofs.Plan.Screening
import Enclave.Proofs.Plan.Statement
import Enclave.Proofs.Plan.Tokens
import Enclave.Proofs.Plan.Tree
import Enclave.Proofs.Plan.Writable
import Enclave.Proofs.Record.Agreement
import Enclave.Proofs.Record.Confinement
import Enclave.Proofs.Record.Directory
import Enclave.Proofs.Record.Document
import Enclave.Proofs.Record.Forms
import Enclave.Proofs.Record.History
import Enclave.Proofs.Record.Readable
import Enclave.Proofs.Record.Store
import Enclave.Proofs.Record.Trace
import Enclave.Proofs.Run.Bounds
import Enclave.Proofs.Run.Encodings
import Enclave.Proofs.Run.Execution
import Enclave.Proofs.Run.Output
import Enclave.Proofs.Run.Request
import Enclave.Proofs.Run.Result
import Enclave.Proofs.Run.Retries
import Enclave.Proofs.Run.Stored
import Enclave.Proofs.Runner.Confinement
import Enclave.Proofs.Runner.Delivery
import Enclave.Proofs.Runner.Rows
import Enclave.Proofs.Sandbox.Dispatch
import Enclave.Proofs.Sandbox.Ending
import Enclave.Proofs.Sandbox.Interleaving
import Enclave.Proofs.Sandbox.Mounted
import Enclave.Proofs.Sandbox.Reason
import Enclave.Proofs.Sandbox.Refusal
import Enclave.Proofs.Sandbox.Steps
import Enclave.Proofs.Sandbox.Timing
import Enclave.Proofs.Script.Arrival
import Enclave.Proofs.Script.BreadthFirst
import Enclave.Proofs.Script.Literal
import Enclave.Proofs.Script.Marks
import Enclave.Proofs.Script.Nesting
import Enclave.Proofs.Script.Offence
import Enclave.Proofs.Script.Orderly
import Enclave.Proofs.Script.Reading
import Enclave.Proofs.Script.Report
import Enclave.Proofs.Script.Spelling
import Enclave.Proofs.Script.Walk
import Enclave.Proofs.Script.Written
import Enclave.Proofs.Settings.Imports
import Enclave.Proofs.Settings.Layers
import Enclave.Proofs.Settings.Omission
import Enclave.Proofs.Settings.Runner
import Enclave.Proofs.Sql.Lexeme
import Enclave.Proofs.Sql.Marks
import Enclave.Proofs.Sql.Outline
import Enclave.Proofs.Sql.Spelling
import Enclave.Proofs.Text.Blank
import Enclave.Proofs.Text.Cut
import Enclave.Proofs.Text.Lines
import Enclave.Proofs.Time.Instant
import Enclave.Query.Engine
import Enclave.Query.Evaluation
import Enclave.Query.Expression
import Enclave.Query.Function
import Enclave.Query.Operation
import Enclave.Record.Capsule
import Enclave.Record.RunId
import Enclave.Record.Store
import Enclave.Run.Deadline
import Enclave.Run.Execution
import Enclave.Run.Output
import Enclave.Run.Request
import Enclave.Run.Result
import Enclave.Runner
import Enclave.Sandbox
import Enclave.Script.Grammar.Basic
import Enclave.Script.Grammar.Expression
import Enclave.Script.Grammar.Pattern
import Enclave.Script.Grammar.Statement
import Enclave.Script.Inspection
import Enclave.Script.Layout
import Enclave.Script.Literal
import Enclave.Script.Numeral
import Enclave.Script.Offence
import Enclave.Script.Policy
import Enclave.Script.Quotation
import Enclave.Script.Report
import Enclave.Script.Run
import Enclave.Script.Token
import Enclave.Script.Tree
import Enclave.Settings.Imports
import Enclave.Settings.Limits
import Enclave.Settings.Retry
import Enclave.Settings.Runner
import Enclave.Settings.Sandbox
import Enclave.Sql.Grammar.Basic
import Enclave.Sql.Grammar.Expression
import Enclave.Sql.Grammar.Query
import Enclave.Sql.Grammar.Statement
import Enclave.Sql.Grammar.TypeName
import Enclave.Sql.Keyword
import Enclave.Sql.Policy
import Enclave.Sql.Screen
import Enclave.Sql.Syntax
import Enclave.Sql.Token
import Enclave.Submission
import Enclave.Table.Cell
import Enclave.Table.Delimited
import Enclave.Table.Frame
import Enclave.Text.Blank
import Enclave.Text.Cut
import Enclave.Text.Identifier
import Enclave.Text.Identifier.Letters
import Enclave.Text.Lossy
import Enclave.Text.Quoted
import Enclave.Time.Instant
import Enclave.Word
