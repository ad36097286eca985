import ImageCheck.Batch.Input
import ImageCheck.Batch.Plan
import ImageCheck.Batch.Report
import ImageCheck.Batch.Run
import ImageCheck.Clause.Json
import ImageCheck.Clause.Key
import ImageCheck.Clause.Parameter
import ImageCheck.Clause.Split
import ImageCheck.Code
import ImageCheck.Command.Arguments
import ImageCheck.Command.Run
import ImageCheck.Compile.Clause
import ImageCheck.Compile.Compilation
import ImageCheck.Compile.Error
import ImageCheck.Compile.Value
import ImageCheck.Config.Environment
import ImageCheck.Config.File
import ImageCheck.Files
import ImageCheck.Json.Basic
import ImageCheck.Json.Reader
import ImageCheck.Json.Record
import ImageCheck.Json.Token
import ImageCheck.Json.Writer
import ImageCheck.Log.Context
import ImageCheck.Log.Event
import ImageCheck.Log.Level
import ImageCheck.Log.Report
import ImageCheck.Log.Session
import ImageCheck.Number.Binary64
import ImageCheck.Number.Decimal
import ImageCheck.Number.Shortest
import ImageCheck.Spec
import ImageCheck.Spec.Json
import ImageCheck.Text.Blank
import ImageCheck.Text.Hex
import ImageCheck.Text.Position
import ImageCheck.Text.Span
import ImageCheck.Toml.Basic
import ImageCheck.Toml.Document
import ImageCheck.Toml.Quoted
import ImageCheck.Toml.Scalar
import ImageCheck.Value.ErrorRate
import ImageCheck.Value.Token
import ImageCheck.Main
import ImageCheck.Proofs.Clause.Grammar
import ImageCheck.Proofs.Clause.Quoting
import ImageCheck.Proofs.Clause.Reading
import ImageCheck.Proofs.Clause.Splitting
import ImageCheck.Proofs.Clause.Broken
import ImageCheck.Proofs.Compile.Accumulation
import ImageCheck.Proofs.Compile.Admissible
import ImageCheck.Proofs.Compile.Failure
import ImageCheck.Proofs.Compile.Fault
import ImageCheck.Proofs.Compile.Meaning
import ImageCheck.Proofs.Compile.Run
import ImageCheck.Proofs.Batch.Chunks
import ImageCheck.Proofs.Batch.Workers
import ImageCheck.Proofs.Batch.Agreement
import ImageCheck.Proofs.Batch.FailFast
import ImageCheck.Proofs.Value.Reader
import ImageCheck.Proofs.Number.Digits
import ImageCheck.Proofs.Number.Rounding
import ImageCheck.Proofs.Number.ReadBack
import ImageCheck.Proofs.Compile.Writing
import ImageCheck.Proofs.Value.Printed
import ImageCheck.Proofs.Compile.RoundTrip
import ImageCheck.Proofs.Clause.Joining
import ImageCheck.Proofs.Json.ReadBack
import ImageCheck.Proofs.Spec.Json
import ImageCheck.Proofs.Checked.Basic
import ImageCheck.Proofs.Checked.Split
import ImageCheck.Proofs.Checked.Read
import ImageCheck.Proofs.Checked.Compile
import ImageCheck.Proofs.Compile.Independence
import ImageCheck.Proofs.Compile.Order
import ImageCheck.Proofs.Value.Rate
import ImageCheck.Proofs.Batch.Journal
import ImageCheck.Proofs.Log.Context
import ImageCheck.Proofs.Batch.Truth
import ImageCheck.Proofs.Clause.Places
import ImageCheck.Proofs.Compile.Excerpt
import ImageCheck.Proofs.Value.Filter
import ImageCheck.Proofs.Log.Session
import ImageCheck.Proofs.Value.Numbers
import ImageCheck.Proofs.Value.Located
import ImageCheck.Proofs.Value.Payload
import ImageCheck.Proofs.Value.RateGrammar
import ImageCheck.Proofs.Batch.Lines
import ImageCheck.Proofs.Log.Line
import ImageCheck.Proofs.Value.Integer
import ImageCheck.Proofs.Batch.Pieces
import ImageCheck.Proofs.Batch.Threads
import ImageCheck.Proofs.Batch.Visits
import ImageCheck.Proofs.Text.Boundary
import ImageCheck.Proofs.Text.Covering
import ImageCheck.Proofs.Log.Clamp
import ImageCheck.Proofs.Number.Grammar
