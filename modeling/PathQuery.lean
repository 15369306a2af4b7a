import PathQuery.Binary
import PathQuery.Command.Event
import PathQuery.Command.Failure
import PathQuery.Command.FileTree
import PathQuery.Command.Invocation
import PathQuery.Command.Options
import PathQuery.Command.Outcome
import PathQuery.Command.Refusal
import PathQuery.Command.Run
import PathQuery.Command.Verbosity
import PathQuery.Command.Word
import PathQuery.Decimal.Shortest
import PathQuery.Decimal.Text
import PathQuery.Json.Basic
import PathQuery.Json.Decode
import PathQuery.Json.Literal
import PathQuery.Json.Token
import PathQuery.Json.Tree
import PathQuery.Log
import PathQuery.Main
import PathQuery.Name
import PathQuery.OrderedMap
import PathQuery.Path
import PathQuery.Query.Arguments
import PathQuery.Query.Compile
import PathQuery.Query.Compiler
import PathQuery.Query.Error
import PathQuery.Query.Event
import PathQuery.Query.File
import PathQuery.Query.IncludePath
import PathQuery.Query.Operation
import PathQuery.Query.Projection
import PathQuery.Query.Spec
import PathQuery.Query.State
import PathQuery.Scalar
import PathQuery.Schema.Error
import PathQuery.Schema.File
import PathQuery.Schema.ObjectType
import PathQuery.Schema.Registry
import PathQuery.Schema.TypeRef
import PathQuery.Selection
import PathQuery.Selection.Text
import PathQuery.Text.Blank
import PathQuery.Text.Hidden
import PathQuery.Text.Lowercase
import PathQuery.Text.Quoted
import PathQuery.Value.Basic
import PathQuery.Value.Decode
import PathQuery.Value.Json
import PathQuery.Value.Typing
import PathQuery.Proofs.Declaration
import PathQuery.Proofs.Resolution
import PathQuery.Proofs.Compilation
import PathQuery.Proofs.BoundVariables
import PathQuery.Proofs.Pruning
import PathQuery.Proofs.EmptySelection
import PathQuery.Proofs.Naming
import PathQuery.Proofs.Registration
import PathQuery.Proofs.WellNamed
import PathQuery.Proofs.Grammar
import PathQuery.Proofs.Tokenizer
import PathQuery.Proofs.Reader
import PathQuery.Proofs.Document
import PathQuery.Proofs.Mentions
import PathQuery.Proofs.Scan
import PathQuery.Proofs.Consumption
import PathQuery.Proofs.Agreement
import PathQuery.Proofs.TypedSelection
import PathQuery.Proofs.TypeReferences
import PathQuery.Proofs.JsonGrammar
import PathQuery.Proofs.JsonReader
import PathQuery.Proofs.JsonWriter
import PathQuery.Proofs.Payload
import PathQuery.Proofs.References
import PathQuery.Proofs.Acceptance
import PathQuery.Proofs.Faults
import PathQuery.Proofs.Navigation
import PathQuery.Proofs.Walk
import PathQuery.Proofs.Finding
import PathQuery.Proofs.Contents
import PathQuery.Proofs.Account
import PathQuery.Proofs.DeadEnds
import PathQuery.Proofs.TypeJudgement
import PathQuery.Proofs.Blame
import PathQuery.Proofs.Freshness
import PathQuery.Proofs.Vacancies
import PathQuery.Proofs.Rounding
import PathQuery.Proofs.Dialect
import PathQuery.Proofs.RoundTrip
import PathQuery.Proofs.DanglingReports
import PathQuery.Proofs.Spellings
import PathQuery.Proofs.Words
import PathQuery.Proofs.Layout
import PathQuery.Proofs.Lookup
import PathQuery.Proofs.QueryNames
import PathQuery.Proofs.Appending
import PathQuery.Proofs.Wrapping
