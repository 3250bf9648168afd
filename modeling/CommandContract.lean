import CommandContract.Argument.Split
import CommandContract.Argument.Token
import CommandContract.Blob.Base64
import CommandContract.Blob.Normalize
import CommandContract.Blob.Record
import CommandContract.Chain.Effects
import CommandContract.Chain.Next
import CommandContract.Chain.Run
import CommandContract.Command.Call
import CommandContract.Command.Codec
import CommandContract.Command.Spec
import CommandContract.CommandLine.Activity
import CommandContract.CommandLine.Options
import CommandContract.CommandLine.Schema
import CommandContract.Condition.Expression
import CommandContract.Condition.Token
import CommandContract.Config.Basic
import CommandContract.Config.Load
import CommandContract.Descriptor
import CommandContract.Digest.Md5
import CommandContract.Digest.Sha1
import CommandContract.Digest.Sha256
import CommandContract.Engine.Basic
import CommandContract.Engine.Execute
import CommandContract.Error
import CommandContract.FileTree
import CommandContract.Handler.Builtin
import CommandContract.Handler.Invocation
import CommandContract.Handler.Program
import CommandContract.Handler.Registry
import CommandContract.Identifier
import CommandContract.Json.Fields
import CommandContract.Json.Numeral
import CommandContract.Json.Printer
import CommandContract.Json.Reader
import CommandContract.Json.Value
import CommandContract.Literal
import CommandContract.Lookup
import CommandContract.Main
import CommandContract.Manifest.Basic
import CommandContract.Manifest.Load
import CommandContract.Members
import CommandContract.Merge
import CommandContract.Number.Binary64
import CommandContract.Number.Decimal
import CommandContract.Number.Numeral
import CommandContract.Number.Power
import CommandContract.Parameter.Spec
import CommandContract.Parameter.Type
import CommandContract.Parameter.Validation
import CommandContract.Path
import CommandContract.Proofs.Argument.Equals
import CommandContract.Proofs.Argument.Nesting
import CommandContract.Proofs.Argument.Quoting
import CommandContract.Proofs.Argument.Split
import CommandContract.Proofs.Argument.Token
import CommandContract.Proofs.Blob.Base64
import CommandContract.Proofs.Blob.Classify
import CommandContract.Proofs.Blob.Lasting
import CommandContract.Proofs.Blob.Limit
import CommandContract.Proofs.Blob.Recognition
import CommandContract.Proofs.Blob.Record
import CommandContract.Proofs.Chain.Agreement
import CommandContract.Proofs.Chain.Atomic
import CommandContract.Proofs.Chain.Context
import CommandContract.Proofs.Chain.Course
import CommandContract.Proofs.Chain.Effects
import CommandContract.Proofs.Chain.Mounting
import CommandContract.Proofs.Chain.Onward
import CommandContract.Proofs.Chain.Path
import CommandContract.Proofs.Chain.Trace
import CommandContract.Proofs.Command.Codec
import CommandContract.Proofs.Command.Line
import CommandContract.Proofs.Command.ListArguments
import CommandContract.Proofs.Command.NamedArgument
import CommandContract.Proofs.Command.ObjectStyle
import CommandContract.Proofs.Command.QuotedArguments
import CommandContract.Proofs.Command.StylesAgree
import CommandContract.Proofs.Condition.Comparison
import CommandContract.Proofs.Condition.Grammar
import CommandContract.Proofs.Condition.Lexing
import CommandContract.Proofs.Condition.Numerals
import CommandContract.Proofs.Condition.Printing
import CommandContract.Proofs.Condition.Reported
import CommandContract.Proofs.Condition.Scan
import CommandContract.Proofs.Except
import CommandContract.Proofs.FileTree.Alike
import CommandContract.Proofs.FileTree.Canonical
import CommandContract.Proofs.Handler.Resolution
import CommandContract.Proofs.Json.Distinct
import CommandContract.Proofs.Json.Equality
import CommandContract.Proofs.Json.Fields
import CommandContract.Proofs.Json.Numeral
import CommandContract.Proofs.Json.Outline
import CommandContract.Proofs.Json.Printing
import CommandContract.Proofs.Json.Reading
import CommandContract.Proofs.Json.Spelling
import CommandContract.Proofs.Literal.Compact
import CommandContract.Proofs.Literal.Failure
import CommandContract.Proofs.Literal.Grammar
import CommandContract.Proofs.Literal.Reading
import CommandContract.Proofs.Literal.Strict
import CommandContract.Proofs.Manifest.Composition
import CommandContract.Proofs.Manifest.Law
import CommandContract.Proofs.Manifest.Load
import CommandContract.Proofs.Manifest.Merge
import CommandContract.Proofs.Manifest.Repeated
import CommandContract.Proofs.Manifest.Retention
import CommandContract.Proofs.Manifest.Tree
import CommandContract.Proofs.Manifest.Undeclared
import CommandContract.Proofs.Manifest.Visiting
import CommandContract.Proofs.Members
import CommandContract.Proofs.Merge.Mirrored
import CommandContract.Proofs.Merge.Path
import CommandContract.Proofs.Merge.Repeated
import CommandContract.Proofs.Number.Range
import CommandContract.Proofs.Number.Rounding
import CommandContract.Proofs.Number.Shortest
import CommandContract.Proofs.Number.Text
import CommandContract.Proofs.Path.Guard
import CommandContract.Proofs.Path.Join
import CommandContract.Proofs.Redaction
import CommandContract.Proofs.Rpc.Frame
import CommandContract.Proofs.Rpc.Receipt
import CommandContract.Proofs.Template.HandOver
import CommandContract.Proofs.Template.Rendering
import CommandContract.Proofs.Text.Bytes
import CommandContract.Proofs.Text.Class
import CommandContract.Proofs.Text.Pieces
import CommandContract.Proofs.Text.Run
import CommandContract.Proofs.Text.Trim
import CommandContract.Proofs.Validation.Coercion
import CommandContract.Proofs.Validation.Forecast
import CommandContract.Proofs.Validation.Integers
import CommandContract.Proofs.Validation.Normal
import CommandContract.Proofs.Validation.Prepared
import CommandContract.Proofs.Validation.Repeat
import CommandContract.Proofs.Validation.Type
import CommandContract.Proofs.Validation.Union
import CommandContract.Redaction
import CommandContract.Report
import CommandContract.Result
import CommandContract.Rpc
import CommandContract.Shell.Arithmetic
import CommandContract.Shell.Builtin
import CommandContract.Shell.Bytes
import CommandContract.Shell.Call
import CommandContract.Shell.Channel
import CommandContract.Shell.Command
import CommandContract.Shell.Condition
import CommandContract.Shell.Expansion
import CommandContract.Shell.Format
import CommandContract.Shell.Launch
import CommandContract.Shell.Machine
import CommandContract.Shell.Pattern
import CommandContract.Shell.Program
import CommandContract.Shell.Reader
import CommandContract.Shell.Redirect
import CommandContract.Shell.Run
import CommandContract.Shell.Signal
import CommandContract.Shell.Source
import CommandContract.Shell.Text
import CommandContract.State
import CommandContract.Template
import CommandContract.Text.Blank
import CommandContract.Text.DecimalDigit
import CommandContract.Text.Diagnostic
import CommandContract.Text.Letter
import CommandContract.Text.LetterCase
import CommandContract.Text.Pieces
import CommandContract.Text.Printable
import CommandContract.Text.Ranges
import CommandContract.Text.Utf8
import CommandContract.Toml.Document
import CommandContract.Toml.Outline
import CommandContract.Toml.Scalar
import CommandContract.Toml.Token
import CommandContract.Trace
import CommandContract.Utility.Calendar
import CommandContract.Utility.Characters
import CommandContract.Utility.Columns
import CommandContract.Utility.Comparing
import CommandContract.Utility.Copying
import CommandContract.Utility.Counting
import CommandContract.Utility.Edit
import CommandContract.Utility.EditScript
import CommandContract.Utility.Encoding
import CommandContract.Utility.Places
import CommandContract.Utility.RecordReader
import CommandContract.Utility.RecordRun
import CommandContract.Utility.RecordScript
import CommandContract.Utility.RecordToken
import CommandContract.Utility.RecordValue
import CommandContract.Utility.Regex
import CommandContract.Utility.Search
import CommandContract.Utility.Sorting
import CommandContract.Utility.Table
import CommandContract.Utility.Task
import CommandContract.Utility.Words
