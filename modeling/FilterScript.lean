import FilterScript.Clock
import FilterScript.CommandLine.Arguments
import FilterScript.CommandLine.Basic
import FilterScript.CommandLine.Files
import FilterScript.CommandLine.Shell
import FilterScript.Config
import FilterScript.Context
import FilterScript.Digest
import FilterScript.Failure
import FilterScript.Filter.Basic
import FilterScript.Filter.Mask
import FilterScript.Filter.Operation
import FilterScript.Filter.Transform
import FilterScript.Headless
import FilterScript.Interpreter.Basic
import FilterScript.Interpreter.Session
import FilterScript.Interpreter.Settle
import FilterScript.Job.Basic
import FilterScript.Job.Path
import FilterScript.Job.Record
import FilterScript.Json.Basic
import FilterScript.Json.Complaint
import FilterScript.Json.Decoder
import FilterScript.Json.Printer
import FilterScript.Json.Reader
import FilterScript.Logger
import FilterScript.Main
import FilterScript.Message
import FilterScript.Number.Decimal
import FilterScript.Number.Elementary
import FilterScript.Number.Power
import FilterScript.Number.Rounding
import FilterScript.Number.Single
import FilterScript.Number.Text
import FilterScript.Primitive.Argument
import FilterScript.Primitive.Basic
import FilterScript.Random
import FilterScript.Scheduler
import FilterScript.Script.Arithmetic
import FilterScript.Script.Error
import FilterScript.Script.Evaluator
import FilterScript.Script.Evaluator.Call
import FilterScript.Script.Evaluator.Chain
import FilterScript.Script.Evaluator.Rules
import FilterScript.Script.Lexer
import FilterScript.Script.Library.Collection
import FilterScript.Script.Library.Number
import FilterScript.Script.Library.Text
import FilterScript.Script.Machine
import FilterScript.Script.Outcome
import FilterScript.Script.ParseError
import FilterScript.Script.Parser
import FilterScript.Script.Parser.Control
import FilterScript.Script.Parser.Literal
import FilterScript.Script.Parser.Operand
import FilterScript.Script.Parser.State
import FilterScript.Script.Parser.Statement
import FilterScript.Script.Place
import FilterScript.Script.Simplify
import FilterScript.Script.Token
import FilterScript.Script.Tree
import FilterScript.Script.Value
import FilterScript.Text.Quoted
import FilterScript.Text.Unprinted
import FilterScript.Thread
import FilterScript.Thread.Step
import FilterScript.Timestamp
import FilterScript.Transcript
import FilterScript.Widget.Basic
import FilterScript.Widget.Registry
import FilterScript.Proofs.Json.Token
import FilterScript.Proofs.Json.Tree
import FilterScript.Proofs.Json.Decoder
import FilterScript.Proofs.Message
import FilterScript.Proofs.Message.Host
import FilterScript.Proofs.Transcript
import FilterScript.Proofs.Scheduler
import FilterScript.Proofs.Number.Rounding
import FilterScript.Proofs.Number.Single
import FilterScript.Proofs.Number.Whole
import FilterScript.Proofs.Number.Grid
import FilterScript.Proofs.Number.Remainder
import FilterScript.Proofs.Random
import FilterScript.Proofs.Random.Fairness
import FilterScript.Proofs.Thread.Conduct
import FilterScript.Proofs.Thread.Exchange
import FilterScript.Proofs.Script.Action
import FilterScript.Proofs.Script.Machine
import FilterScript.Proofs.Script.Call
import FilterScript.Proofs.Script.Chain
import FilterScript.Proofs.Script.Rules
import FilterScript.Proofs.Script.Outcome
import FilterScript.Proofs.Script.Command
import FilterScript.Proofs.Script.Notices
import FilterScript.Proofs.Script.Monitor
import FilterScript.Proofs.Script.Refusal
import FilterScript.Proofs.Primitive.Argument
import FilterScript.Proofs.Primitive.Select
import FilterScript.Proofs.Script.Reading
import FilterScript.Proofs.Script.Survival
import FilterScript.Proofs.Primitive.Whole
import FilterScript.Proofs.Widget.Registry
import FilterScript.Proofs.Widget.History
import FilterScript.Proofs.Interpreter.View
import FilterScript.Proofs.Interpreter.System
import FilterScript.Proofs.Interpreter.Standing
import FilterScript.Proofs.Interpreter.Sound.Basic
import FilterScript.Proofs.Interpreter.Sound.Replace
import FilterScript.Proofs.Interpreter.Sound.Receive
import FilterScript.Proofs.Interpreter.Sound.Frame
import FilterScript.Proofs.Interpreter.Sound
import FilterScript.Proofs.Interpreter.Held
import FilterScript.Proofs.Interpreter.Unserved
import FilterScript.Proofs.Interpreter.Ledger.Basic
import FilterScript.Proofs.Interpreter.Ledger.Step
import FilterScript.Proofs.Interpreter.Ledger.Replace
import FilterScript.Proofs.Interpreter.Ledger.Receive
import FilterScript.Proofs.Interpreter.Ledger
import FilterScript.Proofs.Interpreter.Output
import FilterScript.Proofs.Interpreter.Reached
import FilterScript.Proofs.Interpreter.Watch
import FilterScript.Proofs.Interpreter.Trace
import FilterScript.Proofs.Interpreter.Stepwise
import FilterScript.Proofs.Interpreter.Stock
import FilterScript.Proofs.Filter.Coverage
import FilterScript.Proofs.Filter.Field
import FilterScript.Proofs.Filter.Build
import FilterScript.Proofs.Filter.Edit
import FilterScript.Proofs.Filter.Calls
import FilterScript.Proofs.Filter.Sample
import FilterScript.Proofs.Interpreter.Snapshots
import FilterScript.Proofs.Interpreter.Upkeep
import FilterScript.Proofs.Interpreter.Marks
import FilterScript.Proofs.Interpreter.Orphans
import FilterScript.Proofs.Interpreter.Waiting
import FilterScript.Proofs.Interpreter.Ends
import FilterScript.Proofs.Interpreter.Report
import FilterScript.Proofs.Interpreter.Diagnostics
import FilterScript.Proofs.Interpreter.Calm
import FilterScript.Proofs.Interpreter.Agreement
import FilterScript.Proofs.Interpreter.WidgetValues
import FilterScript.Proofs.Interpreter.Lost
import FilterScript.Proofs.Interpreter.ClockReading
import FilterScript.Proofs.Interpreter.Course
import FilterScript.Proofs.Interpreter.LogBudget
import FilterScript.Proofs.Widget.Announcement
import FilterScript.Proofs.Headless.Behaviour
import FilterScript.Proofs.Headless.Calls
import FilterScript.Proofs.Headless.Leftovers
import FilterScript.Proofs.Headless.Along
import FilterScript.Proofs.Headless.Pace
import FilterScript.Proofs.Headless.Run
import FilterScript.Proofs.Headless.Schedule
import FilterScript.Proofs.Headless.Progress
import FilterScript.Proofs.Headless.Transcript
import FilterScript.Proofs.Headless.Isolation
import FilterScript.Proofs.Json.Record
import FilterScript.Proofs.Job.Wire
import FilterScript.Proofs.CommandLine.Files
import FilterScript.Proofs.CommandLine.Record
