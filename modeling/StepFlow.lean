import StepFlow.Channel.Board
import StepFlow.Flow.Basic
import StepFlow.Flow.Decode
import StepFlow.Flow.Diagnose
import StepFlow.Flow.Document
import StepFlow.Flow.Encode
import StepFlow.Flow.Problem
import StepFlow.Flow.Route
import StepFlow.History.Basic
import StepFlow.History.Stores
import StepFlow.Http.Call
import StepFlow.Http.Scripted
import StepFlow.Json.Basic
import StepFlow.Json.Read
import StepFlow.Json.Write
import StepFlow.Log.Basic
import StepFlow.Log.Session
import StepFlow.Number.Binary64
import StepFlow.Number.Decimal
import StepFlow.Number.Numeral
import StepFlow.Run.Drive
import StepFlow.Run.Entry
import StepFlow.Run.Executor
import StepFlow.Run.Handler
import StepFlow.Script.Builtin
import StepFlow.Script.Eval
import StepFlow.Script.Exec
import StepFlow.Script.Fault
import StepFlow.Script.Operator
import StepFlow.Script.Parse
import StepFlow.Script.Scan
import StepFlow.Script.Token
import StepFlow.Script.Tree
import StepFlow.Service.Api
import StepFlow.Service.Config
import StepFlow.Service.Registry
import StepFlow.Service.Reply
import StepFlow.Service.Request
import StepFlow.Service.Target
import StepFlow.Text.Blank
import StepFlow.Text.Case
import StepFlow.Text.Encoding
import StepFlow.Text.Letter
import StepFlow.Text.Numeric
import StepFlow.Text.Printable
import StepFlow.Text.Quoted
import StepFlow.Value.Basic
import StepFlow.Value.Copy
import StepFlow.Value.Display
import StepFlow.Value.Equal
import StepFlow.Value.Number
import StepFlow.Value.Template
import StepFlow.Value.Trouble
import StepFlow.Proofs.Script.Reading
import StepFlow.Proofs.Script.Grammar
import StepFlow.Proofs.Script.Parsing
import StepFlow.Proofs.Script.Acceptance
import StepFlow.Proofs.Script.Rendering
import StepFlow.Proofs.Script.Lexing
import StepFlow.Proofs.Script.RoundTrip
import StepFlow.Proofs.Script.Sparing
import StepFlow.Proofs.Script.Atomicity
import StepFlow.Proofs.Script.Joining
import StepFlow.Proofs.Script.Viability
import StepFlow.Proofs.Run.Steps
import StepFlow.Proofs.Run.Driving
import StepFlow.Proofs.Run.Itinerary
import StepFlow.Proofs.Channel.Listening
import StepFlow.Proofs.Channel.Signals
import StepFlow.Proofs.Run.Exclusion
import StepFlow.Proofs.Run.Course
import StepFlow.Proofs.Run.Diagnosis
import StepFlow.Proofs.Run.Logbook
import StepFlow.Proofs.Run.Cleanup
import StepFlow.Proofs.Script.Lookahead
import StepFlow.Proofs.History.Territory
import StepFlow.Proofs.History.Zipper
import StepFlow.Proofs.Number.Rounding
import StepFlow.Proofs.Number.Shortest
import StepFlow.Proofs.Json.Numbers
import StepFlow.Proofs.Json.RoundTrip
import StepFlow.Proofs.Flow.RoundTrip
import StepFlow.Proofs.Value.Likeness
import StepFlow.Proofs.Script.Coincidence
import StepFlow.Proofs.Script.Purity
import StepFlow.Proofs.Script.Footprint
import StepFlow.Proofs.Value.Failing
import StepFlow.Proofs.Script.Containment
import StepFlow.Proofs.Run.Seeds
import StepFlow.Proofs.Channel.Receiving
import StepFlow.Proofs.Run.Trace
import StepFlow.Proofs.Run.Lockstep
import StepFlow.Proofs.Run.Observers
import StepFlow.Proofs.Run.Budgets
import StepFlow.Proofs.Run.Rearranging
import StepFlow.Proofs.Script.Repetition
import StepFlow.Proofs.Run.Stillness
import StepFlow.Proofs.Run.Cycles
import StepFlow.Proofs.Run.Statuses
import StepFlow.Proofs.Json.Members
import StepFlow.Proofs.Run.Legs
import StepFlow.Proofs.Run.Outbound
import StepFlow.Proofs.Json.Shown
import StepFlow.Proofs.Run.Responses
import StepFlow.Proofs.Run.Detour
import StepFlow.Proofs.Script.Spelling
import StepFlow.Proofs.Script.Layout
import StepFlow.Proofs.Script.Places
import StepFlow.Proofs.Channel.Unsubscribing
import StepFlow.Proofs.Channel.Rounds
import StepFlow.Proofs.Channel.Streaming
import StepFlow.Proofs.Channel.Overtaking
import StepFlow.Proofs.Run.Deeds
import StepFlow.Proofs.Run.Attribution
import StepFlow.Proofs.Channel.Publications
import StepFlow.Proofs.Run.Strides
import StepFlow.Proofs.Run.Trail
import StepFlow.Proofs.Script.Making
import StepFlow.Proofs.Script.Mirroring
import StepFlow.Proofs.Script.Exchange
import StepFlow.Proofs.Script.Augmenting
import StepFlow.Proofs.Flow.Schema
import StepFlow.Proofs.Json.Grammar
import StepFlow.Proofs.Flow.Refusals
import StepFlow.Proofs.History.Retracing
import StepFlow.Proofs.Script.Targets
import StepFlow.Proofs.Script.Agreement
import StepFlow.Proofs.Script.Cursor
import StepFlow.Proofs.Script.Steadiness
import StepFlow.Proofs.Script.Following
import StepFlow.Proofs.Script.Laps
import StepFlow.Proofs.Script.Progress
import StepFlow.Proofs.Script.Nesting
