import StoryChat.Decimal.Binary
import StoryChat.Decimal.Digits
import StoryChat.Decimal.Layout
import StoryChat.Decimal.Measure
import StoryChat.Decimal.Numeral
import StoryChat.Decimal.Shortest
import StoryChat.Engine.Event
import StoryChat.Engine.Keeping
import StoryChat.Engine.Play
import StoryChat.Engine.Walk
import StoryChat.Engine.World
import StoryChat.Json.Basic
import StoryChat.Json.Reader
import StoryChat.Json.Record
import StoryChat.Json.Token
import StoryChat.Json.Writer
import StoryChat.Main
import StoryChat.Narrative.Basic
import StoryChat.Narrative.Message
import StoryChat.Narrative.Progress
import StoryChat.Pacing.Chance
import StoryChat.Pacing.Pacer
import StoryChat.Pacing.Window
import StoryChat.Rehearsal
import StoryChat.Save.Folder
import StoryChat.Save.Slots
import StoryChat.Script.Format
import StoryChat.Script.Graph
import StoryChat.Script.Node
import StoryChat.Script.Shelf
import StoryChat.Session.Command
import StoryChat.Session.Options
import StoryChat.Session.Player
import StoryChat.Session.Screen
import StoryChat.Story.Interrupt
import StoryChat.Story.Schema
import StoryChat.Story.Value
import StoryChat.Story.Variables
import StoryChat.Table
import StoryChat.Text.Alphanumeric
import StoryChat.Text.Blank
import StoryChat.Text.FileName
import StoryChat.Text.Number
import StoryChat.Text.Path
import StoryChat.Text.Substitution
import StoryChat.Time.Duration
import StoryChat.Time.Timestamp
import StoryChat.Proofs.Decimal.WellFormed
import StoryChat.Proofs.Decimal.NoNumber
import StoryChat.Proofs.Decimal.Finite
import StoryChat.Proofs.Decimal.Packing
import StoryChat.Proofs.Json.RoundTrip
import StoryChat.Proofs.Narrative.Record
import StoryChat.Proofs.Narrative.Receipts
import StoryChat.Proofs.Narrative.Reading
import StoryChat.Proofs.Narrative.Stated
import StoryChat.Proofs.Save.Slots
import StoryChat.Proofs.Save.Agreement
import StoryChat.Proofs.Script.Closed
import StoryChat.Proofs.Script.Rewriting
import StoryChat.Proofs.Script.Unknown
import StoryChat.Proofs.Script.Trimming
import StoryChat.Proofs.Story.Variables
import StoryChat.Proofs.Story.Typed
import StoryChat.Proofs.Story.Bounded
import StoryChat.Proofs.Time.Timestamp
import StoryChat.Proofs.Engine.Suspension
import StoryChat.Proofs.Engine.Frame
import StoryChat.Proofs.Engine.Visit
import StoryChat.Proofs.Engine.Walking
import StoryChat.Proofs.Engine.Operation
import StoryChat.Proofs.Engine.Choices
import StoryChat.Proofs.Engine.Course
import StoryChat.Proofs.Engine.Plot
import StoryChat.Proofs.Engine.Tracking
import StoryChat.Proofs.Engine.Regular
import StoryChat.Proofs.Engine.ClosedScripts
import StoryChat.Proofs.Engine.Resuming
import StoryChat.Proofs.Engine.Current
import StoryChat.Proofs.Engine.Route
import StoryChat.Proofs.Engine.Saving
import StoryChat.Proofs.Engine.Writing
import StoryChat.Proofs.Engine.Dated
import StoryChat.Proofs.Engine.Legible
import StoryChat.Proofs.Engine.Scene
import StoryChat.Proofs.Engine.Refusal
import StoryChat.Proofs.Engine.Pending
import StoryChat.Proofs.Engine.Upkeep
import StoryChat.Proofs.Engine.Staging
import StoryChat.Proofs.Engine.Opening
import StoryChat.Proofs.Engine.Quiescence
import StoryChat.Proofs.Engine.Retelling
import StoryChat.Proofs.Engine.Answering
import StoryChat.Proofs.Engine.Comparison
import StoryChat.Proofs.Engine.Lockstep
import StoryChat.Proofs.Engine.Dealings
import StoryChat.Proofs.Engine.Likeness
import StoryChat.Proofs.Engine.Indifference
import StoryChat.Proofs.Engine.Forgetting
import StoryChat.Proofs.Engine.Bounds
import StoryChat.Proofs.Engine.Completion
import StoryChat.Proofs.Session.Beginning
import StoryChat.Proofs.Session.Damage
import StoryChat.Proofs.Save.Stopping
import StoryChat.Proofs.Save.Correspondence
import StoryChat.Proofs.Engine.Submission
import StoryChat.Proofs.Engine.Following
import StoryChat.Proofs.Engine.Inert
import StoryChat.Proofs.Engine.Unheard
import StoryChat.Proofs.Engine.Crossing
import StoryChat.Proofs.Engine.Termination
import StoryChat.Proofs.Engine.Patience
import StoryChat.Proofs.Engine.Metering
import StoryChat.Proofs.Engine.Timing
import StoryChat.Proofs.Story.Restoring
import StoryChat.Proofs.Narrative.Partial
import StoryChat.Proofs.Engine.Unreadable
import StoryChat.Proofs.Session.CommandLine
import StoryChat.Proofs.Session.Precedence
import StoryChat.Proofs.Script.Registering
import StoryChat.Proofs.Text.Containment
import StoryChat.Proofs.Session.Entering
import StoryChat.Proofs.Text.Occurrence
import StoryChat.Proofs.Pacing.Limits
import StoryChat.Proofs.Script.Indexing
import StoryChat.Proofs.Decimal.Rounding
import StoryChat.Proofs.Decimal.Exactness
import StoryChat.Proofs.Decimal.Worth
import StoryChat.Proofs.Time.Spans
import StoryChat.Proofs.Pacing.Delays
import StoryChat.Proofs.Story.Declaring
import StoryChat.Proofs.Story.Impacts
