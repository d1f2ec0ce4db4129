import Totality.Action
import Totality.Calendar.Date
import Totality.Calendar.Instant
import Totality.Calendar.Notation
import Totality.Calendar.TimeScale
import Totality.Config
import Totality.Csv
import Totality.Device.Camera
import Totality.Device.Error
import Totality.Device.Rehearsal
import Totality.Event.Curve
import Totality.Event.Table
import Totality.Event.TimingExport
import Totality.Host.Directory
import Totality.Host.Fault
import Totality.Host.Inputs
import Totality.LogLevel
import Totality.Main
import Totality.Number.Binary64
import Totality.Number.Decimal
import Totality.Number.Integer
import Totality.Program
import Totality.Proofs.Calendar.Date
import Totality.Proofs.Calendar.Grammar
import Totality.Proofs.Calendar.Instant
import Totality.Proofs.Calendar.LeapSecond
import Totality.Proofs.Calendar.Notation
import Totality.Proofs.Calendar.TimeScale
import Totality.Proofs.Csv
import Totality.Proofs.Csv.Concatenation
import Totality.Proofs.Device.Detection
import Totality.Proofs.Embedding
import Totality.Proofs.Event.Bracket
import Totality.Proofs.Event.ExactTimes
import Totality.Proofs.Event.ExportedTable
import Totality.Proofs.Event.Figures
import Totality.Proofs.Event.Forms
import Totality.Proofs.Event.Interpolation
import Totality.Proofs.Event.Limbs
import Totality.Proofs.Event.Map
import Totality.Proofs.Event.Overshoot
import Totality.Proofs.Event.OwnPercentage
import Totality.Proofs.Event.PartialPhase
import Totality.Proofs.Event.Percentages
import Totality.Proofs.Event.Proportion
import Totality.Proofs.Event.Succession
import Totality.Proofs.Event.TimingExport
import Totality.Proofs.Event.Translation
import Totality.Proofs.Event.WrittenExport
import Totality.Proofs.Except
import Totality.Proofs.Host.Directory
import Totality.Proofs.Number.Digits
import Totality.Proofs.Number.Nonnegative
import Totality.Proofs.Number.Numeral
import Totality.Proofs.Number.Order
import Totality.Proofs.Number.Places
import Totality.Proofs.Number.Products
import Totality.Proofs.Number.Reciprocal
import Totality.Proofs.Number.Rounding
import Totality.Proofs.Number.RunningSum
import Totality.Proofs.Number.Shortest
import Totality.Proofs.Number.Sum
import Totality.Proofs.Number.WholeNumeral
import Totality.Proofs.Program.Exposures
import Totality.Proofs.Program.Output
import Totality.Proofs.Replay.Clock
import Totality.Proofs.Replay.Conservation
import Totality.Proofs.Replay.Draining
import Totality.Proofs.Replay.Overtaking
import Totality.Proofs.Replay.Punctuality
import Totality.Proofs.Replay.Resumption
import Totality.Proofs.Replay.Sequencer
import Totality.Proofs.Replay.Turns
import Totality.Proofs.Replay.Worker
import Totality.Proofs.Script.Admission
import Totality.Proofs.Script.Ascent
import Totality.Proofs.Script.CadencePasses
import Totality.Proofs.Script.Compilation
import Totality.Proofs.Script.Expansion
import Totality.Proofs.Script.Leaves
import Totality.Proofs.Script.Mirror
import Totality.Proofs.Script.Nesting
import Totality.Proofs.Script.Offset
import Totality.Proofs.Script.ShutterText
import Totality.Proofs.Script.Slots
import Totality.Proofs.Script.SoundFile
import Totality.Proofs.Script.StatedTimes
import Totality.Proofs.Script.SweepPasses
import Totality.Proofs.Script.SweepTexts
import Totality.Proofs.Script.Translation
import Totality.Proofs.Sequence.Independence
import Totality.Proofs.Sequence.Order
import Totality.Proofs.Sequence.Rows
import Totality.Proofs.Sequence.Stability
import Totality.Proofs.Text.Blanks
import Totality.Proofs.Text.PathName
import Totality.Proofs.Text.Pieces
import Totality.Proofs.Text.Utf8
import Totality.Replay.Clock
import Totality.Replay.Preview
import Totality.Replay.Sequencer
import Totality.Replay.Station
import Totality.Script.Command
import Totality.Script.Compile
import Totality.Script.Field
import Totality.Script.Schedule
import Totality.Script.Statement
import Totality.Sequence
import Totality.Sequence.Rows
import Totality.Text.Basic
import Totality.Text.Digit
import Totality.Text.PathName
import Totality.Text.Quoted
import Totality.Text.Unprintable
import Totality.Text.Utf8
import Totality.Toml.Document
import Totality.Toml.Quotation
import Totality.Toml.Scalar
import Totality.Toml.Value
import Totality.Usage
