import Partita.Binary64
import Partita.Binary64.Acoustics
import Partita.Binary64.Arithmetic
import Partita.Binary64.Interchange
import Partita.Binary64.Tools
import Partita.CommandLine.Arguments
import Partita.CommandLine.Failure
import Partita.CommandLine.Logging
import Partita.CommandLine.Request
import Partita.CommandLine.Run
import Partita.Config
import Partita.Config.Reading
import Partita.Decimal.Fixed
import Partita.Decimal.Shortest
import Partita.Display.Box
import Partita.Display.Cells
import Partita.Display.Wrap
import Partita.Estimate
import Partita.Fault
import Partita.Files.Path
import Partita.Files.Tree
import Partita.Library
import Partita.Log
import Partita.Main
import Partita.Mix.Buffer
import Partita.Mix.Mixdown
import Partita.Mix.Note
import Partita.Mix.Plan
import Partita.Mix.Render
import Partita.Performance.Basic
import Partita.Performance.Clock
import Partita.Performance.Dispatch
import Partita.Performance.Run
import Partita.Performance.Session
import Partita.Performance.Step
import Partita.Playback
import Partita.Playback.Device
import Partita.Scalar
import Partita.Score.Blocks
import Partita.Score.Command
import Partita.Score.Effect
import Partita.Score.Numeral
import Partita.Score.Pitch
import Partita.Score.Tempo
import Partita.Signal.Acoustic
import Partita.Signal.Audio
import Partita.Signal.Delay
import Partita.Signal.Dynamics
import Partita.Signal.Envelope
import Partita.Signal.Filter
import Partita.Signal.Fourier
import Partita.Signal.Noise
import Partita.Signal.Overlay
import Partita.Signal.Ramp
import Partita.Signal.Resample
import Partita.Signal.Reverb
import Partita.Signal.Shape
import Partita.Signal.Spectrum
import Partita.Signal.Stereo
import Partita.Stage.Basic
import Partita.Stage.Conductor
import Partita.Stage.Loop
import Partita.Studio.Basic
import Partita.Studio.Hall
import Partita.Text.Blank
import Partita.Text.Digit
import Partita.Text.Flips
import Partita.Text.Lower
import Partita.Text.Printable
import Partita.Text.Quoted
import Partita.Text.Utf8
import Partita.Text.Word
import Partita.Voice.Call
import Partita.Voice.Engine
import Partita.Voice.Gain
import Partita.Voice.Instrument
import Partita.Voice.Settings
import Partita.Wave.Bytes
import Partita.Wave.Decode
import Partita.Wave.Encode
import Partita.Wave.Interchange
import Partita.Proofs.Operation
import Partita.Proofs.Performance.Desk
import Partita.Proofs.Performance.Aside
import Partita.Proofs.Performance.Spawn
import Partita.Proofs.Performance.Deed
import Partita.Proofs.Performance.Accounting
import Partita.Proofs.Performance.Advance
import Partita.Proofs.Performance.Attendance
import Partita.Proofs.Performance.Confluence
import Partita.Proofs.Performance.Reading
import Partita.Proofs.Performance.Stopping
import Partita.Proofs.Performance.Isolation
import Partita.Proofs.Performance.Joining
import Partita.Proofs.Performance.Ancestry
import Partita.Proofs.Performance.Punctual
import Partita.Proofs.Performance.Cursor
import Partita.Proofs.Score.Grammar
import Partita.Proofs.Score.Source
import Partita.Proofs.Score.Commands
import Partita.Proofs.Score.Counts
import Partita.Proofs.Score.Headers
import Partita.Proofs.Score.Numerals
import Partita.Proofs.Mix.Faults
import Partita.Proofs.Voice.Mirror
import Partita.Proofs.Voice.Sections
import Partita.Proofs.Wave.Container
import Partita.Proofs.Wave.Encoding
import Partita.Proofs.Estimate
import Partita.Proofs.Performance.Settling
import Partita.Proofs.Performance.Budget
import Partita.Proofs.Rendering
import Partita.Proofs.Performance.Course
import Partita.Proofs.Stage.Following
import Partita.Proofs.Stage.Calls
import Partita.Proofs.Stage.Serving
import Partita.Proofs.Stage.Resumption
import Partita.Proofs.Stage.Interleaving
import Partita.Proofs.Stage.Wakeup
import Partita.Proofs.Performance.Balance
import Partita.Proofs.Stage.Cancellation
import Partita.Proofs.Stage.Vigil
import Partita.Proofs.Stage.Watch
import Partita.Proofs.Studio.Reach
import Partita.Proofs.Studio.Faults
import Partita.Proofs.Studio.Render
import Partita.Proofs.Stage.Device
import Partita.Proofs.Studio.Playback
import Partita.Proofs.Performance.Obliging
import Partita.Proofs.Performance.Tending
import Partita.Proofs.Stage.Manned
import Partita.Proofs.Stage.Staffed
import Partita.Proofs.Studio.Order
import Partita.Proofs.Voice.Handling
import Partita.Proofs.Voice.Oscillator
import Partita.Proofs.Voice.Resync
import Partita.Proofs.Voice.Custody
import Partita.Proofs.Performance.Plan
import Partita.Proofs.Performance.Rejection
import Partita.Proofs.Performance.Separation
import Partita.Proofs.Performance.Locality
import Partita.Proofs.Stage.Opening
import Partita.Proofs.Studio.Spent
import Partita.Proofs.Studio.Failure
import Partita.Proofs.Performance.Matching
import Partita.Proofs.Estimate.Lines
import Partita.Proofs.Estimate.Standalone
import Partita.Proofs.Performance.Timeline
import Partita.Proofs.Signal.Bands
import Partita.Proofs.Wave.Quantization
import Partita.Proofs.Reals
import Partita.Proofs.Signal.Limiter
import Partita.Proofs.Whole
import Partita.Proofs.Whole.Note
import Partita.Proofs.Whole.Sound
import Partita.Proofs.Whole.Levels
import Partita.Proofs.Whole.Mix
import Partita.Proofs.Signal.Superposition
import Partita.Proofs.Signal.Release
import Partita.Proofs.Signal.Echoes
import Partita.Proofs.Mix.Tails
import Partita.Proofs.Signal.Smoothing
import Partita.Proofs.Signal.Coverage
import Partita.Proofs.Score.Integers
import Partita.Proofs.Library
