import Partita.Signal.Audio
import Partita.Signal.Ramp

/-! Adding a note to a buffer. A note that reaches past the end of the buffer is
cut there and faded out. -/
namespace Partita.Signal

variable {α : Type} [Scalar α]

/-- Adds `count` samples to a buffer from an offset on. -/
@[specialize]
def addAt (buffer : Array α) (offset : Nat) (sample : Nat → α) (count : Nat) : Array α :=
  Nat.fold count (fun i _ buffer => buffer.modify (offset + i) (· + sample i)) buffer

/-- The length of the fade of a note that is cut after `available` samples. -/
def fadeLength (rate : Int) (available : Nat) : Except Fault Nat := do
  let most ← Scalar.toInt (Scalar.ofInt rate * (0.01 : α))
  return (min most ((available / 4 : Nat) : Int)).toNat

/-- Adds a note to a buffer at an index. A note that starts outside the buffer
is not heard. -/
@[specialize]
def overlay (buffer note : Array α) (start rate : Int) : Except Fault (Array α) := do
  if start < 0 || (buffer.size : Int) ≤ start then return buffer
  let offset := start.toNat
  if offset + note.size ≤ buffer.size then
    return addAt buffer offset (fun i => note.getD i 0) note.size
  else
    let available := buffer.size - offset
    let fade ← @fadeLength α _ rate available
    if 1 < fade then
      return addAt buffer offset (fun i =>
        if i < available - fade then note.getD i 0
        else note.getD i 0 * rampAt 1 0 fade (i - (available - fade))) available
    else return addAt buffer offset (fun i => note.getD i 0) available

/-- Adds a note to a buffer of the same number of channels; a note of one channel
goes to all of them. -/
@[specialize]
def overlayAudio (buffer note : Audio α) (start rate : Int) : Except Fault (Audio α) := do
  if start < 0 || (buffer.frames : Int) ≤ start then return buffer
  let spread := if !note.isMono && note.columns.size == 1 then
      Array.replicate buffer.columns.size (note.columns.getD 0 #[])
    else note.columns
  if buffer.isMono != note.isMono || buffer.columns.size != spread.size then throw .lengthMismatch
  return buffer.withColumns (← (buffer.columns.zip spread).mapM fun (b, n) => overlay b n start rate)

end Partita.Signal
