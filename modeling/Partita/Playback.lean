import Partita.Fault
import Partita.Log
import Partita.Signal.Audio
import Partita.Signal.Spectrum

/-! The playback of a buffer on a device, with the views of it that a display
shows. -/
namespace Partita

variable {α : Type} [Scalar α]

inductive DeviceCall (α : Type) where
  | start (audio : Audio α) (rate : Int)
  | stop
  | wait

/-- A buffer on a device: when it was started, and whether it was stopped. -/
structure Playback (α : Type) where
  audio : Audio α
  rate : Int
  started : Option α
  stopped : Bool

namespace Playback

/-- A playback that has not been started; its length needs a rate. -/
def make (audio : Audio α) (rate : Int) : Except Fault (Playback α) :=
  if rate == 0 then .error .divisionByZero else .ok ⟨audio, rate, none, false⟩

def duration (p : Playback α) : α := Scalar.ofNat p.audio.frames / Scalar.ofInt p.rate

def position (p : Playback α) (now : α) : α :=
  match p.started with
  | none => 0
  | some start => Scalar.min (now - start) p.duration

def playing (p : Playback α) (now : α) : Bool :=
  p.started.isSome && !p.stopped && p.position now < p.duration

def start (p : Playback α) (now : α) (device : String) : Playback α × DeviceCall α × Record :=
  ({ p with started := some now }, .start p.audio p.rate,
    ⟨.info, "playback", s!"Playing {Scalar.fixed 1 p.duration}s buffer via {device}"⟩)

/-- Stops; a second time the device is not asked. -/
def stop (p : Playback α) : Playback α × List (DeviceCall α) :=
  if p.stopped then (p, []) else ({ p with stopped := true }, [.stop])

/-- The place in a sequence that an index denotes, which counts from the end
when negative. -/
def place (count : Nat) (index : Int) : Nat :=
  if index < 0 then (index + count).toNat else Nat.min index.toNat count

/-- The mean of the channels of a frame, in single precision. -/
def frameMean (a : Audio α) (i : Nat) : α :=
  let values := a.columns.toList.map (·.getD i 0)
  let sum := match values with
    | [] => 0
    | first :: rest => rest.foldl (fun s x => Scalar.toSingle (s + x)) first
  Scalar.toSingle (sum / Scalar.ofNat values.length)

/-- The samples from the playhead on, with silence after the end. -/
def window (p : Playback α) (now : α) (size : Int) : Except Fault (Array α) := do
  if p.audio.isMono then throw .noChannelAxis
  let frame ← Scalar.toInt (p.position now * Scalar.ofInt p.rate)
  let first := place p.audio.frames frame
  let last := place p.audio.frames (frame + size)
  let heard := Array.ofFn fun i : Fin (last - first) => frameMean p.audio (first + i.val)
  return heard ++ Array.replicate (size.toNat - heard.size) 0

/-- The number of samples or frequencies a display shows. -/
def displaySize : Int := 1024

/-- What a display shows while nothing plays. -/
def blank (level : α) (size : Int) : Except Fault (Array α) :=
  if size < 0 then .error .negativeLength else .ok (Array.replicate size.toNat level)

def waveform (p : Playback α) (now : α) (size : Int) : Except Fault (Array α) :=
  if p.playing now then p.window now size else blank 0 size

@[specialize]
def spectrum (p : Playback α) (now : α) (size : Int) : Except Fault (Array α) := do
  if p.playing now then
    let samples ← p.window now (size * 2)
    if size ≤ 0 then throw .negativeLength
    return Signal.levels samples size.toNat
  else blank Scalar.negInf size

end Playback

end Partita
