import Partita.Signal.Acoustic
import Partita.Signal.Ramp
import Partita.Signal.Stereo
import Partita.Voice.Settings

/-! Reverberation by convolution with decaying noise. -/
namespace Partita.Signal

variable {α : Type} [Acoustic α]

/-- The response of a room: noise that decays by sixty decibels, of unit energy,
after a silence. -/
@[specialize]
def impulse (decay predelay : α) (rate : Int) : Except Fault (Stereo α) := do
  let sampleRate : α := Scalar.ofInt rate
  let decay := Scalar.max decay 0.05
  let length ← lengthOf decay rate
  let pad ← lengthOf (Scalar.max predelay 0) rate
  let noise : Array α := Acoustic.noise (2 * length)
  let falloff : α := -6.9
  let column (side : Nat) : Array α :=
    let raw : Array α := Array.ofFn fun i : Fin length =>
      noise.getD (2 * i + side) 0 * Scalar.exp (falloff * (Scalar.ofNat i / sampleRate) / decay)
    let energy := raw.foldl (fun total x => total + x * x) 0
    let norm := Scalar.sqrt energy + 1e-12
    Array.replicate pad 0 ++ raw.map (· / norm)
  return ⟨column 0, column 1⟩

/-- A room response is made for a decay in milliseconds and a predelay in tenths
of them. -/
def roomOf (r : Reverb α) : α × α := (Scalar.roundPlaces 3 r.decay, Scalar.roundPlaces 4 r.predelay)

/-- Adds a share of reverberation to a channel. -/
@[specialize]
def wetMix (channel response : Array α) (r : Reverb α) : Array α :=
  let tail := Acoustic.convolve channel response channel.size
  let dry := 1 - r.wet
  Array.zipWith (fun x t => x * r.dry * dry + t * r.wet) channel tail

/-- Adds reverberation with a given room response. The length stays; neither the
signal nor the response may be empty. -/
@[specialize]
def reverberate (input : Stereo α) (r : Reverb α) (room : Except Fault (Stereo α)) :
    Except Fault (Stereo α) := do
  if r.wet ≤ 0 then
    return if r.dry == 1 then input else input.map (·.map (· * r.dry))
  let room ← room
  if input.size == 0 || room.size == 0 then throw .lengthMismatch
  return ⟨wetMix input.left room.left r, wetMix input.right room.right r⟩

@[specialize]
def applyReverb (input : Stereo α) (r : Reverb α) (rate : Int) : Except Fault (Stereo α) :=
  if r.wet ≤ 0 then reverberate input r (.ok default)
  else
    let (decay, predelay) := roomOf r
    reverberate input r (impulse decay predelay rate)

/-- How long the reverberation goes on. -/
def reverbTail (wet decay predelay : α) : α :=
  if wet ≤ 0 then 0 else Scalar.max decay 0.05 + Scalar.max predelay 0

end Partita.Signal
