import Partita.Signal.Ramp
import Partita.Voice.Settings

/-! Envelopes: attack, decay, sustain and release, the release at the end of the
note. Attack and release have a least length, which keeps notes from clicking. -/
namespace Partita.Signal

variable {α : Type} [Scalar α]

/-- The lengths of the segments in samples, as they fall out of the times. -/
structure Segments where
  attack : Int
  decay : Int
  release : Int
  deriving DecidableEq, Repr

namespace Segments

def ofEnvelope (e : Envelope α) (rate : Int) : Except Fault Segments := do
  let samples (seconds : α) := Scalar.toInt (seconds * Scalar.ofInt rate)
  let attack ← samples (Scalar.max e.attack 0.005)
  let decay ← samples e.decay
  let release ← samples (Scalar.max e.release 0.01)
  return ⟨attack, decay, release⟩

/-- What the timed segments leave of a signal. -/
def sustain (s : Segments) (total : Nat) : Int :=
  max 0 ((total : Int) - s.attack - s.decay - s.release)

/-- A segment has at least one sample. -/
def atLeastOne (n : Int) : Nat := (max 1 n).toNat

/-- The level of the envelope at a sample of a signal of `total` samples. -/
@[inline]
def level (s : Segments) (sustainLevel : α) (total i : Nat) : α :=
  let a := atLeastOne s.attack
  let d := atLeastOne s.decay
  let h := atLeastOne (s.sustain total)
  let r := atLeastOne s.release
  if i < a then rampAt 0 1 a i
  else if i < a + d then rampAt 1 sustainLevel d (i - a)
  else if i < a + d + h then sustainLevel
  else if i < a + d + h + r then rampAt sustainLevel 0 r (i - (a + d + h))
  else 0

end Segments

@[specialize]
def applyEnvelope (signal : Array α) (e : Envelope α) (rate : Int) : Except Fault (Array α) := do
  let segments ← Segments.ofEnvelope e rate
  let sustain := Scalar.clamp 0 1 e.sustain
  let total := signal.size
  return signal.mapIdx fun i x => x * segments.level sustain total i

end Partita.Signal
