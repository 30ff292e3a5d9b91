import Partita.Fault

/-! Evenly spaced numbers, and the waves that are computed from them. -/
namespace Partita.Signal

variable {α : Type} [Scalar α]

variable (α) in
/-- A number of samples, each of which takes some bytes. -/
def sampleCount (n : Int) (bytes : Int) : Except Fault Nat :=
  if n < 0 then .error .negativeLength
  else if Scalar.addressable α (n * bytes) then .ok n.toNat
  else .error .lengthLimit

/-- A length in samples. -/
def lengthOf (seconds : α) (rate : Int) : Except Fault Nat := do
  sampleCount α (← Scalar.toInt (Scalar.ofInt rate * seconds)) 8

/-- The least number that no index reaches. -/
def indexLimit : Int := 9223372036854775808

/-- The number of samples that make a signal longer by some seconds. One that no
index reaches is refused for itself, before any room is asked for. -/
def paddingOf (seconds : α) (rate : Int) : Except Fault Nat := do
  let width ← Scalar.toInt (Scalar.ofInt rate * seconds)
  if width < indexLimit || Scalar.addressable α (width * 8) then sampleCount α width 8
  else throw .paddingLimit

/-- The number at a place of a ramp of `count` numbers from `first` to `last`,
both included. A ramp of one number is its first. -/
@[inline]
def rampAt (first last : α) (count i : Nat) : α :=
  if count ≤ 1 then first
  else if i + 1 == count then last
  else Scalar.ofNat i * ((last - first) / Scalar.ofNat (count - 1)) + first

/-- The instants of `count` samples that divide some seconds evenly. -/
@[specialize]
def instants (seconds : α) (count : Nat) : Array α :=
  let step := seconds / Scalar.ofNat count
  Array.ofFn fun i : Fin count => Scalar.ofNat i * step

@[specialize]
def triangle (frequency seconds : α) (rate : Int) (amplitude : α) : Except Fault (Array α) := do
  let count ← lengthOf seconds rate
  let half : α := 0.5
  let two : α := 2
  let scale := amplitude * two
  return (instants seconds count).map fun t =>
    let x := t * frequency
    scale * Scalar.abs (two * (x - Scalar.floor (x + half))) - amplitude

/-- A sine wave between zero and one, for some seconds from an instant on. -/
@[specialize]
def swing (seconds frequency : α) (rate : Int) (start : α) : Except Fault (Array α) := do
  let count ← lengthOf seconds rate
  let half : α := 0.5
  let turn := 2 * Scalar.pi * frequency
  return (instants seconds count).map fun t => half + half * Scalar.sin (turn * (t + start))

/-- The positions of a pan that swings to and fro, `count` samples from an
instant on. -/
@[specialize]
def panCurve (count : Nat) (frequency depth : α) (rate : Int) (start : α) : Array α :=
  let sampleRate : α := Scalar.ofInt rate
  let reach := Scalar.clamp 0 1 depth
  let turn := 2 * Scalar.pi * frequency
  Array.ofFn fun i : Fin count => reach * Scalar.sin (turn * (Scalar.ofNat i / sampleRate + start))

end Partita.Signal
