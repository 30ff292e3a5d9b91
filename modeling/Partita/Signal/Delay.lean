import Partita.Fault
import Partita.Signal.Stereo
import Partita.Voice.Settings

/-! Echoes. A delay repeats a signal in taps that grow weaker by the feedback;
with ping-pong the taps alternate between the sides. -/
namespace Partita.Signal

variable {α : Type} [Scalar α]

def maxTaps : Nat := 8

/-- A power with a natural exponent that stays in range. -/
def natPow (x : α) (n : Nat) : Except Fault α :=
  let y := Scalar.pow x (Scalar.ofNat n)
  if Scalar.isFinite y || !Scalar.isFinite x then .ok y else .error .powerOutOfRange

/-- Counts taps from `taps` on while they can be heard. -/
def countTaps (feedback : α) : (fuel taps : Nat) → Except Fault Nat
  | 0, taps => .ok taps
  | fuel + 1, taps => do
    if taps < maxTaps && (1e-3 : α) < (← natPow feedback taps) then countTaps feedback fuel (taps + 1)
    else return taps

/-- The number of taps that can be heard. -/
def tapCount (feedback : α) : Except Fault Nat :=
  if feedback ≤ 0 then .ok 1 else countTaps feedback maxTaps 1

def delayTail (time feedback : α) : Except Fault α := do
  if time ≤ 0 then return 0
  return time * Scalar.ofNat (← tapCount feedback)

/-- Adds a signal to a channel, delayed by `offset` samples. -/
@[specialize]
def addDelayed (channel : Array α) (offset : Nat) (sample : Nat → α) : Array α :=
  Nat.fold (channel.size - offset) (fun i _ c => c.modify (offset + i) (· + sample i)) channel

/-- Adds the taps from number `tap` on to an output. -/
@[specialize]
def addTaps (input : Stereo α) (mono : Array α) (spacing : Nat) (e : Echo α) :
    (count tap : Nat) → Stereo α → Except Fault (Stereo α)
  | 0, _, output => .ok output
  | count + 1, tap, output => do
    let offset := spacing * tap
    if input.size ≤ offset then return output
    let level := (← natPow e.feedback (tap - 1)) * e.wet
    if e.pingpong then
      let spread := Scalar.clamp 0 1 e.width
      let side : α := if tap % 2 == 1 then 1 else -1
      let half : α := 0.5
      let two : α := 2
      let left := half * (1 - side * spread)
      let right := half * (1 + side * spread)
      addTaps input mono spacing e count (tap + 1)
        ⟨addDelayed output.left offset fun i => mono.getD i 0 * level * left * two,
         addDelayed output.right offset fun i => mono.getD i 0 * level * right * two⟩
    else
      addTaps input mono spacing e count (tap + 1)
        ⟨addDelayed output.left offset fun i => input.left.getD i 0 * level,
         addDelayed output.right offset fun i => input.right.getD i 0 * level⟩

@[specialize]
def applyDelay (input : Stereo α) (e : Echo α) (rate : Int) : Except Fault (Stereo α) := do
  let spacing ← Scalar.toInt (e.time * Scalar.ofInt rate)
  if spacing ≤ 0 || e.wet ≤ 0 then return input
  let two : α := 2
  let mono := Array.zipWith (fun l r => (l + r) / two) input.left input.right
  addTaps input mono spacing.toNat e (← tapCount e.feedback) 1 input

end Partita.Signal
