import Partita.Signal.Delay
import Partita.Signal.Envelope
import Partita.Signal.Filter
import Partita.Signal.Reverb
import Partita.Signal.Shape
import Partita.Voice.Engine

/-! The sound of a note: its tones, through envelope, filter, distortion, gain,
pan, reverberation and delay of the voice at the moment it was triggered. -/
namespace Partita.Mix

open Signal

variable {α : Type} [Acoustic α]

def noteAmplitude : α := 0.3

/-- The gain an oscillator gives to `count` samples from an instant on. -/
@[specialize]
def lfoGain (l : Lfo α) (at_ : α) (count rate : Int) : Except Fault (Array α) := do
  let seconds ← Score.quotient (Scalar.ofInt count) (Scalar.ofInt rate)
  let wave ← swing seconds l.rate rate (at_ - l.start)
  let range := l.high - l.low
  return Array.ofFn fun i : Fin count.toNat => dbToGain (l.low + range * wave.getD i 0)

@[specialize]
def tones (frequencies : List α) (seconds : α) (rate : Int) (count : Nat) : Except Fault (Array α) :=
  frequencies.foldlM (fun mono frequency => do
    return Array.zipWith (· + ·) mono (← triangle frequency seconds rate noteAmplitude))
    (Array.replicate count 0)

/-- Room responses by decay and predelay. -/
abbrev Rooms (α : Type) := List ((α × α) × Except Fault (Stereo α))

def Rooms.find (rooms : Rooms α) (r : Reverb α) (rate : Int) : Except Fault (Stereo α) :=
  let (decay, predelay) := roomOf r
  match rooms.find? fun ((d, p), _) => d == decay && p == predelay with
  | some (_, room) => room
  | none => impulse decay predelay rate

/-- The room responses that the reverberation of some patches needs, each one
computed once. -/
@[specialize]
def Rooms.ofPatches (patches : List (Patch α)) (rate : Int) : Rooms α :=
  patches.foldl (fun rooms p =>
    let (decay, predelay) := roomOf p.reverb
    if p.reverb.wet ≤ (0 : α) || rooms.any (fun ((d, q), _) => d == decay && q == predelay) then rooms
    else ((decay, predelay), impulse decay predelay rate) :: rooms) []

def tailSeconds (p : Patch α) : Except Fault α := do
  let room := reverbTail p.reverb.wet p.reverb.decay p.reverb.predelay
  if (0 : α) < p.delay.wet then return room + (← delayTail p.delay.time p.delay.feedback)
  else return room

/-- Where a note stands between left and right. -/
def placeOf (p : Patch α) (at_ : α) (count : Nat) (rate : Int) : Place α :=
  if (0 : α) < p.autopan.rate ∧ (0 : α) < p.autopan.depth then
    .curve ((panCurve count p.autopan.rate p.autopan.depth rate at_).map fun x =>
      Scalar.clamp (-1) 1 (p.pan + x))
  else .fixed p.pan

/-- The part of a note before its tails, on one channel. -/
@[specialize]
def voicedPart (note : Note α) (lfo : Option (Lfo α)) (seconds : α) (rate : Int) :
    Except Fault (Array α) := do
  let p := note.patch
  let count ← lengthOf seconds rate
  let mono ← tones note.frequencies seconds rate count
  let mono ← applyEnvelope mono p.envelope rate
  let mono := (← applyFilter [mono] p.filter.kind p.filter.frequency p.filter.q rate).headD #[]
  let mono := distort mono p.distortion
  match lfo with
  | some l => combine (· * ·) mono (← lfoGain l note.at_ mono.size rate)
  | none =>
    let gain := dbToGain p.gain
    return mono.map (· * gain)

/-- The sound of a note with its tails; none if nothing of it is heard. What
lies beyond the horizon is not computed. -/
@[specialize]
def renderNote (horizon : α) (rate : Int) (rooms : Rooms α) (lfo : Option (Lfo α)) (note : Note α) :
    Except Fault (Option (Stereo α)) := do
  let p := note.patch
  if p.gain == Scalar.negInf && lfo.isNone then return none
  let remaining := horizon - note.at_
  if remaining ≤ 0 then return none
  let seconds := Scalar.min note.duration remaining + Scalar.max p.envelope.release 0.01
  let voiced ← voicedPart note lfo seconds rate
  let tail ← paddingOf (← tailSeconds p) rate
  let mono := voiced ++ Array.replicate tail 0
  let stereo ← pan mono (placeOf p note.at_ mono.size rate)
  let stereo ← reverberate stereo p.reverb (rooms.find p.reverb rate)
  let stereo ← applyDelay stereo p.delay rate
  return some stereo

end Partita.Mix
