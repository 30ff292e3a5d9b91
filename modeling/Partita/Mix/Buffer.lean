import Partita.Fault
import Partita.Signal.Resample

/-! Rendered audio: samples in single precision and their rate. -/
namespace Partita

variable {α : Type} [Scalar α]

structure Buffer (α : Type) where
  audio : Audio α
  rate : Int
  deriving Inhabited

namespace Buffer

def frames (b : Buffer α) : Nat := b.audio.frames

def channels (b : Buffer α) : Nat := b.audio.channelCount

def duration (b : Buffer α) : α :=
  if b.rate == 0 then 0 else Scalar.ofNat b.frames / Scalar.ofInt b.rate

/-- One channel. Those of stereo data are also counted from the end. -/
def channel (b : Buffer α) (index : Int) : Except Fault (Array α) :=
  if b.audio.isMono then
    if index == 0 then .ok (b.audio.columns.getD 0 #[]) else .error (.monoChannel index)
  else
    let count : Int := b.channels
    let i := if index < 0 then index + count else index
    if i < 0 || count ≤ i then .error .channelIndex
    else .ok (b.audio.columns.getD i.toNat #[])

/-- What is handed to a player: frames and channels at its rate, within full
scale and in single precision. -/
@[specialize]
def atRate (b : Buffer α) (rate : Int) : Except Fault (Audio α) := do
  let audio := if b.audio.isMono then Audio.ofColumns b.frames b.audio.columns else b.audio
  let low : α := -1
  let high : α := 1
  return (← Signal.resample audio b.rate rate).map fun x => Scalar.toSingle (Scalar.clamp low high x)

end Buffer

end Partita
