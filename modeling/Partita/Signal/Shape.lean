import Partita.Fault
import Partita.Signal.Stereo

/-! Gain, distortion and the place between left and right. -/
namespace Partita.Signal

variable {α : Type} [Scalar α]

def dbToGain (db : α) : α := Scalar.pow 10 (db / 20)

/-- Bends a signal; `amount` is both the drive and the share of the bent
signal. -/
@[specialize]
def distort (signal : Array α) (amount : α) : Array α :=
  let wet := Scalar.clamp 0 1 amount
  if wet ≤ 0 then signal
  else
    let drive := 1 + Scalar.min (amount * 10) 100
    let top := Scalar.tanh drive
    let dry := 1 - wet
    signal.map fun x => x * dry + Scalar.tanh (x * drive) / top * wet

/-- A place between left and right, the same for all samples or one for each. -/
inductive Place (α : Type) where
  | fixed (position : α)
  | curve (positions : Array α)

/-- The angle of a position, from zero at the left to a quarter turn. -/
def panAngle (position : α) : α := (Scalar.clamp (-1) 1 position + 1) * Scalar.pi / 4

/-- Combines two signals sample by sample. A signal of one sample goes with a
signal of any length. -/
@[specialize]
def combine (f : α → α → α) (x y : Array α) : Except Fault (Array α) :=
  if x.size == y.size then .ok (Array.zipWith f x y)
  else match x.size, y.size with
    | 1, _ => .ok (y.map fun b => f (x.getD 0 0) b)
    | _, 1 => .ok (x.map fun a => f a (y.getD 0 0))
    | _, _ => .error .lengthMismatch

/-- Places a signal between left and right at equal power. -/
@[specialize]
def pan (mono : Array α) : Place α → Except Fault (Stereo α)
  | .fixed position =>
    let angle := panAngle position
    let left := Scalar.cos angle
    let right := Scalar.sin angle
    .ok ⟨mono.map (· * left), mono.map (· * right)⟩
  | .curve positions => do
    let left ← combine (fun x p => x * Scalar.cos (panAngle p)) mono positions
    let right ← combine (fun x p => x * Scalar.sin (panAngle p)) mono positions
    return ⟨left, right⟩

end Partita.Signal
