import Partita.Fault
import Partita.Signal.Audio

/-! Conversion of sample rates: the signal is raised to a common multiple of the
two rates, smoothed by a windowed low-pass kernel, and thinned out. -/
namespace Partita.Signal

variable {α : Type} [Scalar α]

/-- Adds `count` more terms of the power series of the Bessel function to a sum;
`term` is the last one that it holds, and the next one has the index `k`. -/
@[specialize]
def besselFrom (quarter : α) : (count : Nat) → (k term sum : α) → α
  | 0, _, _, sum => sum
  | count + 1, k, term, sum =>
    let next := term * quarter / (k * k)
    besselFrom quarter count (k + 1) next (sum + next)

/-- The modified Bessel function of order zero: the sum of the first terms of
its power series, which are all that count for the arguments of a window. -/
@[specialize]
def bessel (x : α) : α := besselFrom (x * x / 4) 24 1 1 1

@[inline]
def sinc (x : α) : α :=
  if x == 0 then 1 else Scalar.sin (Scalar.pi * x) / (Scalar.pi * x)

def halfWidth (up down : Nat) : Nat := 10 * Nat.max up down

/-- The low-pass kernel that converts a rate by `up / down`: a cardinal sine
under a window, of sum `up`. -/
@[specialize]
def kernel (up down : Nat) : Array α :=
  let width : α := Scalar.ofNat (Nat.max up down)
  let half := halfWidth up down
  let edge : α := Scalar.ofNat half
  let five : α := 5
  let atEdge := bessel five
  let raw : Array α := Array.ofFn fun j : Fin (2 * half + 1) =>
    let t : α := Scalar.ofInt (j.val - half)
    let place := t / edge
    sinc (t / width) / width * (bessel (five * Scalar.sqrt (1 - place * place)) / atEdge)
  let sum := raw.foldl (· + ·) 0
  let gain : α := Scalar.ofNat up
  raw.map fun x => x / sum * gain

/-- The sum of `count` products of samples from `first` on with kernel values,
which go back by `up` from one sample to the next. -/
@[specialize]
def gather (x h : Array α) (up : Nat) : (count first offset : Nat) → α → α
  | 0, _, _, sum => sum
  | count + 1, first, offset, sum =>
    gather x h up count (first + 1) (offset - up) (sum + x.getD first 0 * h.getD offset 0)

@[specialize]
def convert (up down : Nat) (h x : Array α) : Array α :=
  let half := halfWidth up down
  let size := (x.size * up + down - 1) / down
  Array.ofFn fun k : Fin size =>
    let middle := k.val * down
    let first := (middle - half + up - 1) / up
    let last := Nat.min ((middle + half) / up + 1) x.size
    gather x h up (last - first) first (middle + half - first * up) 0

/-- Audio at another rate. Both rates must be positive unless they are equal. -/
@[specialize]
def resample (a : Audio α) (source target : Int) : Except Fault (Audio α) :=
  if source == target then .ok a
  else
    let divisor : Int := Int.gcd source target
    let up := target / divisor
    let down := source / divisor
    if up < 1 || down < 1 then .error .rateConversion
    else
      let up := up.toNat
      let down := down.toNat
      let h : Array α := kernel up down
      let frames := (a.frames * up + down - 1) / down
      .ok ⟨frames :: a.shape.drop 1, a.columns.map (convert up down h)⟩

end Partita.Signal
