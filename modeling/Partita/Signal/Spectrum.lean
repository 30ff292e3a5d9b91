import Partita.Scalar

/-! The magnitudes of the frequencies in a window of a signal, in decibels. -/
namespace Partita.Signal

variable {α : Type} [Scalar α]

/-- A raised cosine over `size` samples, zero at both ends. -/
@[specialize]
def raisedCosine (size : Nat) : Array α :=
  let half : α := 0.5
  let span : α := Scalar.ofNat (size - 1)
  let turn : α := 2 * Scalar.pi
  if size == 1 then #[1]
  else Array.ofFn fun i : Fin size => half - half * Scalar.cos (turn * Scalar.ofNat i / span)

/-- The `bin`-th coefficient of the discrete Fourier transform of a real signal,
given the cosines and sines of all fractions of a turn. -/
@[specialize]
def coefficient (x cosines sines : Array α) (bin : Nat) : α × α :=
  Nat.fold x.size (fun i _ (re, im) =>
    let at_ := i * bin % x.size
    let v := x.getD i 0
    (re + v * cosines.getD at_ 0, im - v * sines.getD at_ 0)) ((0 : α), (0 : α))

@[specialize]
def magnitudes (x : Array α) (bins : Nat) : Array α :=
  let n : α := Scalar.ofNat x.size
  let turn : α := 2 * Scalar.pi
  let angle (i : Nat) : α := turn * Scalar.ofNat i / n
  let cosines := Array.ofFn fun i : Fin x.size => Scalar.cos (angle i)
  let sines := Array.ofFn fun i : Fin x.size => Scalar.sin (angle i)
  Array.ofFn fun k : Fin bins =>
    let (re, im) := coefficient x cosines sines k
    Scalar.sqrt (re * re + im * im)

/-- The magnitude below which a frequency counts as silent. -/
def magnitudeFloor : α := 1e-12

@[specialize]
def levels (window : Array α) (bins : Nat) : Array α :=
  let shape : Array α := raisedCosine window.size
  let scale : α := Scalar.ofNat bins
  let floor : α := magnitudeFloor
  let twenty : α := 20
  (magnitudes (Array.zipWith (· * ·) window shape) bins).map fun m =>
    twenty * Scalar.log10 (Scalar.peak (m / scale) floor)

end Partita.Signal
