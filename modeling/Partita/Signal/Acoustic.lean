import Partita.Scalar

/-! What reverberation needs beyond arithmetic: a fixed sequence of random
numbers, and convolution. -/
namespace Partita

class Acoustic (α : Type) extends Scalar α where
  /-- The first numbers of a fixed sequence of normally distributed ones. -/
  noise : (count : Nat) → Array α
  /-- The first `count` samples of the convolution of a signal with a response. -/
  convolve : (signal response : Array α) → (count : Nat) → Array α

end Partita
