/-! The encodings of floating-point numbers that files exchange. -/
namespace Partita.Wave

class Interchange (α : Type) where
  /-- The thirty-two bits of the number in single precision. -/
  singleBits : α → Nat
  /-- The number that thirty-two bits encode. -/
  ofSingleBits : Nat → α
  /-- The number that sixty-four bits encode. -/
  ofDoubleBits : Nat → α

end Partita.Wave
