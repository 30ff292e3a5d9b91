/-! The number type of a performance. Tempo, positions, gains and signals are
all computed over one type `α`. The class lists the operations they need and
assumes no law: the definitions run on binary floating point, and their exact
arithmetic can be studied over any other instance. -/
namespace Partita

/-- Why a number has no integer part. -/
inductive NotFinite where
  | nan
  | infinite
  deriving DecidableEq, Repr

class Scalar (α : Type) extends Add α, Sub α, Mul α, Div α, Neg α, LT α, LE α, BEq α where
  decLt : (a b : α) → Decidable (a < b)
  decLe : (a b : α) → Decidable (a ≤ b)
  /-- The number closest to an integer. -/
  ofInt : Int → α
  ofNat : Nat → α
  /-- The number closest to a quotient of integers. -/
  ofRatio : Int → Nat → α
  /-- The number closest to `mantissa · 10 ^ exponent`. -/
  ofDecimal : (mantissa : Nat) → (exponent : Int) → α
  /-- The integer part, rounding toward zero. -/
  truncate : α → Except NotFinite Int
  isFinite : α → Bool
  /-- Whether so many bytes of samples can be addressed. -/
  addressable : Int → Bool := fun bytes => bytes < 9223372036854775808
  /-- The level of complete silence, below every other one. -/
  negInf : α
  floor : α → α
  /-- The closest multiple of `10 ^ -places`. -/
  roundPlaces : (places : Nat) → α → α
  /-- The number closest to a number that single precision can hold. -/
  toSingle : α → α
  sqrt : α → α
  exp : α → α
  log10 : α → α
  sin : α → α
  cos : α → α
  tan : α → α
  tanh : α → α
  pow : α → α → α
  pi : α
  /-- The text a report shows: the fewest digits that identify the number. -/
  text : α → String
  /-- The text with a set number of digits after the point. -/
  fixed : (places : Nat) → α → String

namespace Scalar

variable {α : Type} [Scalar α]

@[always_inline]
instance (a b : α) : Decidable (a < b) := decLt a b

@[always_inline]
instance (a b : α) : Decidable (a ≤ b) := decLe a b

instance (priority := low) (n : Nat) : OfNat α n := ⟨ofInt n⟩

instance (priority := low) : OfScientific α :=
  ⟨fun mantissa below exponent => ofDecimal mantissa (if below then -exponent else exponent)⟩

/-- The larger of two numbers; the first one unless the second is greater. -/
@[inline]
def max (a b : α) : α := if a < b then b else a

/-- The smaller of two numbers; the first one unless the second is less. -/
@[inline]
def min (a b : α) : α := if b < a then b else a

@[inline]
def clamp (low high x : α) : α := min (max x low) high

@[inline]
def abs (x : α) : α := if x < 0 then -x else x

/-- The larger of two numbers, and what is no number if one of them is none. -/
@[inline]
def peak (a b : α) : α := if a < b || !(b == b) then b else a

def ceil (x : α) : Except NotFinite Int := do
  let n ← truncate x
  return if ofInt n < x then n + 1 else n

/-- The closest integer; of two equally close ones the even one. -/
def nearest (x : α) : Except NotFinite Int := do
  let n ← truncate x
  let low := if x < ofInt n then n - 1 else n
  let rest := x - ofInt low
  let half : α := ofDecimal 5 (-1)
  return if rest < half then low
    else if half < rest then low + 1
    else if low % 2 == 0 then low else low + 1

/-- The largest of a first number and of those that follow. -/
def maximum (first : α) (rest : List α) : α := rest.foldl max first

end Scalar

end Partita
