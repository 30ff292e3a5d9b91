import Partita.Decimal.Fixed

/-! The shortest decimal text that reads back as a given binary number. The
numbers that round to it form an interval; the coarsest decimal grid with a
point in that interval gives the digits, the closer of two such points wins. -/
namespace Partita.Decimal

open Binary64

/-- The numbers that round to one mantissa, scaled by `4 / den`: ends `low` and
`high`, which belong to it when `closed`, around `centre`. -/
structure Interval where
  low : Nat
  centre : Nat
  high : Nat
  den : Nat
  closed : Bool

def Interval.ofParts (p : Parts) : Interval :=
  let (unit, den) := scaled 1 2 p.exponent
  let narrow := p.mantissa == Nat.pow 2 52 && -1074 < p.exponent
  { low := (4 * p.mantissa - (if narrow then 1 else 2)) * unit
    centre := 4 * p.mantissa * unit
    high := (4 * p.mantissa + 2) * unit
    den := 4 * den
    closed := p.mantissa % 2 == 0 }

def Interval.contains (i : Interval) (n : Nat) (power : Int) : Bool :=
  let (num, den) := scaled (n * i.den) 10 power
  let low := i.low * den
  let high := i.high * den
  if i.closed then low ≤ num && num ≤ high else low < num && num < high

/-- The point of the grid of `10 ^ power` that stands for the interval, if one
lies in it. -/
def Interval.onGrid (i : Interval) (power : Int) : Option Nat :=
  let (num, den) := scaled i.den 10 power
  let below := i.centre * den / num
  let nearest := roundDiv (i.centre * den) num
  if i.contains nearest power then some nearest
  else if i.contains below power then some below
  else if i.contains (below + 1) power then some (below + 1)
  else none

/-- The digits and the power of ten of the coarsest grid that meets the
interval, trying `fuel` grids from the leading digit on. -/
def Interval.coarsest (i : Interval) : (fuel : Nat) → (power : Int) → Nat × Int
  | 0, power => (digitsAt i.centre i.den power, power)
  | fuel + 1, power =>
    match i.onGrid power with
    | some n => (n, power)
    | none => i.coarsest fuel (power - 1)

/-- Removes the trailing zeros of a digit string, raising its power of ten. -/
def stripZeros : (fuel : Nat) → Nat → Int → Nat × Int
  | 0, n, power => (n, power)
  | fuel + 1, n, power => if n % 10 == 0 && n != 0 then stripZeros fuel (n / 10) (power + 1) else (n, power)

/-- Digits and a power of ten: positional between `10 ^ -4` and `10 ^ 16`,
always with a point, and with an exponent of at least two digits outside. -/
def layout (n : Nat) (power : Int) : String :=
  let digits := toString n
  let count : Int := digits.length
  let exponent := power + count - 1
  if -4 ≤ exponent && exponent < 16 then
    if power ≥ 0 then digits ++ String.ofList (List.replicate power.toNat '0') ++ ".0"
    else withPoint power.natAbs n
  else
    let rest := digits.toList.drop 1
    String.ofList (digits.toList.take 1)
      ++ (if rest.isEmpty then "" else "." ++ String.ofList rest)
      ++ (if exponent < 0 then "e-" else "e+") ++ padded 2 exponent.natAbs

def shortest (x : Float) : String :=
  match view x with
  | .nan => "nan"
  | .infinite negative => if negative then "-inf" else "inf"
  | .finite p =>
    (if p.negative then "-" else "") ++
      if p.mantissa == 0 then "0.0" else
        let i := Interval.ofParts p
        let (n, power) := i.coarsest 17 (leadingExponent i.centre i.den + 1)
        let (n, power) := stripZeros 20 n power
        layout n power

end Partita.Decimal
