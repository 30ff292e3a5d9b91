import Partita.Binary64

/-! Decimal text of a binary number with a set number of digits: `fixed` keeps a
number of places after the point, `scientific` a number of digits after the
leading one. Both round the exact value, a tie going to the even digit. -/
namespace Partita.Decimal

open Binary64


/-- A natural number written with at least `width` digits. -/
def padded (width n : Nat) : String :=
  let digits := toString n
  String.ofList (List.replicate (width - digits.length) '0') ++ digits

def withPoint (places n : Nat) : String :=
  if places == 0 then toString n
  else toString (n / Nat.pow 10 places) ++ "." ++ padded places (n % Nat.pow 10 places)

/-- A number with `places` digits after the point. -/
def fixed (places : Nat) (x : Float) : String :=
  match view x with
  | .nan => "nan"
  | .infinite negative => if negative then "-inf" else "inf"
  | .finite p =>
    let (n, d) := scaled p.mantissa 2 p.exponent
    (if p.negative then "-" else "") ++ withPoint places (roundDiv (n * Nat.pow 10 places) d)

/-- The power of ten of the leading digit of `num / den`, both positive. -/
def leadingExponent (num den : Nat) : Int :=
  let bits := (num.log2 : Int) - den.log2
  let guess := (bits - 1) * 30103 / 100000
  -- `guess` is at most the exponent sought and less than three below it
  let atLeast (e : Int) : Bool :=
    let (n, d) := scaled den 10 e
    n ≤ num * d
  if atLeast (guess + 2) then guess + 2 else if atLeast (guess + 1) then guess + 1
  else if atLeast guess then guess else guess - 1

/-- `num / den` divided by a power of ten and rounded to a natural number. -/
def digitsAt (num den : Nat) (power : Int) : Nat :=
  let (n, d) := scaled den 10 power
  roundDiv (num * d) n

/-- A number with one digit before the point, `places` after it and a signed
exponent of at least two digits. -/
def scientific (places : Nat) (x : Float) : String :=
  match view x with
  | .nan => "nan"
  | .infinite negative => if negative then "-inf" else "inf"
  | .finite p =>
    let (digits, exponent) : Nat × Int :=
      if p.mantissa == 0 then (0, 0) else
        let (n, d) := scaled p.mantissa 2 p.exponent
        let e := leadingExponent n d
        let digits := digitsAt n d (e - places)
        if digits == Nat.pow 10 (places + 1) then (Nat.pow 10 places, e + 1) else (digits, e)
    (if p.negative then "-" else "") ++ withPoint places digits
      ++ (if exponent < 0 then "e-" else "e+") ++ padded 2 exponent.natAbs

end Partita.Decimal
