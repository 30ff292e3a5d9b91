import Partita.Scalar

/-! Binary floating point read and built exactly. A finite number is a sign, a
natural mantissa and a power of two; `ofRatio` rounds a quotient of naturals to
the closest number, a tie going to the even mantissa. -/
namespace Partita.Binary64

/-- The quotient rounded to the closest natural number, ties to the even one. -/
def roundDiv (num den : Nat) : Nat :=
  let low := num / den
  let rest := num % den
  if 2 * rest < den then low
  else if den < 2 * rest then low + 1
  else low + low % 2

/-- `num · base ^ power` as a quotient of naturals, for a power of either sign. -/
def scaled (num base : Nat) (power : Int) : Nat × Nat :=
  match power with
  | .ofNat k => (num * Nat.pow base k, 1)
  | .negSucc k => (num, Nat.pow base (k + 1))

/-- A finite number: `± mantissa · 2 ^ exponent`. -/
structure Parts where
  negative : Bool
  mantissa : Nat
  exponent : Int
  deriving DecidableEq, Repr

inductive View where
  | nan
  | infinite (negative : Bool)
  | finite (parts : Parts)
  deriving DecidableEq, Repr

/-- Takes the encoding of a number apart. -/
def view (x : Float) : View :=
  let bits := x.toBits.toNat
  let negative := bits / Nat.pow 2 63 == 1
  let biased : Nat := bits / Nat.pow 2 52 % Nat.pow 2 11
  let fraction : Nat := bits % Nat.pow 2 52
  if biased == 2047 then
    if fraction == 0 then .infinite negative else .nan
  else if biased == 0 then .finite ⟨negative, fraction, -1074⟩
  else .finite ⟨negative, fraction + Nat.pow 2 52, (biased : Int) - 1075⟩

def infinity : Float := Float.ofBits 0x7FF0000000000000

/-- The encoding of `mantissa · 2 ^ exponent` for a mantissa of at most 53 bits
that is full, or an exponent at its least. -/
def pack (mantissa : Nat) (exponent : Int) : Float :=
  if mantissa < Nat.pow 2 52 then Float.ofBits mantissa.toUInt64
  else if 971 < exponent then infinity
  else Float.ofBits (((exponent + 1075).toNat <<< 52) + (mantissa - Nat.pow 2 52)).toUInt64

/-- The closest number to `num / den`; infinity beyond the largest. -/
def ofRatio (num den : Nat) : Float :=
  if num == 0 then 0 else
    let guess := (num.log2 : Int) - den.log2
    let (n, d) := scaled den 2 guess
    let top := if n ≤ num * d then guess else guess - 1
    let exponent := max (top - 52) (-1074)
    let mantissa := match exponent with
      | .ofNat k => roundDiv num (den <<< k)
      | .negSucc k => roundDiv (num <<< (k + 1)) den
    if mantissa == Nat.pow 2 53 then pack (Nat.pow 2 52) (exponent + 1) else pack mantissa exponent

def ofInt (n : Int) : Float :=
  match n with
  | .ofNat k => if k < Nat.pow 2 53 then Float.ofNat k else ofRatio k 1
  | .negSucc k => if k < Nat.pow 2 53 then -Float.ofNat (k + 1) else -ofRatio (k + 1) 1

/-- The closest number to `mantissa · 10 ^ exponent`. Exponents that are out of
reach of every mantissa of that length are not computed. -/
def ofDecimal (mantissa : Nat) (exponent : Int) : Float :=
  if mantissa == 0 then 0 else
    let top : Int := exponent + ((mantissa.log2 / 3 : Nat) : Int)
    let bottom : Int := exponent + ((mantissa.log2 / 4 : Nat) : Int)
    if 400 < bottom then infinity
    else if top < -400 then 0
    else
      let (n, d) := scaled mantissa 10 exponent
      ofRatio n d

def truncate (x : Float) : Except NotFinite Int :=
  if x.abs < 9.0e18 then .ok x.toInt64.toInt
  else match view x with
    | .nan => .error .nan
    | .infinite _ => .error .infinite
    | .finite p =>
      let (n, d) := scaled p.mantissa 2 p.exponent
      .ok (if p.negative then -((n / d : Nat) : Int) else (n / d : Nat))

/-- The closest multiple of `10 ^ -places`, ties to the even one, and then the
closest number to that. -/
def roundPlaces (places : Nat) (x : Float) : Float :=
  match view x with
  | .nan | .infinite _ => x
  | .finite p =>
    let (n, d) := scaled p.mantissa 2 p.exponent
    let magnitude := ofRatio (roundDiv (n * Nat.pow 10 places) d) (Nat.pow 10 places)
    if p.negative then -magnitude else magnitude

end Partita.Binary64
