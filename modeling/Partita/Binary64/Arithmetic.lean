import Partita.Decimal.Shortest

/-! Binary floating point as the number type of a performance. -/
namespace Partita.Binary64

instance : Scalar Float where
  decLt := inferInstanceAs (DecidableLT Float)
  decLe := inferInstanceAs (DecidableLE Float)
  ofInt := ofInt
  ofNat := Float.ofNat
  ofRatio num den := if num < 0 then -ofRatio num.natAbs den else ofRatio num.natAbs den
  ofDecimal := ofDecimal
  truncate := truncate
  isFinite := Float.isFinite
  negInf := -infinity
  floor := Float.floor
  roundPlaces := roundPlaces
  toSingle x := x.toFloat32.toFloat
  sqrt := Float.sqrt
  exp := Float.exp
  log10 := Float.log10
  sin := Float.sin
  cos := Float.cos
  tan := Float.tan
  tanh := Float.tanh
  pow := Float.pow
  pi := 3.141592653589793
  text := Decimal.shortest
  fixed := Decimal.fixed

end Partita.Binary64
