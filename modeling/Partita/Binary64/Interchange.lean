import Partita.Wave.Interchange

/-! Binary floating point in files. -/
namespace Partita.Binary64

instance : Wave.Interchange Float where
  singleBits x := x.toFloat32.toBits.toNat
  ofSingleBits n := (Float32.ofBits n.toUInt32).toFloat
  ofDoubleBits n := Float.ofBits n.toUInt64

end Partita.Binary64
