/-! Bytes of wave files: numbers stand with their least byte first. -/
namespace Partita.Wave

/-- A number in `width` bytes; what does not fit is dropped. -/
def bytesOf : (width n : Nat) → List UInt8
  | 0, _ => []
  | width + 1, n => (n % 256).toUInt8 :: bytesOf width (n / 256)

def ofBytes : List UInt8 → Nat
  | [] => 0
  | b :: rest => b.toNat + 256 * ofBytes rest

/-- The integer in some bytes, in two's complement. -/
def ofBytesSigned (bytes : List UInt8) : Int :=
  let n := ofBytes bytes
  let whole := Nat.pow 256 bytes.length
  if 2 * n < whole then n else n - whole

/-- The bytes of a text of seven-bit characters. -/
def ascii (s : String) : List UInt8 := s.toList.map fun c => c.toNat.toUInt8

end Partita.Wave
