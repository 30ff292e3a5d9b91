/-! Discrete Fourier transforms of binary floating-point signals whose length is
a power of two, and convolution by them. -/
namespace Partita.Fourier

structure Spectrum where
  re : FloatArray
  im : FloatArray

def zeros (n : Nat) : FloatArray := ⟨Array.replicate n 0⟩

/-- The least power of two that is at least `n`, as an exponent. -/
def levelsFor (n : Nat) : Nat := if n ≤ 1 then 0 else (n - 1).log2 + 1

/-- The first half of the roots of unity of order `n`. -/
def roots (n : Nat) : Spectrum := Id.run do
  let mut re := FloatArray.emptyWithCapacity (n / 2)
  let mut im := FloatArray.emptyWithCapacity (n / 2)
  for k in [0:n / 2] do
    let angle := -2 * 3.141592653589793 * k.toFloat / n.toFloat
    re := re.push angle.cos
    im := im.push angle.sin
  return ⟨re, im⟩

/-- The index with its lowest bits in reverse order. -/
def reverseBits (levels i : Nat) : Nat := Id.run do
  let mut r := 0
  let mut x := i
  for _ in [0:levels] do
    r := 2 * r + x % 2
    x := x / 2
  return r

/-- The transform of `2 ^ levels` numbers, by combining halves. -/
def transform (levels : Nat) (w : Spectrum) (x : Spectrum) : Spectrum := Id.run do
  let n := Nat.pow 2 levels
  let mut re := x.re
  let mut im := x.im
  for i in [0:n] do
    let j := reverseBits levels i
    if i < j then
      let a := re.get! i
      re := re.set! i (re.get! j)
      re := re.set! j a
      let b := im.get! i
      im := im.set! i (im.get! j)
      im := im.set! j b
  for level in [0:levels] do
    let half := Nat.pow 2 level
    let stride := n / (2 * half)
    for group in [0:stride] do
      let base := group * 2 * half
      for k in [0:half] do
        let wr := w.re.get! (k * stride)
        let wi := w.im.get! (k * stride)
        let p := base + k
        let q := p + half
        let xr := re.get! q
        let xi := im.get! q
        let tr := wr * xr - wi * xi
        let ti := wr * xi + wi * xr
        let ar := re.get! p
        let ai := im.get! p
        re := re.set! p (ar + tr)
        im := im.set! p (ai + ti)
        re := re.set! q (ar - tr)
        im := im.set! q (ai - ti)
  return ⟨re, im⟩

def padTo (n : Nat) (x : Array Float) (count : Nat) : FloatArray := Id.run do
  let mut out := zeros n
  for i in [0:min count x.size] do out := out.set! i (x.getD i 0)
  return out

/-- The first `count` samples of the convolution of two signals. Both are
transformed at once, as real and imaginary part. -/
def convolve (x h : Array Float) (count : Nat) : Array Float := Id.run do
  if x.isEmpty || h.isEmpty then return Array.replicate count 0
  let nx := min x.size count
  let nh := min h.size count
  let levels := levelsFor (nx + nh)
  let n := Nat.pow 2 levels
  let w := roots n
  let z := transform levels w ⟨padTo n x nx, padTo n h nh⟩
  -- the product of the two spectra, conjugated for the way back
  let mut re := FloatArray.emptyWithCapacity n
  let mut im := FloatArray.emptyWithCapacity n
  for k in [0:n] do
    let j := if k == 0 then 0 else n - k
    let a := z.re.get! k
    let b := z.im.get! k
    let c := z.re.get! j
    let d := z.im.get! j
    let xr := (a + c) / 2
    let xi := (b - d) / 2
    let hr := (b + d) / 2
    let hi := (c - a) / 2
    re := re.push (xr * hr - xi * hi)
    im := im.push (-(xr * hi + xi * hr))
  let y := transform levels w ⟨re, im⟩
  let size := n.toFloat
  return Array.ofFn fun i : Fin count => if i.val < n then y.re.get! i.val / size else 0

end Partita.Fourier
