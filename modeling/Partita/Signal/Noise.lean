/-! Normally distributed numbers from a fixed seed: a permuted congruential
generator of 128 bits of state, and a ziggurat of 256 layers. -/
namespace Partita.Noise

/-- A number of 128 bits in two words. -/
structure Wide where
  high : UInt64
  low : UInt64

/-- The upper word of a product of words, by halves. -/
@[inline]
def mulHigh (a b : UInt64) : UInt64 :=
  let mask : UInt64 := 0xFFFFFFFF
  let a0 := a &&& mask
  let a1 := a >>> 32
  let b0 := b &&& mask
  let b1 := b >>> 32
  let low := a0 * b0
  let middle := a1 * b0 + (low >>> 32)
  let cross := (middle &&& mask) + a0 * b1
  a1 * b1 + (middle >>> 32) + (cross >>> 32)

namespace Wide

@[inline]
def mul (a b : Wide) : Wide :=
  ⟨mulHigh a.low b.low + a.high * b.low + a.low * b.high, a.low * b.low⟩

@[inline]
def add (a b : Wide) : Wide :=
  let low := a.low + b.low
  ⟨a.high + b.high + (if low < a.low then 1 else 0), low⟩

end Wide

def multiplier : Wide := ⟨0x2360ED051FC65DA4, 0x4385DF649FCCF645⟩

def increment : Wide :=
  let n : Nat := 158632560045879711472538546351268876111
  ⟨(n >>> 64).toUInt64, n.toUInt64⟩

def seed : Wide :=
  let n : Nat := 2308840470998917848970343288548873417
  ⟨(n >>> 64).toUInt64, n.toUInt64⟩

@[inline]
def advance (s : Wide) : Wide := (s.mul multiplier).add increment

/-- The word a state stands for: the exclusive or of its halves, rotated by its
top bits. -/
@[inline]
def output (s : Wide) : UInt64 :=
  let x := s.high ^^^ s.low
  let k := s.high >>> 58
  if k == 0 then x else (x >>> k) ||| (x <<< (64 - k))

/-- A number in the unit interval. -/
@[inline]
def unit (word : UInt64) : Float := (word >>> 11).toFloat / 9007199254740992.0

def tailStart : Float := 3.6541528853610088

def layerArea : Float := 0.004928673233974658

def density (x : Float) : Float := Float.exp (-x * x / 2)

/-- The edges of the layers below a given one, from the outside in. -/
def edgesBelow : (count : Nat) → Float → List Float
  | 0, _ => []
  | count + 1, x =>
    let inner := Float.sqrt (-2 * Float.log (layerArea / x + density x))
    inner :: edgesBelow count inner

/-- The edges of the layers, the innermost first. -/
def edges : Array Float := (0 :: (tailStart :: edgesBelow 254 tailStart).reverse).toArray

def scale52 : Float := 4503599627370496.0

/-- The widths of the layers by which words are scaled. -/
def widths : Array Float :=
  edges.mapIdx fun i x => if i == 0 then layerArea / density tailStart / scale52 else x / scale52

/-- Words below these are inside a layer for certain. -/
def bounds : Array UInt64 :=
  edges.mapIdx fun i x =>
    if i == 0 then (tailStart * density tailStart / layerArea * scale52).toUInt64
    else (edges.getD (i - 1) 0 / x * scale52).toUInt64

def heights : Array Float := edges.map density

/-- Draws from the tail, giving up after `fuel` attempts. -/
def drawTail (negative : Bool) : (fuel : Nat) → Wide → Float × Wide
  | 0, s => (tailStart, s)
  | fuel + 1, s =>
    let s := advance s
    let xx := -Float.log (1 - unit (output s)) / tailStart
    let s := advance s
    let yy := -Float.log (1 - unit (output s))
    if 2 * yy > xx * xx then
      (if negative then -(tailStart + xx) else tailStart + xx, s)
    else drawTail negative fuel s

/-- Draws a number, giving up after `fuel` attempts. -/
def drawWithin : (fuel : Nat) → Wide → Float × Wide
  | 0, s => (0, s)
  | fuel + 1, s =>
    let s := advance s
    let word := output s
    let layer := (word &&& 0xFF).toNat
    let rest := word >>> 8
    let bits := (rest >>> 1) &&& 0xFFFFFFFFFFFFF
    let magnitude := bits.toFloat * widths.getD layer 0
    let z := if rest &&& 1 == 1 then -magnitude else magnitude
    if bits < bounds.getD layer 0 then (z, s)
    else if layer == 0 then drawTail ((bits >>> 8) &&& 1 == 1) 1000 s
    else
      let s := advance s
      let low := heights.getD layer 0
      if (heights.getD (layer - 1) 0 - low) * unit (output s) + low < density z then (z, s)
      else drawWithin fuel s

/-- The first numbers of the sequence. -/
def sequence (count : Nat) : Array Float :=
  (Nat.fold count (fun _ _ (out, s) =>
    let (z, s) := drawWithin 1000 s
    (out.push z, s)) ((Array.emptyWithCapacity count : Array Float), seed)).1

end Partita.Noise
