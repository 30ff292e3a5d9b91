import Partita.Mix.Buffer
import Partita.Wave.Bytes
import Partita.Wave.Interchange

/-! Reading wave files: chunks follow one another, one says how samples are
written and one holds them; all others are passed over. -/
namespace Partita.Wave

structure Layout where
  /-- One for integers, three for floating-point numbers. -/
  format : Nat
  channels : Nat
  rate : Nat
  bits : Nat
  deriving DecidableEq, Repr

namespace Layout

def width (l : Layout) : Nat := (l.bits + 7) / 8

/-- Whether samples written so can be read. -/
def readable (l : Layout) : Bool :=
  1 ≤ l.channels && l.channels ≤ 1024 && 1 ≤ l.rate &&
    ((l.format == 1 && 1 ≤ l.width && l.width ≤ 4) || (l.format == 3 && (l.bits == 32 || l.bits == 64)))

/-- Reads the body of the chunk that describes the samples. An extended
description names the format further on. -/
def read? (body : List UInt8) : Option Layout :=
  let field (at_ width : Nat) : Nat := ofBytes ((body.drop at_).take width)
  if body.length < 16 then none
  else
    let tag := field 0 2
    let format := if tag == 0xFFFE && 26 ≤ body.length then field 24 2 else tag
    some ⟨format, field 2 2, field 4 4, field 14 2⟩

end Layout

/-- Reads chunks up to the one that holds the samples, at most `fuel` of them.
A chunk of odd length is followed by a byte of padding. -/
def readChunks : (fuel : Nat) → Option Layout → List UInt8 → Option (Layout × List UInt8)
  | 0, _, _ => none
  | fuel + 1, layout, bytes =>
    if bytes.length < 8 then none
    else
      let name := bytes.take 4
      let size := ofBytes ((bytes.drop 4).take 4)
      let rest := bytes.drop 8
      if name == ascii "data" then
        layout.map fun l => (l, if size == 0 then rest else rest.take size)
      else
        let layout := if name == ascii "fmt " then Layout.read? (rest.take size) else layout
        readChunks fuel layout (rest.drop (size + size % 2))

variable {α : Type} [Scalar α] [Interchange α]

/-- The value of a sample. Integers span the interval from minus one to one;
those of one byte have no sign. -/
def sampleOf (l : Layout) (bytes : List UInt8) : α :=
  if l.format == 3 then
    if l.bits == 32 then Interchange.ofSingleBits (ofBytes bytes)
    else Interchange.ofDoubleBits (ofBytes bytes)
  else if l.width == 1 then Scalar.ofRatio ((ofBytes bytes : Int) - 128) 128
  else Scalar.ofRatio (ofBytesSigned bytes) (Nat.pow 2 (8 * l.width - 1))

/-- Splits bytes into groups of `width`, `count` of them at most, and drops what
is left. -/
def groups (width : Nat) : (count : Nat) → List UInt8 → List (List UInt8)
  | 0, _ => []
  | count + 1, bytes =>
    let group := bytes.take width
    if group.length < width then [] else group :: groups width count (bytes.drop width)

/-- Decodes a wave file; none if it is no such file. -/
def decode? (bytes : List UInt8) : Option (Buffer α) :=
  if bytes.take 4 == ascii "RIFF" && (bytes.drop 8).take 4 == ascii "WAVE" then do
    let (layout, payload) ← readChunks bytes.length none (bytes.drop 12)
    if !layout.readable then none
    let frameWidth := layout.channels * layout.width
    let frames := payload.length / frameWidth
    let samples : Array α :=
      ((groups layout.width (frames * layout.channels) payload).map (sampleOf layout)).toArray
    let columns := Array.ofFn fun c : Fin layout.channels =>
      Array.ofFn fun i : Fin frames => samples.getD (i.val * layout.channels + c.val) 0
    return ⟨.ofColumns frames columns, layout.rate⟩
  else none

end Partita.Wave
