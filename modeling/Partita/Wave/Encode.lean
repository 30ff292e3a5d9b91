import Partita.Mix.Buffer
import Partita.Wave.Bytes
import Partita.Wave.Interchange

/-! Wave files: a header of forty-four bytes, and the samples frame by frame, as
integers of sixteen bits or as numbers in single precision. -/
namespace Partita.Wave

variable {α : Type} [Scalar α]

structure Header where
  /-- One for integers, three for floating-point numbers. -/
  format : Nat
  channels : Nat
  rate : Int
  bits : Nat
  /-- The length of the samples in bytes. -/
  payload : Nat
  deriving DecidableEq, Repr

namespace Header

def frameBytes (h : Header) : Nat := h.channels * h.bits / 8

def byteRate (h : Header) : Int := h.rate * h.frameBytes

/-- Whether every number fits its field of thirty-two bits. -/
def fits (h : Header) : Bool :=
  let inWord (n : Int) : Bool := 0 ≤ n && n < 4294967296
  inWord h.rate && inWord h.byteRate && inWord (36 + h.payload)

def encode (h : Header) : List UInt8 :=
  ascii "RIFF" ++ bytesOf 4 (36 + h.payload) ++ ascii "WAVE" ++ ascii "fmt " ++ bytesOf 4 16
    ++ bytesOf 2 h.format ++ bytesOf 2 h.channels ++ bytesOf 4 h.rate.toNat
    ++ bytesOf 4 h.byteRate.toNat ++ bytesOf 2 h.frameBytes ++ bytesOf 2 h.bits
    ++ ascii "data" ++ bytesOf 4 h.payload

end Header

/-- A sample as an integer of sixteen bits: scaled, on either side of zero to
its own extreme, and cut off toward zero. -/
@[inline]
def quantize (x : α) : Except Fault Int :=
  let clipped := Scalar.clamp (-1) 1 x
  Scalar.toInt (if clipped < 0 then clipped * 32768 else clipped * 32767)

/-- A wave file: what its header says, and its samples frame by frame. -/
inductive Payload (α : Type) where
  | integers (samples : Array Int)
  | singles (samples : Array α)

structure File (α : Type) where
  header : Header
  payload : Payload α

/-- The sample that stands for what is no number. -/
def quantizeOr (x : α) : Int := (quantize x).toOption.getD 0

/-- Encodes audio of one or two channels. -/
@[specialize]
def encode (a : Audio α) (rate : Int) (float : Bool) : Except Fault (File α) := do
  if a.shape.length != 1 && a.shape.length != 2 then throw .audioShape
  let channels := a.channelCount
  if channels != 1 && channels != 2 then throw (.channelCount channels)
  have : Inhabited α := ⟨0⟩
  let samples := a.interleaved
  let low : α := -1
  let high : α := 1
  let payload := if float then
      Payload.singles (samples.map fun x => Scalar.toSingle (Scalar.clamp low high x))
    else .integers (samples.map quantizeOr)
  let bits := if float then 32 else 16
  let header : Header :=
    ⟨if float then 3 else 1, channels, rate, bits, samples.size * (bits / 8)⟩
  if header.fits then return ⟨header, payload⟩ else throw .fieldRange

/-- The two bytes of an integer sample, in two's complement. -/
def integerBytes (n : Int) : List UInt8 := bytesOf 2 (n % 65536).toNat

def Payload.bytes [Interchange α] : Payload α → List UInt8
  | .integers samples => samples.toList.flatMap integerBytes
  | .singles samples => samples.toList.flatMap fun x => bytesOf 4 (Interchange.singleBits x)

def File.bytes [Interchange α] (f : File α) : List UInt8 := f.header.encode ++ f.payload.bytes

end Partita.Wave
