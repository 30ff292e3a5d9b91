import Partita.Fault
import Partita.Score.Tempo
import Partita.Text.Lower

/-! Filters: second-order Butterworth designs by the bilinear transform, and the
recurrence that applies them. -/
namespace Partita.Signal

variable {α : Type} [Scalar α]

inductive FilterKind where
  | low
  | high
  | band
  deriving DecidableEq, Repr

def FilterKind.ofName? (name : String) : Option FilterKind :=
  match Text.lower name with
  | "lowpass" => some .low
  | "highpass" => some .high
  | "bandpass" => some .band
  | _ => none

/-- The band a filter is designed for, in fractions of half the sample rate. -/
inductive Band (α : Type) where
  | low (cutoff : α)
  | high (cutoff : α)
  | band (low high : α)

/-- A recurrence: weights of the latest inputs and of the latest outputs, the
first output weight being one. -/
structure Recurrence (α : Type) where
  b : List α
  a : List α

def sqrt2 : α := Scalar.sqrt 2

/-- The recurrence of a low or high pass. -/
def designEdge (high : Bool) (cutoff : α) : Recurrence α :=
  let k := Scalar.tan (Scalar.pi * cutoff / 2)
  let k2 := k * k
  let n := 1 / (1 + sqrt2 * k + k2)
  let b := if high then [n, -2 * n, n] else [k2 * n, 2 * k2 * n, k2 * n]
  ⟨b, [1, 2 * (k2 - 1) * n, (1 - sqrt2 * k + k2) * n]⟩

/-- The recurrence of a band pass. -/
def designBand (low high : α) : Recurrence α :=
  let l := Scalar.tan (Scalar.pi * low / 2)
  let h := Scalar.tan (Scalar.pi * high / 2)
  let width := h - l
  let w := l * h
  let c := sqrt2 * width
  let d := 2 * w + width * width
  let e := sqrt2 * width * w
  let w2 := w * w
  let a0 := 1 + c + d + e + w2
  let g := width * width / a0
  ⟨[g, 0, -2 * g, 0, g],
   [1, (-4 - 2 * c + 2 * e + 4 * w2) / a0, (6 - 2 * d + 6 * w2) / a0,
    (-4 + 2 * c - 2 * e + 4 * w2) / a0, (1 - c + d - e + w2) / a0]⟩

/-- Designs a filter. The band must lie inside the open unit interval. -/
def design : Band α → Except Fault (Recurrence α)
  | .low cutoff =>
    if (0 : α) < cutoff ∧ cutoff < 1 then .ok (designEdge false cutoff) else .error .filterBand
  | .high cutoff =>
    if (0 : α) < cutoff ∧ cutoff < 1 then .ok (designEdge true cutoff) else .error .filterBand
  | .band low high =>
    if (0 : α) < low ∧ low < high ∧ high < 1 then .ok (designBand low high) else .error .filterBand

/-- A cutoff rounded to whole thousandths. -/
def quantize (x : α) : Except Fault α := do
  let step : α := 0.001
  return Scalar.ofInt (← Scalar.toNearest (x / step)) * step

/-- The band of a filter, none if the filter passes everything. -/
def bandOf (kind : FilterKind) (frequency q : α) (rate : Int) : Except Fault (Option (Band α)) := do
  let cutoff := Scalar.min (Scalar.max (← Score.quotient frequency (Scalar.ofInt rate / 2)) 0.001) 0.99
  match kind with
  | .low => if 0.99 ≤ cutoff then return none else return some (.low (← quantize cutoff))
  | .high => return some (.high (← quantize cutoff))
  | .band =>
    let half := cutoff / Scalar.max q 0.1 / 2
    let low := Scalar.min (Scalar.max (cutoff - half) 0.001) 0.98
    let high := Scalar.min (Scalar.max (cutoff + half) (low + 0.001)) 0.99
    return some (.band (← quantize low) (← quantize high))

/-- Applies a recurrence from a sample on, with what earlier samples left in the
four memories. -/
@[specialize]
def recurFrom (x : Array α) (b0 b1 b2 b3 b4 a1 a2 a3 a4 : α) :
    (fuel i : Nat) → (z1 z2 z3 z4 : α) → Array α → Array α
  | 0, _, _, _, _, _, out => out
  | fuel + 1, i, z1, z2, z3, z4, out =>
    match x[i]? with
    | none => out
    | some v =>
      let y := b0 * v + z1
      recurFrom x b0 b1 b2 b3 b4 a1 a2 a3 a4 fuel (i + 1)
        (b1 * v + z2 - a1 * y) (b2 * v + z3 - a2 * y) (b3 * v + z4 - a3 * y) (b4 * v - a4 * y)
        (out.push y)

/-- Applies a recurrence to a signal that is preceded by silence. -/
@[specialize]
def Recurrence.apply (r : Recurrence α) (x : Array α) : Array α :=
  let b (i : Nat) : α := r.b.getD i 0
  let a (i : Nat) : α := r.a.getD i 0
  recurFrom x (b 0) (b 1) (b 2) (b 3) (b 4) (a 1) (a 2) (a 3) (a 4) x.size 0 0 0 0 0
    (Array.emptyWithCapacity x.size)

@[specialize]
def applyFilter (channels : List (Array α)) (kind : String) (frequency q : α) (rate : Int) :
    Except Fault (List (Array α)) := do
  match FilterKind.ofName? kind with
  | none => throw (.unknownFilter kind)
  | some k =>
    match ← bandOf k frequency q rate with
    | none => return channels
    | some band =>
      let r ← design band
      return channels.map r.apply

end Partita.Signal
