import Partita.Score.Tempo
import Partita.Signal.Stereo

/-! The compressor and the limiter. Both follow the peaks of blocks of samples,
smooth the reduction they ask for, and apply it to all channels alike. -/
namespace Partita.Signal

variable {α : Type} [Scalar α]

/-- Channels after a reduction, the largest reduction and the last one, in
decibels. -/
structure Reduced (α : Type) where
  channels : List (Array α)
  largest : α
  last : α

@[specialize]
def framePeak (channels : List (Array α)) (i : Nat) : α :=
  channels.foldl (fun top c => Scalar.peak top (Scalar.abs (c.getD i 0))) 0

/-- The largest magnitude in a block of samples, none being beyond `frames`. -/
@[specialize]
def blockPeak (channels : List (Array α)) (frames block index : Nat) : α :=
  let start := block * index
  Nat.fold (min block (frames - start)) (fun j _ top => Scalar.peak top (framePeak channels (start + j))) 0

/-- The level of each block in decibels. -/
@[specialize]
def blockLevels (channels : List (Array α)) (frames block : Nat) : Array α :=
  let count := (frames + block - 1) / block
  let least : α := 1e-5
  let scale : α := 20
  Array.ofFn fun i : Fin count =>
    scale * Scalar.log10 (Scalar.peak (blockPeak channels frames block i) least)

/-- How much of the last value is kept after a step, for a time constant. -/
def keep (stepSeconds constant : α) : α :=
  if (0 : α) < constant then Scalar.exp (-stepSeconds / constant) else 0

/-- One step of smoothing, with a rate for rising and one for falling values. -/
def smoothStep (rise fall current target : α) : α :=
  let c := if current < target then rise else fall
  c * current + (1 - c) * target

/-- Follows targets smoothly, starting from zero. -/
@[specialize]
def smooth (targets : Array α) (rise fall : α) : Array α :=
  (targets.foldl (fun (current, out) target =>
    let next := smoothStep rise fall current target
    (next, out.push next)) ((0 : α), (Array.emptyWithCapacity targets.size : Array α))).2

/-- Multiplies each block by the factor of its reduction. -/
@[specialize]
def reduceBlocks (channels : List (Array α)) (reduction : Array α) (block : Nat) : List (Array α) :=
  let scale : α := 20
  let gains := reduction.map fun db => Scalar.pow 10 (-db / scale)
  channels.map fun c => c.mapIdx fun i x => x * gains.getD (i / block) 1

@[specialize]
def reduced (channels : List (Array α)) (reduction : Array α) (block : Nat) : Reduced α where
  channels := reduceBlocks channels reduction block
  largest := reduction.foldl Scalar.peak 0
  last := reduction.back?.getD 0

def blockSeconds (block : Nat) (rate : Int) : Except Fault α :=
  if block == 0 || rate == 0 then .error .divisionByZero
  else .ok (Scalar.ofNat block / Scalar.ofInt rate)

/-- Turns down what is above a threshold by a ratio. -/
@[specialize]
def compress (channels : List (Array α)) (frames : Nat) (threshold ratio attack release : α)
    (rate : Int) (block : Nat) : Except Fault (Reduced α) := do
  if frames == 0 || ratio ≤ 1 then return ⟨channels, 0, 0⟩
  let seconds ← blockSeconds block rate
  let factor := 1 - 1 / ratio
  let targets := (blockLevels channels frames block).map fun level =>
    Scalar.max (level - threshold) 0 * factor
  return reduced channels (smooth targets (keep seconds attack) (keep seconds release)) block

/-- Keeps everything below a threshold. The reduction never falls short of what
a block needs. -/
@[specialize]
def limit (channels : List (Array α)) (frames : Nat) (threshold release : α) (rate : Int)
    (block : Nat) : Except Fault (Reduced α) := do
  if frames == 0 then return ⟨channels, 0, 0⟩
  let seconds ← blockSeconds block rate
  let targets := (blockLevels channels frames block).map fun level => Scalar.max (level - threshold) 0
  let smoothed := smooth targets 0 (keep seconds release)
  return reduced channels (Array.zipWith Scalar.peak smoothed targets) block

end Partita.Signal
