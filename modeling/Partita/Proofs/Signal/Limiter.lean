import Partita.Proofs.Reals
import Partita.Signal.Dynamics

/-! The ceiling of the limiter. The reduction of a block is never less than what its peak
exceeds the threshold by, whatever levels came before it, so that no sample of the block is
left above the threshold; and a sample is only ever multiplied by a positive gain. -/
namespace Partita.Signal

section blocks

variable {α : Type} [Scalar α]

theorem size_smooth (targets : Array α) (rise fall : α) : (smooth targets rise fall).size = targets.size := by
  refine Array.foldl_induction (fun i (state : α × Array α) => state.2.size = i) rfl fun i state kept => ?_
  rw [Array.size_push, kept]

theorem size_blockLevels (channels : List (Array α)) (frames block : ℕ) :
    (blockLevels channels frames block).size = (frames + block - 1) / block := Array.size_ofFn

/-- Every frame lies in a block. -/
theorem block_lt {frames block i : ℕ} (grouped : 0 < block) (inside : i < frames) :
    i / block < (frames + block - 1) / block := by
  have : (i + block) / block ≤ (frames + block - 1) / block := Nat.div_le_div_right (by omega)
  rw [Nat.add_div_right i grouped] at this
  omega

/-- What the level of each block exceeds a threshold by. -/
def excess (channels : List (Array α)) (frames block : ℕ) (threshold : α) : Array α :=
  (blockLevels channels frames block).map fun level => Scalar.max (level - threshold) 0

/-- The reductions of the limiter, which never fall short of the excess. -/
def limiting (channels : List (Array α)) (frames block : ℕ) (threshold fall : α) : Array α :=
  let targets := excess channels frames block threshold
  Array.zipWith Scalar.peak (smooth targets 0 fall) targets

theorem limit_eq {channels : List (Array α)} {frames block : ℕ} (filled : 0 < frames) {rate : ℤ} (sampled : rate ≠ 0)
    (grouped : 0 < block) (threshold release : α) : limit channels frames threshold release rate block =
      .ok (reduced channels (limiting channels frames block threshold
        (keep (Scalar.ofNat block / Scalar.ofInt rate) release)) block) := by
  have some : (frames == 0) = false := by simpa using filled.ne'
  have timed : blockSeconds block rate = .ok (Scalar.ofNat block / Scalar.ofInt rate : α) := by
    simp [blockSeconds, grouped.ne', sampled]
  simp only [limit, some, timed, Bool.false_eq_true, if_false]
  rfl

theorem size_limiting (channels : List (Array α)) (frames block : ℕ) (threshold fall : α) :
    (limiting channels frames block threshold fall).size = (frames + block - 1) / block := by
  simp [limiting, excess, size_smooth, size_blockLevels]

def gainOf (db : α) : α := Scalar.pow 10 (-db / 20)

/-- A channel whose frames have the gain of their block. -/
def gained (reduction : Array α) (block : ℕ) (c : Array α) : Array α :=
  c.mapIdx fun i x => x * (reduction.map gainOf).getD (i / block) 1

theorem reduced_channels (channels : List (Array α)) (reduction : Array α) (block : ℕ) :
    (reduced channels reduction block).channels = channels.map (gained reduction block) := rfl

theorem size_gained (reduction : Array α) (block : ℕ) (c : Array α) : (gained reduction block c).size = c.size :=
  Array.size_mapIdx

theorem getD_gained {c : Array α} {reduction : Array α} {block i : ℕ} (inside : i < c.size)
    (there : i / block < reduction.size) (x : α) :
    (gained reduction block c).getD i x = c.getD i x * gainOf reduction[i / block] := by
  simp [gained, inside, there]

end blocks

variable [Exact.Venue]

open Exact

theorem framePeak_le_iff {channels : List (Array ℝ)} {i : ℕ} {b : ℝ} :
    framePeak channels i ≤ b ↔ 0 ≤ b ∧ ∀ c ∈ channels, |c.getD i 0| ≤ b := by
  unfold framePeak
  rw [foldl_peak_le_iff]
  simp only [real_abs, real_natural, Nat.cast_zero]

theorem blockPeak_le_iff {channels : List (Array ℝ)} {frames block index : ℕ} {b : ℝ} :
    blockPeak channels frames block index ≤ b ↔
      0 ≤ b ∧ ∀ j < min block (frames - block * index), framePeak channels (block * index + j) ≤ b := by
  unfold blockPeak
  rw [fold_peak_le_iff, real_natural, Nat.cast_zero]

/-- No sample is beyond the peak of its block. -/
theorem abs_le_blockPeak {channels : List (Array ℝ)} {c : Array ℝ} (member : c ∈ channels) {frames block i : ℕ}
    (grouped : 0 < block) (inside : i < frames) : |c.getD i 0| ≤ blockPeak channels frames block (i / block) := by
  obtain ⟨-, each⟩ := blockPeak_le_iff.mp (le_refl (blockPeak channels frames block (i / block)))
  have place : block * (i / block) + i % block = i := Nat.div_add_mod i block
  have within := each (i % block) (lt_min (Nat.mod_lt i grouped) (by omega))
  rw [place] at within
  exact (framePeak_le_iff.mp within).2 c member

theorem getElem_blockLevels {channels : List (Array ℝ)} {frames block k : ℕ}
    (there : k < (blockLevels channels frames block).size) : (blockLevels channels frames block)[k] =
      20 * Real.logb 10 (max (blockPeak channels frames block k) (1 / 10 ^ 5)) := by
  have decibels (y : ℝ) : (@OfNat.ofNat ℝ 20 (Scalar.instOfNat 20)) * Scalar.log10 y = 20 * Real.logb 10 y := by
    rw [real_natural]
    rfl
  have least : (@OfScientific.ofScientific ℝ Scalar.instOfScientific 1 true 5) = 1 / 10 ^ 5 := by
    rw [real_decimal, Nat.cast_one]
  rw [← least, ← real_peak, ← decibels]
  exact Array.getElem_ofFn _

omit [Venue] in
/-- A reduction of what a level exceeds a threshold by leaves nothing above it. -/
theorem reduced_le {x top threshold r : ℝ} (within : |x| ≤ top)
    (enough : 20 * Real.logb 10 (max top (1 / 10 ^ 5)) - threshold ≤ r) :
    |x * (10 : ℝ) ^ (-r / 20)| ≤ (10 : ℝ) ^ (threshold / 20) := by
  have positive : 0 < max top (1 / 10 ^ 5) := lt_max_of_lt_right (by positivity)
  have gain : (0 : ℝ) < 10 ^ (-r / 20) := by positivity
  calc |x * (10 : ℝ) ^ (-r / 20)| = |x| * 10 ^ (-r / 20) := by rw [abs_mul, abs_of_pos gain]
    _ ≤ max top (1 / 10 ^ 5) * 10 ^ (-r / 20) := by gcongr; exact within.trans (le_max_left _ _)
    _ = 10 ^ (Real.logb 10 (max top (1 / 10 ^ 5)) + -r / 20) := by
        rw [Real.rpow_add (by norm_num), Real.rpow_logb (by norm_num) (by norm_num) positive]
    _ ≤ 10 ^ (threshold / 20) := Real.rpow_le_rpow_of_exponent_le (by norm_num) (by linarith)

theorem excess_le_limiting {channels : List (Array ℝ)} {frames block k : ℕ} {threshold fall : ℝ}
    (there : k < (limiting channels frames block threshold fall).size) :
    20 * Real.logb 10 (max (blockPeak channels frames block k) (1 / 10 ^ 5)) - threshold ≤
      (limiting channels frames block threshold fall)[k] := by
  have level : k < (blockLevels channels frames block).size := by
    rwa [size_blockLevels, ← size_limiting channels frames block threshold fall]
  simp only [limiting, excess, Array.getElem_zipWith, Array.getElem_map, real_peak, real_max,
    getElem_blockLevels level]
  exact (le_max_left _ _).trans (le_max_right _ _)

theorem gainOf_eq (db : ℝ) : gainOf db = (10 : ℝ) ^ (-db / 20) := by
  unfold gainOf
  rw [real_natural, real_natural]
  rfl

/-- No sample of a signal of any number of channels leaves the limiter above its threshold,
and every one keeps its sign. -/
theorem limit_holds_ceiling {channels : List (Array ℝ)} {frames : ℕ} (filled : 0 < frames)
    (framed : ∀ c ∈ channels, c.size = frames) (threshold release : ℝ) {rate : ℤ} (sampled : 1 ≤ rate) {block : ℕ}
    (grouped : 1 ≤ block) : ∃ r, limit channels frames threshold release rate block = .ok r ∧
      List.Forall₂ (fun input output : Array ℝ => output.size = frames ∧ ∀ i < frames,
        |output.getD i 0| ≤ (10 : ℝ) ^ (threshold / 20) ∧
          SignType.sign (output.getD i 0) = SignType.sign (input.getD i 0)) channels r.channels := by
  refine ⟨_, limit_eq filled (by omega) grouped threshold release, ?_⟩
  rw [reduced_channels, List.forall₂_map_right_iff, List.forall₂_same]
  intro c member
  refine ⟨(size_gained ..).trans (framed c member), fun i inside => ?_⟩
  have here : i < c.size := by rwa [framed c member]
  have there : i / block < (limiting channels frames block threshold
      (keep (Scalar.ofNat block / Scalar.ofInt rate) release)).size := by
    rw [size_limiting]
    exact block_lt grouped inside
  rw [getD_gained here there, gainOf_eq]
  constructor
  · exact reduced_le (abs_le_blockPeak member grouped inside) (excess_le_limiting there)
  · have gain := Real.rpow_pos_of_pos (by norm_num : (0 : ℝ) < 10)
      (-(limiting channels frames block threshold
        (keep (Scalar.ofNat block / Scalar.ofInt rate) release))[i / block] / 20)
    rw [sign_mul, sign_pos gain, mul_one]

noncomputable def burst : List (Array ℝ) := [#[1 / 4, -1 / 2, 0], #[2, 1, -3]]

omit [Venue] in
theorem limit_holds_ceiling_burst : letI := ideal
    (∀ c ∈ burst, c.size = 3) ∧ ∃ r, limit burst 3 (-6) (1 / 10) 48000 2 = .ok r ∧
      List.Forall₂ (fun input output : Array ℝ => output.size = 3 ∧ ∀ i < 3,
        |output.getD i 0| ≤ (10 : ℝ) ^ (-6 / 20 : ℝ) ∧
          SignType.sign (output.getD i 0) = SignType.sign (input.getD i 0)) burst r.channels := by
  have framed : ∀ c ∈ burst, c.size = 3 := by simp [burst]
  exact ⟨framed, @limit_holds_ceiling ideal burst 3 (by decide) framed (-6) (1 / 10) 48000 (by decide) 2 (by decide)⟩

end Partita.Signal
