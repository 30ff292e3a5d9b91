import Mathlib.Analysis.Convex.Basic
import Partita.Proofs.Whole.Levels

/-! Dynamics only ever turn down. A smoothed reduction moves from where it is toward what is asked
of it, and so stays between nothing and the largest reduction that was asked for so far. Whatever
the levels of a signal were, the gain of a block is therefore at most one; the gains are repeated
for the frames of their blocks, and there is one for each frame. -/
namespace Partita.Signal

section gains

variable {α : Type} [Scalar α]

/-- What a compressor turns the blocks down by once it has settled. -/
def overshoot (channels : List (Array α)) (frames block : ℕ) (threshold ratio : α) : Array α :=
  (excess channels frames block threshold).map (· * (1 - 1 / ratio))

/-- The gains of frames: that of each block for all its frames, up to the end of the signal. -/
def frameGains (reduction : Array α) (block frames : ℕ) : Array α :=
  (Whole.repeatEach (reduction.map gainOf) block).extract 0 frames

variable {reduction : Array α} {block frames : ℕ}

theorem size_frameGains (grouped : 0 < block) (enough : reduction.size = (frames + block - 1) / block) :
    (frameGains reduction block frames).size = frames := by
  have covered : frames ≤ reduction.size * block := enough ▸ Whole.blocks_cover frames grouped
  rw [frameGains, Array.size_extract, Whole.size_repeatEach, Array.size_map]
  omega

theorem getD_frameGains (grouped : 0 < block) {i : ℕ} (inside : i < (frameGains reduction block frames).size)
    (there : i / block < reduction.size) (x : α) :
    (frameGains reduction block frames).getD i x = gainOf reduction[i / block] := by
  have mapped : i / block < (reduction.map gainOf).size := by rwa [Array.size_map]
  rw [Array.getD, dif_pos inside]
  refine Eq.trans (Array.getElem_extract ..) ?_
  simp only [Nat.zero_add, Whole.getElem_repeatEach grouped mapped, Array.getElem_map]

theorem gained_eq {c : Array α} (framed : c.size = frames) (grouped : 0 < block)
    (enough : reduction.size = (frames + block - 1) / block) :
    gained reduction block c = Array.zipWith (· * ·) c (frameGains reduction block frames) := by
  have same : c.size = (frameGains reduction block frames).size := framed.trans (size_frameGains grouped enough).symm
  have fits := Whole.zip_gains framed grouped enough
  rw [framed] at fits
  exact Except.ok.inj (fits.symm.trans (Whole.zip_ok same _))

end gains

/-- A number between nothing and some of the first targets. -/
def Reached (targets : Array ℝ) (count : ℕ) (x : ℝ) : Prop :=
  0 ≤ x ∧ ∃ j, ∃ there : j < targets.size, j < count ∧ x ≤ targets[j]

/-- One reduction for each target, between nothing and the largest target so far. -/
structure Follows (targets reduction : Array ℝ) : Prop where
  size : reduction.size = targets.size
  reached : ∀ k (inside : k < reduction.size), Reached targets (k + 1) reduction[k]

variable [Exact.Venue]

open Exact

section smoothing

variable {targets : Array ℝ} {rise fall : ℝ}

/-- A step of smoothing ends between where it begins and its target. -/
theorem smoothStep_mem (rises : rise ∈ Set.Ico 0 1) (falls : fall ∈ Set.Ico 0 1) (current target : ℝ) :
    smoothStep rise fall current target ∈ Set.uIcc current target := by
  have between {c : ℝ} (rate : c ∈ Set.Ico 0 1) : c * current + (1 - c) * target ∈ Set.uIcc current target := by
    have moved : c * current + (1 - c) * target = target + c • (current - target) := by
      rw [smul_eq_mul]
      ring
    rw [moved]
    exact (convex_uIcc current target).add_smul_sub_mem Set.right_mem_uIcc Set.left_mem_uIcc ⟨rate.1, rate.2.le⟩
  unfold smoothStep
  simp only [real_natural, Nat.cast_one]
  split
  · exact between rises
  · exact between falls

/-- The next value is again between nothing and what was asked for, to which its own target is
added. -/
theorem smoothStep_reached (rises : rise ∈ Set.Ico 0 1) (falls : fall ∈ Set.Ico 0 1) {i : ℕ} {current : ℝ}
    (inside : i < targets.size) (asked : 0 ≤ targets[i]) (before : current = 0 ∨ Reached targets i current) :
    Reached targets (i + 1) (smoothStep rise fall current targets[i]) := by
  obtain ⟨low, high⟩ := smoothStep_mem rises falls current targets[i]
  have above : 0 ≤ current := by
    rcases before with rfl | ⟨above, -⟩
    · exact le_rfl
    · exact above
  refine ⟨(le_min above asked).trans low, ?_⟩
  rcases le_max_iff.mp high with falling | rising
  · rcases before with rfl | ⟨-, j, there, earlier, bound⟩
    · exact ⟨i, inside, i.lt_succ_self, falling.trans asked⟩
    · exact ⟨j, there, earlier.trans i.lt_succ_self, falling.trans bound⟩
  · exact ⟨i, inside, i.lt_succ_self, rising⟩

/-- What holds after some targets: the last value and all values before it are between nothing and
what was asked for by then. Before the first target the value is zero. -/
structure Smoothed (targets : Array ℝ) (count : ℕ) (state : ℝ × Array ℝ) : Prop where
  size : state.2.size = count
  current : state.1 = 0 ∨ Reached targets count state.1
  reached : ∀ k (inside : k < state.2.size), Reached targets (k + 1) state.2[k]

omit [Venue] in
theorem Smoothed.follows {state : ℝ × Array ℝ} (smoothed : Smoothed targets targets.size state) :
    Follows targets state.2 := ⟨smoothed.size, smoothed.reached⟩

/-- Smoothed values never leave what was asked for so far. -/
theorem smooth_follows (asked : ∀ t ∈ targets, 0 ≤ t) (rises : rise ∈ Set.Ico 0 1) (falls : fall ∈ Set.Ico 0 1) :
    Follows targets (smooth targets rise fall) := by
  refine Smoothed.follows (Array.foldl_induction (Smoothed targets) ⟨rfl, .inl ?_, ?_⟩ ?_)
  · rw [real_natural, Nat.cast_zero]
  · intro k inside
    contradiction
  · rintro i ⟨current, out⟩ ⟨size, before, each⟩
    dsimp only at size before each
    have next := smoothStep_reached rises falls i.isLt (asked _ (Array.getElem_mem i.isLt)) before
    refine ⟨by rw [Array.size_push, size], .inr next, fun k inside => ?_⟩
    rw [Array.size_push] at inside
    rw [Array.getElem_push]
    split
    · exact each k _
    · obtain rfl : k = i := by omega
      exact next

/-- The rate of a time constant keeps some of the last value, and never all of it. -/
theorem keep_mem {step : ℝ} (later : 0 < step) (constant : ℝ) : keep step constant ∈ Set.Ico 0 1 := by
  unfold keep
  simp only [real_natural, Nat.cast_zero]
  split
  · rename_i lasting
    refine ⟨(Real.exp_pos _).le, Real.exp_lt_one_iff.mpr ?_⟩
    exact div_neg_of_neg_of_pos (neg_neg_of_pos later) lasting
  · exact ⟨le_rfl, zero_lt_one⟩

/-- Not to fall short of the targets leaves a reduction within them. -/
theorem Follows.peak {reduction : Array ℝ} (follows : Follows targets reduction) :
    Follows targets (Array.zipWith Scalar.peak reduction targets) := by
  refine ⟨by rw [Array.size_zipWith, follows.size, Nat.min_self], fun k inside => ?_⟩
  rw [Array.size_zipWith] at inside
  obtain ⟨above, j, there, earlier, bound⟩ := follows.reached k (by omega)
  have here : k < targets.size := by omega
  rw [Array.getElem_zipWith, real_peak]
  refine ⟨le_max_of_le_left above, ?_⟩
  rcases le_total reduction[k] targets[k] with less | more
  · exact ⟨k, here, k.lt_succ_self, max_le less le_rfl⟩
  · exact ⟨j, there, earlier, max_le bound (more.trans bound)⟩

end smoothing

/-- What a reduction for some targets makes of a signal: every channel is multiplied by the gains
of the frames, of which there is one for each, and no frame gets louder. The last reduction is one
of those of which the largest is told. -/
structure Attenuates (channels : List (Array ℝ)) (frames block : ℕ) (targets reduction : Array ℝ) (r : Reduced ℝ) :
    Prop where
  follows : Follows targets reduction
  count : (frameGains reduction block frames).size = frames
  gain : ∀ i < frames, ∃ there : i / block < reduction.size,
    (frameGains reduction block frames).getD i 0 = (10 : ℝ) ^ (-reduction[i / block] / 20)
  channels : List.Forall₂ (fun input output : Array ℝ =>
    output = Array.zipWith (· * ·) input (frameGains reduction block frames) ∧
      ∀ i < frames, |output.getD i 0| ≤ |input.getD i 0|) channels r.channels
  last : 0 ≤ r.last ∧ r.last ≤ r.largest

section reduction

variable {channels : List (Array ℝ)} {frames block : ℕ} {targets reduction : Array ℝ}

theorem gainOf_mem {db : ℝ} (down : 0 ≤ db) : gainOf db ∈ Set.Ioc 0 1 := by
  rw [gainOf_eq]
  exact ⟨by positivity, Real.rpow_le_one_of_one_le_of_nonpos (by norm_num) (by linarith)⟩

theorem reduced_attenuates (filled : 0 < frames) (framed : ∀ c ∈ channels, c.size = frames) (grouped : 0 < block)
    (blocks : targets.size = (frames + block - 1) / block) (follows : Follows targets reduction) :
    Attenuates channels frames block targets reduction (reduced channels reduction block) := by
  have enough : reduction.size = (frames + block - 1) / block := follows.size.trans blocks
  have there {i : ℕ} (inside : i < frames) : i / block < reduction.size := enough ▸ block_lt grouped inside
  refine ⟨follows, size_frameGains grouped enough, fun i inside => ⟨there inside, ?_⟩, ?_, ?_⟩
  · rw [getD_frameGains grouped (by rwa [size_frameGains grouped enough]) (there inside), gainOf_eq]
  · rw [reduced_channels, List.forall₂_map_right_iff, List.forall₂_same]
    intro c member
    refine ⟨gained_eq (framed c member) grouped enough, fun i inside => ?_⟩
    obtain ⟨positive, most⟩ := gainOf_mem (follows.reached _ (there inside)).1
    rw [getD_gained (by rwa [framed c member]) (there inside), abs_mul, abs_of_pos positive]
    exact mul_le_of_le_one_right (abs_nonneg _) most
  · have some : 0 < reduction.size := (Nat.zero_le _).trans_lt (there filled)
    have final : (reduced channels reduction block).last = reduction[reduction.size - 1] := by
      simp [reduced, Array.back?, some]
    rw [final]
    refine ⟨(follows.reached _ _).1, ?_⟩
    have peak := (foldl_peak_le_iff (f := fun x : ℝ => x)).mp (le_refl (reduction.toList.foldl Scalar.peak 0))
    have largest : (reduced channels reduction block).largest = reduction.toList.foldl Scalar.peak 0 := by
      rw [Array.foldl_toList]
      simp only [reduced, real_natural, Nat.cast_zero]
    rw [largest]
    exact peak.2 _ (Array.getElem_mem_toList _)

theorem excess_nonneg (threshold : ℝ) : ∀ t ∈ excess channels frames block threshold, 0 ≤ t := by
  intro t member
  obtain ⟨level, -, rfl⟩ := Array.mem_map.mp member
  rw [real_max, real_natural, Nat.cast_zero]
  exact le_max_right _ _

theorem overshoot_nonneg (threshold : ℝ) {ratio : ℝ} (turns : 1 < ratio) :
    ∀ t ∈ overshoot channels frames block threshold ratio, 0 ≤ t := by
  intro t member
  obtain ⟨beyond, listed, rfl⟩ := Array.mem_map.mp member
  refine mul_nonneg (excess_nonneg threshold beyond listed) ?_
  simp only [real_natural, Nat.cast_one]
  have : 1 / ratio ≤ 1 := (div_le_one (zero_lt_one.trans turns)).mpr turns.le
  linarith

theorem size_excess (threshold : ℝ) : (excess channels frames block threshold).size = (frames + block - 1) / block := by
  rw [excess, Array.size_map, size_blockLevels]

theorem size_overshoot (threshold ratio : ℝ) :
    (overshoot channels frames block threshold ratio).size = (frames + block - 1) / block := by
  rw [overshoot, Array.size_map, size_excess]

theorem compress_eq (filled : 0 < frames) {rate : ℤ} (sampled : rate ≠ 0) (grouped : 0 < block)
    (threshold attack release : ℝ) {ratio : ℝ} (turns : 1 < ratio) :
    compress channels frames threshold ratio attack release rate block =
      .ok (reduced channels (smooth (overshoot channels frames block threshold ratio)
        (keep ((block : ℝ) / rate) attack) (keep ((block : ℝ) / rate) release)) block) := by
  have some : (frames == 0 || decide (ratio ≤ @OfNat.ofNat ℝ 1 (Scalar.instOfNat 1))) = false := by
    rw [real_natural, Nat.cast_one]
    simpa [filled.ne'] using turns
  have timed : blockSeconds block rate = .ok ((block : ℝ) / rate) := by
    simp [blockSeconds, grouped.ne', sampled]
    rfl
  simp only [compress, some, timed, Bool.false_eq_true, if_false, overshoot, excess, Array.map_map]
  rfl

variable {rise fall ratio : ℝ}

theorem compressed_attenuates (filled : 0 < frames) (framed : ∀ c ∈ channels, c.size = frames) (grouped : 0 < block)
    (threshold : ℝ) (turns : 1 < ratio) (rises : rise ∈ Set.Ico 0 1) (falls : fall ∈ Set.Ico 0 1) :
    let targets := overshoot channels frames block threshold ratio
    Attenuates channels frames block targets (smooth targets rise fall)
      (reduced channels (smooth targets rise fall) block) :=
  reduced_attenuates filled framed grouped (size_overshoot threshold ratio)
    (smooth_follows (overshoot_nonneg threshold turns) rises falls)

/-- The limiter rises at once. -/
theorem limited_attenuates (filled : 0 < frames) (framed : ∀ c ∈ channels, c.size = frames) (grouped : 0 < block)
    (threshold : ℝ) (falls : fall ∈ Set.Ico 0 1) :
    let targets := excess channels frames block threshold
    Attenuates channels frames block targets (limiting channels frames block threshold fall)
      (reduced channels (limiting channels frames block threshold fall) block) := by
  have start : limiting channels frames block threshold fall = Array.zipWith Scalar.peak
      (smooth (excess channels frames block threshold) 0 fall) (excess channels frames block threshold) := by
    simp only [limiting, real_natural, Nat.cast_zero]
  refine reduced_attenuates filled framed grouped (size_excess threshold) ?_
  rw [start]
  exact (smooth_follows (excess_nonneg threshold) ⟨le_rfl, zero_lt_one⟩ falls).peak

/-- Smoothing stays within the targets so far, at whatever rates. Compressor and limiter therefore
turn every frame of a signal down by the reduction of its block, which is never below zero nor
beyond the largest target, and no frame gets louder. -/
theorem dynamics_never_amplify (asked : ∀ t ∈ targets, 0 ≤ t) (rises : rise ∈ Set.Ico 0 1) (falls : fall ∈ Set.Ico 0 1)
    (filled : 0 < frames) (framed : ∀ c ∈ channels, c.size = frames) (threshold attack release : ℝ)
    (turns : 1 < ratio) {rate : ℤ} (sampled : 1 ≤ rate) (grouped : 1 ≤ block) :
    let demand := overshoot channels frames block threshold ratio
    let beyond := excess channels frames block threshold
    let limiting := limiting channels frames block threshold
    let seconds : ℝ := block / rate
    Follows targets (smooth targets rise fall) ∧
      Attenuates channels frames block demand (smooth demand rise fall)
        (reduced channels (smooth demand rise fall) block) ∧
      Attenuates channels frames block beyond (limiting fall) (reduced channels (limiting fall) block) ∧
      (∃ r, compress channels frames threshold ratio attack release rate block = .ok r ∧
        Attenuates channels frames block demand (smooth demand (keep seconds attack) (keep seconds release)) r) ∧
      ∃ r, limit channels frames threshold release rate block = .ok r ∧
        Attenuates channels frames block beyond (limiting (keep seconds release)) r := by
  intro demand beyond limiting seconds
  have later : 0 < seconds := by
    have : (0 : ℝ) < rate := by exact_mod_cast (by omega : 0 < rate)
    positivity
  refine ⟨smooth_follows asked rises falls, compressed_attenuates filled framed grouped threshold turns rises falls,
    limited_attenuates filled framed grouped threshold falls, ?_, ?_⟩
  · exact ⟨_, compress_eq filled (by omega) grouped threshold attack release turns,
      compressed_attenuates filled framed grouped threshold turns (keep_mem later attack) (keep_mem later release)⟩
  · exact ⟨_, limit_eq filled (by omega) grouped threshold release,
      limited_attenuates filled framed grouped threshold (keep_mem later release)⟩

end reduction

omit [Venue] in
/-- Blocks of two frames, of which the last is cut short, with a compressor that lets go at once. -/
theorem dynamics_never_amplify_burst : letI := ideal
    (∀ t ∈ #[(3 : ℝ), 0, 1], 0 ≤ t) ∧ (1 / 2 : ℝ) ∈ Set.Ico 0 1 ∧ (3 / 4 : ℝ) ∈ Set.Ico 0 1 ∧
      (∀ c ∈ burst, c.size = 3) ∧ Follows #[(3 : ℝ), 0, 1] (smooth #[(3 : ℝ), 0, 1] (1 / 2) (3 / 4)) ∧
      (∃ r reduction, compress burst 3 (-6) 4 (1 / 100) 0 48000 2 = .ok r ∧
        Attenuates burst 3 2 (overshoot burst 3 2 (-6) 4) reduction r) ∧
      ∃ r reduction, limit burst 3 (-6) 0 48000 2 = .ok r ∧
        Attenuates burst 3 2 (excess burst 3 2 (-6)) reduction r := by
  let venue := ideal
  have asked : ∀ t ∈ #[(3 : ℝ), 0, 1], 0 ≤ t := by simp
  have rises : (1 / 2 : ℝ) ∈ Set.Ico 0 1 := ⟨by norm_num, by norm_num⟩
  have falls : (3 / 4 : ℝ) ∈ Set.Ico 0 1 := ⟨by norm_num, by norm_num⟩
  have framed : ∀ c ∈ burst, c.size = 3 := by simp [burst]
  obtain ⟨smoothed, -, -, ⟨r, turned, quieter⟩, t, held, softer⟩ :=
    dynamics_never_amplify asked rises falls (by decide : 0 < 3) framed (-6) (1 / 100) 0
      (by norm_num : (1 : ℝ) < 4) (by decide : (1 : ℤ) ≤ 48000) (by decide : 1 ≤ 2)
  exact ⟨asked, rises, falls, framed, smoothed, ⟨r, _, turned, quieter⟩, t, _, held, softer⟩

end Partita.Signal
