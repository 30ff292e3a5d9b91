import Mathlib.Analysis.Convex.Basic
import Partita.Proofs.Signal.Release
import Partita.Proofs.Whole.Note

/-! An envelope over the whole of its signal. However long its parts are asked to be, and also
where the decay would last less than no time, the segments together are never shorter than the
signal: nothing is continued with silence, and only an end is cut off. Each segment stays
between the levels it leads from and to, so that no sample gets louder. -/
namespace Partita

theorem Signal.Segments.atLeastOne_eq (n : ℤ) : (atLeastOne n : ℤ) = max 1 n :=
  Int.toNat_of_nonneg (zero_le_one.trans (le_max_left 1 n))

namespace Whole

variable {α : Type} [Scalar α]

theorem size_segments (s : Signal.Segments) (sustain : α) (total : ℕ) : (segments s sustain total).size =
    Signal.Segments.atLeastOne s.attack + Signal.Segments.atLeastOne s.decay +
      Signal.Segments.atLeastOne (s.sustain total) + Signal.Segments.atLeastOne s.release := by
  simp only [segments, Array.size_append, size_ramp, Array.size_replicate]

/-- The sustain is what the other segments leave, and a segment that is lengthened to one sample
only adds to it. -/
theorem le_size_segments (s : Signal.Segments) (sustain : α) (total : ℕ) :
    total ≤ (segments s sustain total).size := by
  have left : (total : ℤ) - s.attack - s.decay - s.release ≤ s.sustain total := le_max_right _ _
  have least (n : ℤ) : n ≤ Signal.Segments.atLeastOne n := by
    rw [Signal.Segments.atLeastOne_eq]
    exact le_max_right 1 n
  have attack := least s.attack
  have decay := least s.decay
  have hold := least (s.sustain total)
  have release := least s.release
  rw [size_segments]
  omega

end Whole

namespace Signal

section

variable {α : Type} [Scalar α]

/-- Where the segments reach to the end of a signal, it is given what they are cut to. -/
theorem mapIdx_level {signal : Array α} {s : Segments} {sustain : α}
    (covered : signal.size ≤ (Whole.segments s sustain signal.size).size) :
    signal.mapIdx (fun i x => x * s.level sustain signal.size i) =
      Array.zipWith (· * ·) signal ((Whole.segments s sustain signal.size).extract 0 signal.size) := by
  have cut : ((Whole.segments s sustain signal.size).extract 0 signal.size).size = signal.size := by
    rw [Array.size_extract]
    omega
  refine Array.ext (by rw [Array.size_mapIdx, Array.size_zipWith, cut, Nat.min_self]) fun i inside _ => ?_
  rw [Array.size_mapIdx] at inside
  have there : i < (Whole.segments s sustain signal.size).size := by omega
  rw [Array.getElem_mapIdx, Array.getElem_zipWith, Array.getElem_extract, ← Whole.getD_segments]
  simp only [Array.getD, Nat.zero_add, dif_pos there]
  rfl

end

variable [Exact.Venue]

open Exact

/-- A ramp stays between its ends. -/
theorem rampAt_mem {first last : ℝ} {levels : Set ℝ} (convex : Convex ℝ levels) (starts : first ∈ levels)
    (ends : last ∈ levels) {count i : ℕ} (inside : i < count) : rampAt first last count i ∈ levels := by
  by_cases several : 1 < count
  · have span : (0 : ℝ) < count - 1 := by
      rw [sub_pos]
      exact_mod_cast several
    have before : (i : ℝ) ≤ count - 1 := by
      rw [le_sub_iff_add_le]
      exact_mod_cast inside
    rw [real_ramp first last several, mul_comm]
    exact convex.add_smul_sub_mem starts ends ⟨by positivity, div_le_one_of_le₀ before span.le⟩
  · unfold rampAt
    rwa [if_pos (by omega)]

theorem ofEnvelope_ok (e : Envelope ℝ) (rate : ℤ) : ∃ s, Segments.ofEnvelope e rate = .ok s := ⟨_, rfl⟩

namespace Segments

/-- An envelope is nowhere below silence and nowhere above full level. -/
theorem level_mem (s : Segments) {sustain : ℝ} (held : sustain ∈ Set.Icc 0 1) (total i : ℕ) :
    s.level sustain total i ∈ Set.Icc 0 1 := by
  have silent : (0 : ℝ) ∈ Set.Icc (0 : ℝ) 1 := ⟨le_rfl, zero_le_one⟩
  have full : (1 : ℝ) ∈ Set.Icc (0 : ℝ) 1 := ⟨zero_le_one, le_rfl⟩
  have convex : Convex ℝ (Set.Icc (0 : ℝ) 1) := convex_Icc 0 1
  unfold level
  simp only [real_natural, Nat.cast_zero, Nat.cast_one]
  split_ifs with rising falling holding releasing
  · exact rampAt_mem convex silent full rising
  · exact rampAt_mem convex full held (by omega)
  · exact held
  · exact rampAt_mem convex held silent (by omega)
  · exact silent

/-- An envelope begins with silence. -/
theorem level_first (s : Segments) (sustain : ℝ) (total : ℕ) : s.level sustain total 0 = 0 := by
  have rising : 0 < atLeastOne s.attack := by
    have := atLeastOne_eq s.attack
    omega
  unfold level
  dsimp only
  rw [if_pos rising, real_natural, real_natural, Nat.cast_zero, Nat.cast_one]
  unfold rampAt
  split_ifs with single last
  · rfl
  · -- the attack would be a single sample, which is the first of its ramp
    rw [beq_iff_eq] at last
    omega
  · change ((0 : ℕ) : ℝ) * _ + 0 = 0
    rw [Nat.cast_zero, zero_mul, add_zero]

end Segments

/-- An envelope of any times covers its signal: its segments, one after the other, are cut and
never continued. The signal keeps its length, none of its samples gets louder, and the first one
is silent. -/
theorem envelope_covers (e : Envelope ℝ) (rate : ℤ) (signal : Array ℝ) :
    ∃ s out, Segments.ofEnvelope e rate = .ok s ∧ applyEnvelope signal e rate = .ok out ∧
      let segments := Whole.segments s (min (max e.sustain 0) 1) signal.size
      signal.size ≤ segments.size ∧ out = Array.zipWith (· * ·) signal (segments.extract 0 signal.size) ∧
      out.size = signal.size ∧ (∀ i < signal.size, |out.getD i 0| ≤ |signal.getD i 0|) ∧ out.getD 0 0 = 0 := by
  obtain ⟨s, timed⟩ := ofEnvelope_ok e rate
  have held : min (max e.sustain 0) 1 ∈ Set.Icc (0 : ℝ) 1 :=
    ⟨le_min (le_max_right _ _) zero_le_one, min_le_right _ _⟩
  have covered := Whole.le_size_segments s (min (max e.sustain 0) 1) signal.size
  refine ⟨s, _, timed, applyEnvelope_ok timed signal, covered, mapIdx_level covered, Array.size_mapIdx, ?_, ?_⟩
  · intro i inside
    obtain ⟨above, below⟩ := s.level_mem held signal.size i
    simp only [Array.getD, Array.size_mapIdx, inside, dif_pos, Array.getElem_mapIdx, Array.getInternal_eq_getElem]
    rw [abs_mul, abs_of_nonneg above]
    exact mul_le_of_le_one_right (abs_nonneg _) below
  · by_cases some : 0 < signal.size
    · simp [Array.getD, some, s.level_first]
    · simp [Array.getD, some]

end Signal

end Partita
