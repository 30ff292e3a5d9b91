import Mathlib.Analysis.SpecialFunctions.Log.Base
import Mathlib.Analysis.SpecialFunctions.Pow.Real
import Mathlib.Analysis.SpecialFunctions.Trigonometric.Basic
import Partita.Fault
import Partita.Signal.Acoustic
import Partita.Signal.Ramp

/-! Real numbers as the number type of a performance: all functions are exact, every number
has an integer part, and no signal overflows. What the real numbers do not settle is left
open, and nothing that is proved depends on it. -/
namespace Partita

namespace Exact

/-- What real numbers leave open. -/
class Venue where
  /-- The level that stands for silence, which no real number is. -/
  silence : ℝ
  text : ℝ → String
  fixed : ℕ → ℝ → String
  /-- Whether so many bytes can be addressed; in an ideal venue any number can. -/
  addressable : ℤ → Bool
  /-- The first numbers of the fixed sequence of random ones. -/
  noise : ℕ → Array ℝ
  /-- The whole convolution of a signal with a response. -/
  convolution : Array ℝ → Array ℝ → Array ℝ

/-- Real numbers are divided as in their field, also where another division is at hand. -/
noncomputable instance realDiv : Div ℝ := DivInvMonoid.toDiv

/-- Numerals stand for what they stand for in any ring, also where another reading is at hand. -/
noncomputable instance realNumeral (n : ℕ) : OfNat ℝ (n + 2) := instOfNatAtLeastTwo

noncomputable def nearestEven (x : ℝ) : ℤ :=
  if x - ⌊x⌋ < 1 / 2 then ⌊x⌋ else if 1 / 2 < x - ⌊x⌋ then ⌊x⌋ + 1 else if Even ⌊x⌋ then ⌊x⌋ else ⌊x⌋ + 1

noncomputable instance reals [Venue] : Scalar ℝ where
  decLt := inferInstance
  decLe := inferInstance
  ofInt n := n
  ofNat n := n
  ofRatio num den := num / den
  ofDecimal mantissa exponent := mantissa * (10 : ℝ) ^ exponent
  truncate x := .ok (if x < 0 then ⌈x⌉ else ⌊x⌋)
  isFinite _ := true
  addressable := Venue.addressable
  negInf := Venue.silence
  floor x := ⌊x⌋
  roundPlaces places x := nearestEven (x * 10 ^ places) / 10 ^ places
  toSingle x := x
  sqrt := Real.sqrt
  exp := Real.exp
  log10 := Real.logb 10
  sin := Real.sin
  cos := Real.cos
  tan := Real.tan
  tanh := Real.tanh
  pow x y := x ^ y
  pi := Real.pi
  text := Venue.text
  fixed := Venue.fixed

noncomputable instance acoustics [Venue] : Acoustic ℝ where
  noise := Venue.noise
  convolve signal response count := (Venue.convolution signal response).extract 0 count

/-- A venue in which any number of bytes can be addressed, and nothing is random. -/
@[reducible]
noncomputable def ideal : Venue where
  silence := -1000
  text _ := ""
  fixed _ _ := ""
  addressable _ := true
  noise count := Array.replicate count 0
  convolution signal response := Array.ofFn fun n : Fin (signal.size + response.size - 1) =>
    ∑ k ∈ Finset.range (n + 1), signal.getD k 0 * response.getD (n - k) 0

variable [Venue]

theorem real_integer (n : ℤ) : (Scalar.ofInt n : ℝ) = n := rfl

theorem real_natural (n : ℕ) : (@OfNat.ofNat ℝ n (Scalar.instOfNat n)) = n := Int.cast_natCast n

theorem real_decimal (m e : ℕ) : (@OfScientific.ofScientific ℝ Scalar.instOfScientific m true e) = m / 10 ^ e := by
  change (m : ℝ) * 10 ^ (-(e : ℤ)) = _
  rw [zpow_neg, zpow_natCast, div_eq_mul_inv]

theorem real_max (a b : ℝ) : Scalar.max a b = max a b := by
  unfold Scalar.max
  split
  · exact (max_eq_right_of_lt ‹_›).symm
  · exact (max_eq_left (not_lt.mp ‹_›)).symm

theorem real_min (a b : ℝ) : Scalar.min a b = min a b := by
  unfold Scalar.min
  split
  · exact (min_eq_right_of_lt ‹_›).symm
  · exact (min_eq_left (not_lt.mp ‹_›)).symm

theorem real_clamp (low high x : ℝ) : Scalar.clamp low high x = min (max x low) high := by
  rw [Scalar.clamp, real_min, real_max]

theorem real_beq (a b : ℝ) : (a == b) = true ↔ a = b := beq_iff_eq

/-- Every real number is a number, so that a peak is a maximum. -/
theorem real_peak (a b : ℝ) : Scalar.peak a b = max a b := by
  rw [← real_max, Scalar.peak, Scalar.max]
  simp

theorem real_abs (x : ℝ) : Scalar.abs x = |x| := by
  unfold Scalar.abs
  rw [real_natural, Nat.cast_zero]
  split
  · exact (abs_of_neg ‹_›).symm
  · exact (abs_of_nonneg (not_lt.mp ‹_›)).symm

theorem foldl_peak_le_iff {β : Type} {f : β → ℝ} {xs : List β} {a b : ℝ} :
    xs.foldl (fun top x => Scalar.peak top (f x)) a ≤ b ↔ a ≤ b ∧ ∀ x ∈ xs, f x ≤ b := by
  induction xs generalizing a with
  | nil => simp
  | cons x rest ih =>
    rw [List.foldl_cons, ih, real_peak, max_le_iff]
    simp [and_assoc]

theorem fold_peak_le_iff {f : ℕ → ℝ} {n : ℕ} {a b : ℝ} :
    n.fold (fun j _ top => Scalar.peak top (f j)) a ≤ b ↔ a ≤ b ∧ ∀ j < n, f j ≤ b := by
  induction n with
  | zero => simp
  | succ n ih => rw [Nat.fold_succ, real_peak, max_le_iff, ih, and_assoc, Nat.forall_lt_succ_right]

/-- The end of a ramp is where a step of its own length leads as well. -/
theorem real_ramp (first last : ℝ) {count : ℕ} (several : 1 < count) (i : ℕ) :
    Signal.rampAt first last count i = first + (last - first) * (i / (count - 1)) := by
  have steps : ((count - 1 : ℕ) : ℝ) = count - 1 := by push_cast [several.le]; rfl
  have span : (count : ℝ) - 1 ≠ 0 := by
    rw [← steps, Nat.cast_ne_zero]
    omega
  unfold Signal.rampAt
  rw [if_neg (by omega)]
  split
  · rename_i final
    have place : (i : ℝ) = count - 1 := by
      rw [← beq_iff_eq.mp final, Nat.cast_succ]
      ring
    rw [place, div_self span]
    ring
  · change (i : ℝ) * ((last - first) / ((count - 1 : ℕ) : ℝ)) + first = _
    rw [steps]
    ring

theorem toInt_eq (x : ℝ) : Scalar.toInt x = .ok (if x < 0 then ⌈x⌉ else ⌊x⌋) := rfl

theorem toInt_of_nonneg {x : ℝ} (above : 0 ≤ x) : Scalar.toInt x = .ok ⌊x⌋ :=
  congrArg Except.ok (if_neg (not_lt.mpr above))

theorem toInt_ok (x : ℝ) : ∃ n, Scalar.toInt x = .ok n := ⟨_, rfl⟩

theorem toNearest_ok (x : ℝ) : ∃ n, Scalar.toNearest x = .ok n := ⟨_, rfl⟩

theorem toNearest_natCast (n : ℕ) : Scalar.toNearest (n : ℝ) = .ok n := by
  have cut : Scalar.truncate (n : ℝ) = .ok (n : ℤ) := by
    refine congrArg Except.ok ?_
    rw [if_neg (by simp)]
    exact Int.floor_natCast n
  have same : (Scalar.ofInt (n : ℤ) : ℝ) = n := (real_integer n).trans (Int.cast_natCast n)
  simp only [Scalar.toNearest, Scalar.nearest, cut, bind, Except.bind, pure, Except.pure]
  rw [same, if_neg (lt_irrefl _), same, sub_self, if_pos]
  · rfl
  · change (0 : ℝ) < (5 : ℕ) * 10 ^ (-1 : ℤ)
    positivity

theorem toCeil_eq (x : ℝ) : Scalar.toCeil x = .ok ⌈x⌉ := by
  have cut : Scalar.toCeil x = .ok (if ((if x < 0 then ⌈x⌉ else ⌊x⌋ : ℤ) : ℝ) < x
      then (if x < 0 then ⌈x⌉ else ⌊x⌋) + 1 else if x < 0 then ⌈x⌉ else ⌊x⌋) := rfl
  rw [cut]
  refine congrArg Except.ok ?_
  by_cases below : x < 0
  · simp only [below, if_true, not_lt.mpr (Int.le_ceil x), if_false]
  · simp only [below, if_false]
    split
    · exact (Int.ceil_eq_iff.mpr ⟨by push_cast; linarith, by push_cast; exact (Int.lt_floor_add_one x).le⟩).symm
    · have whole : x = ⌊x⌋ := le_antisymm (not_lt.mp ‹_›) (Int.floor_le x)
      exact (Int.ceil_eq_iff.mpr ⟨by linarith, whole.le⟩).symm

end Exact

end Partita
