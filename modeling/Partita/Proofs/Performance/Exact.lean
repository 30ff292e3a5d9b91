import Mathlib.Data.Rat.Floor
import Partita.Signal.Acoustic

/-! Rational numbers as the number type of a performance, so that its timing is
exact and examples can be evaluated. -/
namespace Partita

namespace Exact

/-- Functions that leave the rational numbers are cut off at their first term. -/
instance : Scalar ℚ where
  decLt := inferInstance
  decLe := inferInstance
  ofInt n := n
  ofNat n := n
  ofRatio num den := num / den
  ofDecimal mantissa exponent := mantissa * (10 : ℚ) ^ exponent
  truncate x := .ok (if x < 0 then -⌊-x⌋ else ⌊x⌋)
  isFinite _ := true
  negInf := -1000
  floor x := ⌊x⌋
  roundPlaces places x := ⌊x * 10 ^ places + 1 / 2⌋ / 10 ^ places
  toSingle x := x
  sqrt x := (1 + x) / 2
  exp x := 1 + x
  log10 x := x - 1
  sin x := x
  cos _ := 1
  tan x := x
  tanh x := x
  pow x y := 1 + y * (x - 1)
  pi := 22 / 7
  text x := toString x
  fixed _ x := toString x

/-- Noise is left out. -/
instance : Acoustic ℚ where
  noise count := Array.replicate count 0
  convolve signal response count := Array.ofFn fun n : Fin count =>
    ((List.range (n + 1)).map fun k => signal.getD k 0 * response.getD (n - k) 0).sum

end Exact

namespace Scalar

theorem max_eq (a b : ℚ) : Scalar.max a b = Max.max a b := by
  unfold Scalar.max
  split
  · exact (max_eq_right_of_lt ‹_›).symm
  · exact (max_eq_left (not_lt.mp ‹_›)).symm

theorem min_eq (a b : ℚ) : Scalar.min a b = Min.min a b := by
  unfold Scalar.min
  split
  · exact (min_eq_right_of_lt ‹_›).symm
  · exact (min_eq_left (not_lt.mp ‹_›)).symm

theorem maximum_le_iff {a b : ℚ} {xs : List ℚ} : maximum a xs ≤ b ↔ a ≤ b ∧ ∀ x ∈ xs, x ≤ b := by
  induction xs generalizing a with
  | nil => simp [maximum]
  | cons x rest ih =>
    have step : maximum a (x :: rest) = maximum (Scalar.max a x) rest := rfl
    rw [step, ih, max_eq, max_le_iff]
    simp [and_assoc]

end Scalar

end Partita
