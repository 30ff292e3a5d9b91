import Mathlib.Tactic.FieldSimp
import Mathlib.Tactic.Linarith
import Partita.Proofs.Performance.Exact
import Partita.Signal.Filter

/-! The bands that filters are designed for. A low or high pass always gets a cutoff inside
the open unit interval. The edges of a band pass are a step apart before they are rounded to
whole steps, but two numbers that lie half-way between steps can be rounded to the step
between them; exactly then the band is empty and cannot be designed. -/
namespace Partita

namespace Signal

deriving instance DecidableEq for Band

variable {α : Type} [Scalar α]

def Band.Legal : Band α → Prop
  | .low w | .high w => (0 : α) < w ∧ w < 1
  | .band least most => (0 : α) < least ∧ least < most ∧ most < 1

theorem design_of_legal {band : Band α} (legal : band.Legal) : ∃ r, design band = .ok r := by
  cases band <;> exact ⟨_, if_pos legal⟩

theorem design_of_illegal {band : Band α} (illegal : ¬ band.Legal) : design band = .error .filterBand := by
  cases band <;> exact if_neg illegal

section apply

variable (channels : List (Array α)) {kind : String} {k : FilterKind} {frequency q : α} {rate : Int}

theorem applyFilter_open (accepted : FilterKind.ofName? kind = some k)
    (passes : bandOf k frequency q rate = .ok none) : applyFilter channels kind frequency q rate = .ok channels := by
  unfold applyFilter
  rw [accepted]
  simp only [passes]
  rfl

theorem applyFilter_legal (accepted : FilterKind.ofName? kind = some k) {band : Band α}
    (asked : bandOf k frequency q rate = .ok (some band)) (legal : band.Legal) :
    ∃ r, design band = .ok r ∧ applyFilter channels kind frequency q rate = .ok (channels.map r.apply) := by
  obtain ⟨r, designed⟩ := design_of_legal legal
  refine ⟨r, designed, ?_⟩
  unfold applyFilter
  rw [accepted]
  simp only [asked, designed, bind, Except.bind]
  rfl

theorem applyFilter_illegal (accepted : FilterKind.ofName? kind = some k) {band : Band α}
    (asked : bandOf k frequency q rate = .ok (some band)) (illegal : ¬ band.Legal) :
    applyFilter channels kind frequency q rate = .error .filterBand := by
  unfold applyFilter
  rw [accepted]
  simp only [asked, design_of_illegal illegal, bind, Except.bind]

end apply

end Signal

namespace Exact

/-- The integer that is rounded down to, found from the one that is cut off to. -/
theorem floor_of_truncated (x : ℚ) : (if x < ((if x < 0 then -⌊-x⌋ else ⌊x⌋ : ℤ) : ℚ)
    then (if x < 0 then -⌊-x⌋ else ⌊x⌋) - 1 else if x < 0 then -⌊-x⌋ else ⌊x⌋) = ⌊x⌋ := by
  by_cases negative : x < 0
  · simp only [negative, if_true, Int.floor_neg, neg_neg]
    have above := Int.le_ceil x
    have near := Int.ceil_lt_add_one x
    split
    · refine (Int.floor_eq_iff.mpr ⟨?_, ?_⟩).symm <;> push_cast <;> linarith
    · refine (Int.floor_eq_iff.mpr ⟨?_, ?_⟩).symm <;> linarith
  · simp only [negative, if_false, not_lt.mpr (Int.floor_le x)]

/-- An integer is closest to a number, and even if there is another one as close. -/
structure IsNearest (x : ℚ) (n : ℤ) : Prop where
  low : x - 1 / 2 ≤ n
  high : (n : ℚ) ≤ x + 1 / 2
  even : x - 1 / 2 = n ∨ n = x + 1 / 2 → Even n

theorem toNearest_isNearest (x : ℚ) : ∃ n, Scalar.toNearest x = .ok n ∧ IsNearest x n := by
  have half : (Scalar.ofDecimal 5 (-1) : ℚ) = 1 / 2 := by
    change (5 : ℚ) * 10 ^ (-1 : ℤ) = 1 / 2
    norm_num
  have rounded : Scalar.toNearest x = .ok (if x - ⌊x⌋ < 1 / 2 then ⌊x⌋ else if 1 / 2 < x - ⌊x⌋ then ⌊x⌋ + 1
      else if ⌊x⌋ % 2 == 0 then ⌊x⌋ else ⌊x⌋ + 1) := by
    rw [← half, ← floor_of_truncated x]
    rfl
  have low := Int.floor_le x
  have high := Int.lt_floor_add_one x
  refine ⟨_, rounded, ?_⟩
  split_ifs with below above parity
  · refine ⟨by linarith, by linarith, ?_⟩
    rintro (tie | tie) <;> linarith
  · refine ⟨by push_cast; linarith, by push_cast; linarith, ?_⟩
    push_cast
    rintro (tie | tie) <;> linarith
  · exact ⟨by linarith, by linarith, fun _ => Int.even_iff.mpr (by simpa using parity)⟩
  · refine ⟨by push_cast; linarith, by push_cast; linarith, fun _ => Int.even_iff.mpr ?_⟩
    have : ⌊x⌋ % 2 ≠ 0 := by simpa using parity
    omega

/-- Numbers that are a unit apart are never rounded to the wrong order, and to the same
integer only if both lie half-way between it and its neighbours. -/
theorem IsNearest.apart {x y : ℚ} {m n : ℤ} (first : IsNearest x m) (second : IsNearest y n) (gap : x + 1 ≤ y) :
    m ≤ n ∧ (m = n ↔ ∃ k : ℤ, Even k ∧ x = k - 1 / 2 ∧ y = k + 1 / 2) := by
  have := first.high
  have := second.low
  refine ⟨by have : (m : ℚ) ≤ n := by linarith
             exact_mod_cast this, ?_, ?_⟩
  · rintro rfl
    exact ⟨m, first.even (.inr (by linarith)), by linarith, by linarith⟩
  · rintro ⟨k, even, rfl, rfl⟩
    -- an odd neighbour is no closer than the even integer between
    have low : k - 1 ≤ m := by
      have := first.low
      have : (k : ℚ) - 1 ≤ m := by linarith
      exact_mod_cast this
    have high : n ≤ k + 1 := by
      have := second.high
      have : (n : ℚ) ≤ k + 1 := by linarith
      exact_mod_cast this
    have below : m = k - 1 → Even m := fun tie => first.even (.inl (by rw [tie]; push_cast; ring))
    have above : n = k + 1 → Even n := fun tie => second.even (.inr (by rw [tie]; push_cast; ring))
    have upper : m ≤ k := by
      have : (m : ℚ) ≤ k := by linarith
      exact_mod_cast this
    have lower : k ≤ n := by
      have : (k : ℚ) ≤ n := by linarith
      exact_mod_cast this
    rw [Int.even_iff] at even below above
    omega

theorem decimal (m e : ℕ) : (@OfScientific.ofScientific ℚ Scalar.instOfScientific m true e) = m / 10 ^ e := by
  change (m : ℚ) * 10 ^ (-(e : ℤ)) = _
  rw [zpow_neg, zpow_natCast, div_eq_mul_inv]

end Exact

namespace Signal

open Exact

/-- The cutoff of a filter in fractions of half the sample rate, held inside the open unit
interval. -/
def cutoff (frequency : ℚ) (rate : ℤ) : ℚ := min (max (frequency / (rate / 2)) (1 / 1000)) (99 / 100)

/-- The edges of the band around a cutoff, at least a step apart. -/
def lowEdge (c q : ℚ) : ℚ := min (max (c - c / max q (1 / 10) / 2) (1 / 1000)) (98 / 100)

def highEdge (c q : ℚ) : ℚ := min (max (c + c / max q (1 / 10) / 2) (lowEdge c q + 1 / 1000)) (99 / 100)

theorem quantize_isNearest (x : ℚ) : ∃ n : ℤ, quantize x = .ok (n / 1000 : ℚ) ∧ IsNearest (x * 1000) n := by
  obtain ⟨n, rounded, nearest⟩ := toNearest_isNearest (x * 1000)
  refine ⟨n, ?_, nearest⟩
  have scaled : x / ((1 : ℕ) / 10 ^ 3) = x * 1000 := by push_cast; ring
  have step : (n : ℚ) * ((1 : ℕ) / 10 ^ 3) = n / 1000 := by push_cast; ring
  unfold quantize
  simp only [Exact.decimal, scaled, rounded]
  exact congrArg Except.ok step

theorem bandOf_eq {rate : ℤ} (positive : 0 < rate) (k : FilterKind) (frequency q : ℚ) :
    bandOf k frequency q rate = (do
      let c := cutoff frequency rate
      match k with
      | .low => if 99 / 100 ≤ c then return none else return some (.low (← quantize c))
      | .high => return some (.high (← quantize c))
      | .band => return some (.band (← quantize (lowEdge c q)) (← quantize (highEdge c q)))) := by
  have divided : Score.quotient frequency (Scalar.ofInt rate / 2 : ℚ) = .ok (frequency / (rate / 2)) := by
    have : (rate : ℚ) / 2 ≠ 0 := by positivity
    exact if_neg fun zero => this (eq_of_beq zero)
  have least : ((1 : ℕ) / 10 ^ 3 : ℚ) = 1 / 1000 := by norm_num
  have most : ((99 : ℕ) / 10 ^ 2 : ℚ) = 99 / 100 := by norm_num
  have below : ((98 : ℕ) / 10 ^ 2 : ℚ) = 98 / 100 := by norm_num
  have narrow : ((1 : ℕ) / 10 ^ 1 : ℚ) = 1 / 10 := by norm_num
  unfold bandOf
  rw [divided]
  simp only [Scalar.min_eq, Scalar.max_eq, Exact.decimal, least, most, below, narrow]
  rfl

theorem cutoff_mem (frequency : ℚ) (rate : ℤ) : 1 / 1000 ≤ cutoff frequency rate ∧ cutoff frequency rate ≤ 99 / 100 :=
  ⟨le_min (le_max_right _ _) (by norm_num), min_le_right _ _⟩

/-- The edges lie in order inside the unit interval, a step apart or more. -/
theorem edges_apart {c : ℚ} (q : ℚ) :
    1 / 1000 ≤ lowEdge c q ∧ lowEdge c q + 1 / 1000 ≤ highEdge c q ∧ highEdge c q ≤ 99 / 100 := by
  have most : lowEdge c q ≤ 98 / 100 := min_le_right _ _
  exact ⟨le_min (le_max_right _ _) (by norm_num), le_min (le_max_right _ _) (by linarith), min_le_right _ _⟩

/-- A cutoff so low and a filter so narrow that the band is a single step, with its edges
half-way between an odd step and the even ones around it. -/
def Collapses (frequency q : ℚ) (rate : ℤ) : Prop :=
  let w := frequency / (rate / 2)
  0 < w ∧ w ≤ q / 1000 ∧ ∃ n : ℤ, Even n ∧ 2 ≤ n ∧ n ≤ 980 ∧ w - w / q / 2 = (n - 1 / 2) / 1000

theorem eq_of_clamped {x low high : ℚ} (above : low < min (max x low) high) (below : min (max x low) high < high) :
    min (max x low) high = x := by
  have free := min_eq_left_of_lt (lt_of_not_ge fun most => below.ne (min_eq_right most))
  rw [free] at above ⊢
  exact max_eq_left_of_lt (lt_of_not_ge fun least => above.ne (max_eq_right least).symm)

/-- A collapsing band reaches none of the clamps. -/
theorem Collapses.edges {frequency q : ℚ} {rate : ℤ} (collapses : Collapses frequency q rate) : ∃ n : ℤ, Even n ∧
    lowEdge (cutoff frequency rate) q * 1000 = n - 1 / 2 ∧ highEdge (cutoff frequency rate) q * 1000 = n + 1 / 2 := by
  obtain ⟨positive, narrow, n, even, least, most, low⟩ := collapses
  set w := frequency / (rate / 2) with whole
  have least : (2 : ℚ) ≤ n := by exact_mod_cast least
  have most : (n : ℚ) ≤ 980 := by exact_mod_cast most
  have quality : 0 < q := by linarith
  have half : 0 < w / q / 2 := by positivity
  have step : w / q ≤ 1 / 1000 := by rw [div_le_iff₀ quality]; linarith
  have wide : max q (1 / 10) = q := max_eq_left (by linarith)
  have centre : cutoff frequency rate = w := by
    rw [cutoff, ← whole, max_eq_left (by linarith), min_eq_left (by linarith)]
  have lower : lowEdge w q = w - w / q / 2 := by
    rw [lowEdge, wide, max_eq_left (by linarith), min_eq_left (by linarith)]
  have upper : highEdge w q = w - w / q / 2 + 1 / 1000 := by
    rw [highEdge, lower, wide, max_eq_right (by linarith), min_eq_left (by linarith)]
  refine ⟨n, even, ?_, ?_⟩
  · rw [centre, lower, low]; ring
  · rw [centre, upper, low]; ring

theorem collapses_of_edges {frequency q : ℚ} {rate n : ℤ} (even : Even n)
    (low : lowEdge (cutoff frequency rate) q * 1000 = n - 1 / 2)
    (high : highEdge (cutoff frequency rate) q * 1000 = n + 1 / 2) : Collapses frequency q rate := by
  obtain ⟨floor, -, -⟩ := edges_apart (c := cutoff frequency rate) q
  have ceiling : lowEdge (cutoff frequency rate) q ≤ 98 / 100 := min_le_right _ _
  have least : 2 ≤ n := by
    have : (1 : ℚ) < n := by linarith
    exact_mod_cast this
  have most : n ≤ 980 := by
    have : (n : ℚ) < 981 := by linarith
    have : n < 981 := by exact_mod_cast this
    omega
  have least' : (2 : ℚ) ≤ n := by exact_mod_cast least
  have most' : (n : ℚ) ≤ 980 := by exact_mod_cast most
  -- every clamp would put an edge on a whole step
  set c := cutoff frequency rate with centre
  have lower : lowEdge c q = c - c / max q (1 / 10) / 2 :=
    eq_of_clamped (by rw [← lowEdge]; linarith) (by rw [← lowEdge]; linarith)
  have upper : c + c / max q (1 / 10) / 2 ≤ lowEdge c q + 1 / 1000 := by
    have free : highEdge c q = max (c + c / max q (1 / 10) / 2) (lowEdge c q + 1 / 1000) :=
      (min_choice _ _).resolve_right fun clamped => by
        have : highEdge c q = 99 / 100 := clamped
        linarith
    have := le_max_left (c + c / max q (1 / 10) / 2) (lowEdge c q + 1 / 1000)
    linarith
  have wide : 0 < max q (1 / 10) := lt_max_of_lt_right (by norm_num)
  have step : c / max q (1 / 10) ≤ 1 / 1000 := by linarith
  have part : 0 ≤ c / max q (1 / 10) := div_nonneg (by linarith [cutoff_mem frequency rate]) wide.le
  have narrow : c ≤ max q (1 / 10) / 1000 := by
    rw [div_le_iff₀ wide] at step
    linarith
  have quality : max q (1 / 10) = q :=
    (max_choice _ _).resolve_right fun clamped => by rw [clamped] at narrow; linarith
  have whole : c = frequency / (rate / 2) :=
    eq_of_clamped (by rw [← cutoff, ← centre]; linarith) (by rw [← cutoff, ← centre]; linarith)
  have positive : 0 < c := by linarith
  rw [quality] at narrow lower
  unfold Collapses
  rw [← whole]
  exact ⟨positive, narrow, n, even, least, most, by rw [← lower]; linarith⟩

theorem quantize_inside {x : ℚ} (least : 1 / 1000 ≤ x) (most : x ≤ 99 / 100) :
    ∃ w, quantize x = .ok w ∧ 0 < w ∧ w < 1 := by
  obtain ⟨n, rounded, nearest⟩ := quantize_isNearest x
  have := nearest.low
  have := nearest.high
  exact ⟨_, rounded, by linarith, by linarith⟩

/-- The two edges of a band as they are rounded. -/
theorem quantized_edges {frequency q : ℚ} {rate : ℤ} : ∃ least most,
    quantize (lowEdge (cutoff frequency rate) q) = .ok least ∧
      quantize (highEdge (cutoff frequency rate) q) = .ok most ∧
      0 < least ∧ least ≤ most ∧ most < 1 ∧ (least = most ↔ Collapses frequency q rate) := by
  obtain ⟨floor, apart, ceiling⟩ := edges_apart (c := cutoff frequency rate) q
  obtain ⟨m, low, below⟩ := quantize_isNearest (lowEdge (cutoff frequency rate) q)
  obtain ⟨n, high, above⟩ := quantize_isNearest (highEdge (cutoff frequency rate) q)
  obtain ⟨ordered, tied⟩ := below.apart above (by linarith)
  refine ⟨_, _, low, high, ?_, ?_, ?_, ?_⟩
  · linarith [below.low]
  · have : (m : ℚ) ≤ n := by exact_mod_cast ordered
    linarith
  · linarith [above.high]
  · rw [div_left_inj' (by norm_num), Int.cast_inj, tied]
    constructor
    · rintro ⟨k, even, low, high⟩
      exact collapses_of_edges even low high
    · exact Collapses.edges

/-- Every filter is designed for a band inside the open unit interval, unless its band
collapses to a single number; then, and never else, applying the filter fails. -/
theorem filter_fails_iff_collapses {rate : ℤ} (fast : 8000 ≤ rate) {kind : String} {k : FilterKind}
    (accepted : FilterKind.ofName? kind = some k) (frequency q : ℚ) (channels : List (Array ℚ)) :
    (match k with
      | .low => bandOf k frequency q rate = .ok none ∨
          ∃ w, bandOf k frequency q rate = .ok (some (.low w)) ∧ 0 < w ∧ w < 1
      | .high => ∃ w, bandOf k frequency q rate = .ok (some (.high w)) ∧ 0 < w ∧ w < 1
      | .band => ∃ least most, bandOf k frequency q rate = .ok (some (.band least most)) ∧
          0 < least ∧ least ≤ most ∧ most < 1 ∧ (least = most ↔ Collapses frequency q rate)) ∧
      (applyFilter channels kind frequency q rate = .error .filterBand ↔ k = .band ∧ Collapses frequency q rate) ∧
      (¬ (k = .band ∧ Collapses frequency q rate) → ∃ out, applyFilter channels kind frequency q rate = .ok out) := by
  have banded := bandOf_eq (by omega : 0 < rate) k frequency q
  obtain ⟨inside, within⟩ := cutoff_mem frequency rate
  obtain ⟨w, rounded, positive, below⟩ := quantize_inside inside within
  cases k with
  | low =>
    by_cases passes : 99 / 100 ≤ cutoff frequency rate
    · simp only [passes, if_true] at banded
      have applied := applyFilter_open channels accepted banded
      exact ⟨.inl banded, by simp [applied], fun _ => ⟨_, applied⟩⟩
    · simp only [passes, if_false, rounded] at banded
      obtain ⟨r, -, applied⟩ := applyFilter_legal channels accepted banded ⟨positive, below⟩
      exact ⟨.inr ⟨w, banded, positive, below⟩, by simp [applied], fun _ => ⟨_, applied⟩⟩
  | high =>
    simp only [rounded] at banded
    obtain ⟨r, -, applied⟩ := applyFilter_legal channels accepted banded ⟨positive, below⟩
    exact ⟨⟨w, banded, positive, below⟩, by simp [applied], fun _ => ⟨_, applied⟩⟩
  | band =>
    obtain ⟨least, most, low, high, above, ordered, inner, collapsed⟩ :=
      @quantized_edges frequency q rate
    simp only [low, high] at banded
    refine ⟨⟨least, most, banded, above, ordered, inner, collapsed⟩, ?_⟩
    by_cases collapses : Collapses frequency q rate
    · have failed := applyFilter_illegal channels accepted banded
        fun legal => legal.2.1.ne (collapsed.mpr collapses)
      exact ⟨by simp [failed, collapses], fun spared => absurd ⟨rfl, collapses⟩ spared⟩
    · have strict : least < most := lt_of_le_of_ne ordered fun tie => collapses (collapsed.mp tie)
      obtain ⟨r, -, applied⟩ := applyFilter_legal channels accepted banded ⟨above, strict, inner⟩
      exact ⟨by simp [applied, collapses], fun _ => ⟨_, applied⟩⟩

/-- A band of a single step at 48 Hz is found empty, at 49 Hz it is not. -/
theorem filter_fails_iff_collapses_octave : (8000 : ℤ) ≤ 48000 ∧ FilterKind.ofName? "BandPass" = some .band ∧
    Collapses 48 2 48000 ∧ ¬ Collapses 49 2 48000 ∧
    applyFilter [#[(1 : ℚ)]] "BandPass" 48 2 48000 = .error .filterBand ∧
    ∃ out, applyFilter [#[(1 : ℚ)]] "BandPass" 49 2 48000 = .ok out := by
  have accepted : FilterKind.ofName? "BandPass" = some .band := by decide +kernel
  have collapses : Collapses 48 2 48000 := by
    refine ⟨by norm_num, by norm_num, 2, ?_⟩
    norm_num
  have spared : ¬ Collapses 49 2 48000 := by
    rintro ⟨-, narrow, -⟩
    norm_num at narrow
  refine ⟨by decide, accepted, collapses, spared, ?_, ?_⟩
  · exact (filter_fails_iff_collapses (by decide) accepted 48 2 [#[1]]).2.1.mpr ⟨rfl, collapses⟩
  · exact (filter_fails_iff_collapses (by decide) accepted 49 2 [#[1]]).2.2 fun both => spared both.2

/-- Two steps above zero, both edges of a band of one step are rounded to its middle. -/
theorem narrow_band_collapses : bandOf .band (48 : ℚ) 2 48000 = .ok (some (.band (1 / 500) (1 / 500))) ∧
    applyFilter [#[(0 : ℚ)]] "bandpass" 48 2 48000 = .error .filterBand := by
  decide +kernel

end Signal

end Partita
