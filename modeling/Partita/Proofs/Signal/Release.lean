import Partita.Proofs.Reals
import Partita.Signal.Envelope

/-! The end of an envelope. Each segment has at least one sample, and what is too long is cut
off at the end. A decay or a sustain without samples therefore pushes the release back, which
then neither begins where it should nor gets to silence: the note ends in a click. -/
namespace Partita

namespace Signal

namespace Segments

section level

variable {α : Type} [Scalar α] {s : Segments} {total i : ℕ}

theorem level_decay (sustain : α) (after : atLeastOne s.attack ≤ i)
    (before : i < atLeastOne s.attack + atLeastOne s.decay) :
    s.level sustain total i = rampAt 1 sustain (atLeastOne s.decay) (i - atLeastOne s.attack) := by
  unfold level
  rw [if_neg (by omega), if_pos before]

theorem level_sustain (sustain : α) (after : atLeastOne s.attack + atLeastOne s.decay ≤ i)
    (before : i < atLeastOne s.attack + atLeastOne s.decay + atLeastOne (s.sustain total)) :
    s.level sustain total i = sustain := by
  unfold level
  dsimp only
  rw [if_neg (by omega), if_neg (by omega), if_pos before]

theorem level_release (sustain : α)
    (after : atLeastOne s.attack + atLeastOne s.decay + atLeastOne (s.sustain total) ≤ i)
    (before : i < atLeastOne s.attack + atLeastOne s.decay + atLeastOne (s.sustain total) + atLeastOne s.release) :
    s.level sustain total i = rampAt sustain 0 (atLeastOne s.release)
      (i - (atLeastOne s.attack + atLeastOne s.decay + atLeastOne (s.sustain total))) := by
  unfold level
  dsimp only
  rw [if_neg (by omega), if_neg (by omega), if_neg (by omega), if_pos before]

/-- The samples that are forced onto empty segments between the attack and the release. -/
def forced (s : Segments) (total : ℕ) : ℕ := (if s.decay = 0 then 1 else 0) + if s.sustain total = 0 then 1 else 0

theorem atLeastOne_cases {n : ℤ} (above : 0 ≤ n) :
    n = 0 ∧ atLeastOne n = 1 ∨ 0 < n ∧ (atLeastOne n : ℤ) = n := by
  unfold atLeastOne
  omega

theorem forced_cases (s : Segments) (total : ℕ) :
    s.decay = 0 ∧ s.sustain total = 0 ∧ s.forced total = 2 ∨ s.decay = 0 ∧ s.sustain total ≠ 0 ∧ s.forced total = 1 ∨
      s.decay ≠ 0 ∧ s.sustain total = 0 ∧ s.forced total = 1 ∨
        s.decay ≠ 0 ∧ s.sustain total ≠ 0 ∧ s.forced total = 0 := by
  unfold forced
  split_ifs <;> simp [*]

theorem forced_le (s : Segments) (total : ℕ) : s.forced total ≤ 2 := by
  have := s.forced_cases total
  omega

/-- A signal that has room for the timed segments, of which attack and release are not empty. -/
structure Fits (s : Segments) (total : ℕ) : Prop where
  attack : 0 < s.attack
  decay : 0 ≤ s.decay
  release : 0 < s.release
  room : s.attack + s.decay + s.release ≤ total

/-- The release begins as many samples late as were forced onto the segments before it. Until
then the level is that of the sustain, but for an empty decay before an empty sustain, which is
at full level. -/
theorem Fits.level_end (fits : s.Fits total) (sustain : α) {k : ℕ} (inside : k < s.release) :
    s.level sustain total (total - s.release.toNat + k) =
      if k < s.forced total then if k + 2 ≤ s.forced total then 1 else sustain
      else rampAt sustain 0 s.release.toNat (k - s.forced total) := by
  obtain ⟨attack, decay, release, room⟩ := fits
  have held : s.sustain total = total - s.attack - s.decay - s.release := max_eq_right (by omega)
  have rise := atLeastOne_cases attack.le
  have drop := atLeastOne_cases decay
  have hold := atLeastOne_cases (show 0 ≤ s.sustain total by omega)
  have fall := atLeastOne_cases release.le
  have cases := s.forced_cases total
  split
  · rename_i early
    split
    · have first : total - s.release.toNat + k = atLeastOne s.attack := by omega
      have single : atLeastOne s.decay = 1 := by omega
      rw [level_decay sustain (by omega) (by omega), single]
      exact if_pos le_rfl
    · exact level_sustain sustain (by omega) (by omega)
  · have count : atLeastOne s.release = s.release.toNat := by omega
    rw [level_release sustain (by omega) (by omega), count]
    congr 1
    omega

end level

end Segments

variable [Exact.Venue]

open Exact

/-- The segments of an envelope; attack and release have a least length. -/
noncomputable def segmentsOf (e : Envelope ℝ) (rate : ℤ) : Segments :=
  ⟨⌊max e.attack (1 / 200) * rate⌋, ⌊e.decay * rate⌋, ⌊max e.release (1 / 100) * rate⌋⟩

section envelope

variable {e : Envelope ℝ} {rate : ℤ}

theorem ofEnvelope_eq (decays : 0 ≤ e.decay) (above : 0 ≤ rate) :
    Segments.ofEnvelope e rate = .ok (segmentsOf e rate) := by
  have sampled {seconds : ℝ} (later : 0 ≤ seconds) :
      Scalar.toInt (seconds * Scalar.ofInt rate) = .ok ⌊seconds * rate⌋ :=
    toInt_of_nonneg (mul_nonneg later (Int.cast_nonneg above))
  have rise : (@OfScientific.ofScientific ℝ Scalar.instOfScientific 5 true 3) = 1 / 200 := by
    rw [real_decimal]
    norm_num
  have fall : (@OfScientific.ofScientific ℝ Scalar.instOfScientific 1 true 2) = 1 / 100 := by
    rw [real_decimal]
    norm_num
  unfold Segments.ofEnvelope
  simp only [real_max, rise, fall]
  rw [sampled (le_max_of_le_right (by norm_num)), sampled decays, sampled (le_max_of_le_right (by norm_num))]
  rfl

omit [Venue] in
theorem segmentsOf_fits (decays : 0 ≤ e.decay) (fast : 8000 ≤ rate) {total : ℕ}
    (room : (segmentsOf e rate).attack + (segmentsOf e rate).decay + (segmentsOf e rate).release ≤ total) :
    (segmentsOf e rate).Fits total ∧ 80 ≤ (segmentsOf e rate).release := by
  have quick : (8000 : ℝ) ≤ rate := by exact_mod_cast fast
  have least {seconds : ℝ} {n : ℤ} (enough : n ≤ seconds * 8000) (later : 0 ≤ seconds) : n ≤ ⌊seconds * rate⌋ :=
    Int.le_floor.mpr (enough.trans (mul_le_mul_of_nonneg_left quick later))
  have rise : 40 ≤ (segmentsOf e rate).attack := by
    refine least ?_ (le_max_of_le_right (by norm_num))
    have := le_max_right e.attack (1 / 200)
    push_cast
    linarith
  have fall : 80 ≤ (segmentsOf e rate).release := by
    refine least ?_ (le_max_of_le_right (by norm_num))
    have := le_max_right e.release (1 / 100)
    push_cast
    linarith
  exact ⟨⟨by omega, Int.floor_nonneg.mpr (mul_nonneg decays (by linarith)), by omega, room⟩, fall⟩

noncomputable def levelOf (e : Envelope ℝ) (rate : ℤ) (total i : ℕ) : ℝ :=
  (segmentsOf e rate).level (min (max e.sustain 0) 1) total i

theorem applyEnvelope_ok {s : Segments} (timed : Segments.ofEnvelope e rate = .ok s) (signal : Array ℝ) :
    applyEnvelope signal e rate =
      .ok (signal.mapIdx fun i x => x * s.level (min (max e.sustain 0) 1) signal.size i) := by
  unfold applyEnvelope
  rw [timed]
  simp only [real_clamp, real_natural, Nat.cast_zero, Nat.cast_one]
  rfl

theorem applyEnvelope_eq (decays : 0 ≤ e.decay) (above : 0 ≤ rate) (signal : Array ℝ) :
    applyEnvelope signal e rate = .ok (signal.mapIdx fun i x => x * levelOf e rate signal.size i) :=
  applyEnvelope_ok (ofEnvelope_eq decays above) signal

/-- The levels of the last samples of a signal that has room for the timed segments. -/
theorem levelOf_end (decays : 0 ≤ e.decay) (fast : 8000 ≤ rate) {total k : ℕ}
    (room : (segmentsOf e rate).attack + (segmentsOf e rate).decay + (segmentsOf e rate).release ≤ total)
    (inside : k < (segmentsOf e rate).release.toNat) :
    levelOf e rate total (total - (segmentsOf e rate).release.toNat + k) =
      if k < (segmentsOf e rate).forced total then
        if k + 2 ≤ (segmentsOf e rate).forced total then 1 else min (max e.sustain 0) 1
      else min (max e.sustain 0) 1 *
        (1 - ((k : ℝ) - (segmentsOf e rate).forced total) / ((segmentsOf e rate).release.toNat - 1)) := by
  obtain ⟨fits, long⟩ := segmentsOf_fits decays fast room
  unfold levelOf
  rw [fits.level_end _ (by omega), real_natural, real_natural, Nat.cast_zero, Nat.cast_one]
  by_cases early : k < (segmentsOf e rate).forced total
  · rw [if_pos early, if_pos early]
  · rw [if_neg early, if_neg early, real_ramp _ _ (by omega), Nat.cast_sub (by omega)]
    ring

omit [Venue] in
/-- A ramp that comes late does not get to its end, and is another one unless it is silent. -/
theorem late_ramp {level : ℕ → ℝ} {sustain : ℝ} {start release late : ℕ} (long : 4 ≤ release) (most : late ≤ 2)
    (ends : ∀ k < release, level (start + k) = if k < late then if k + 2 ≤ late then 1 else sustain
      else sustain * (1 - ((k : ℝ) - late) / (release - 1))) :
    level (start + (release - 1)) = sustain * (late / (release - 1)) ∧
      ((∀ k < release, level (start + k) = sustain * (1 - k / (release - 1))) ↔ late = 0 ∨ late = 1 ∧ sustain = 0) := by
  have span : (0 : ℝ) < release - 1 := by
    have : (4 : ℝ) ≤ release := by exact_mod_cast long
    linarith
  constructor
  · rw [ends _ (by omega), if_neg (by omega), Nat.cast_sub (by omega), Nat.cast_one]
    field_simp
    ring
  constructor
  · intro same
    have first := same 0 (by omega)
    have second := same 1 (by omega)
    rw [ends _ (by omega)] at first second
    have falls : (1 : ℝ) / (release - 1) ≠ 0 := one_div_ne_zero span.ne'
    obtain rfl | rfl | rfl : late = 0 ∨ late = 1 ∨ late = 2 := by omega
    · exact .inl rfl
    · simp only [lt_self_iff_false, if_false, Nat.cast_one, sub_self, zero_div, sub_zero] at second
      have step : sustain * (1 / (release - 1)) = 0 := by linarith
      exact .inr ⟨rfl, (mul_eq_zero.mp step).resolve_right falls⟩
    · -- the sustain would have to be full to begin with, and less than it is one sample later
      norm_num at first second
      rw [← first] at second
      simp only [one_div] at falls
      exact absurd (by linarith) falls
  · rintro (rfl | ⟨rfl, silent⟩) k inside
    · rw [ends k inside, if_neg (by omega), Nat.cast_zero, sub_zero]
    · rw [ends k inside, silent]
      split_ifs <;> first | omega | ring

/-- The release of an envelope comes late by as many samples as are forced onto an empty decay
and an empty sustain, and its end is cut off: it is the end of the signal, and gets to silence,
only if there are no such samples. -/
theorem release_comes_late (decays : 0 ≤ e.decay) (fast : 8000 ≤ rate) (signal : Array ℝ)
    (room : (segmentsOf e rate).attack + (segmentsOf e rate).decay + (segmentsOf e rate).release ≤ signal.size) :
    let sustain := min (max e.sustain 0) 1
    let release := (segmentsOf e rate).release.toNat
    let late := (segmentsOf e rate).forced signal.size
    let level := levelOf e rate signal.size
    applyEnvelope signal e rate = .ok (signal.mapIdx fun i x => x * level i) ∧
      (∀ k < release, level (signal.size - release + k) = if k < late then if k + 2 ≤ late then 1 else sustain
        else sustain * (1 - ((k : ℝ) - late) / (release - 1))) ∧
      level (signal.size - 1) = sustain * (late / (release - 1)) ∧
      ((∀ k < release, level (signal.size - release + k) = sustain * (1 - k / (release - 1))) ↔
        late = 0 ∨ late = 1 ∧ sustain = 0) := by
  intro sustain release late level
  obtain ⟨fits, long⟩ := segmentsOf_fits decays fast room
  have most : late ≤ 2 := (segmentsOf e rate).forced_le signal.size
  have enough : 80 ≤ release := by omega
  have last : signal.size - 1 = signal.size - release + (release - 1) := by
    have := fits.attack
    have := fits.decay
    omega
  have ends : ∀ k < release, level (signal.size - release + k) = _ := fun k => levelOf_end decays fast room
  rw [last]
  exact ⟨applyEnvelope_eq decays (by omega) signal, ends, late_ramp (by omega) most ends⟩

end envelope

section blip

omit [Venue]

noncomputable def blip : Envelope ℝ := ⟨0, 0, 1 / 2, 0⟩

theorem segmentsOf_blip : segmentsOf blip 8000 = ⟨40, 0, 80⟩ := by
  norm_num [segmentsOf, blip]

theorem blip_room {total : ℕ} (long : 120 ≤ total) : (segmentsOf blip 8000).attack + (segmentsOf blip 8000).decay +
    (segmentsOf blip 8000).release ≤ total := by
  rw [segmentsOf_blip]
  dsimp only
  omega

theorem release_comes_late_blip : letI := ideal
    0 ≤ blip.decay ∧ (segmentsOf blip 8000).attack + (segmentsOf blip 8000).decay +
      (segmentsOf blip 8000).release ≤ (120 : ℕ) ∧ levelOf blip 8000 120 119 = 1 / 79 := by
  let venue := ideal
  have size : (Array.replicate 120 (1 : ℝ)).size = 120 := Array.size_replicate
  obtain ⟨-, -, last, -⟩ := release_comes_late (le_refl _ : 0 ≤ blip.decay) le_rfl (Array.replicate 120 1)
    (blip_room size.ge)
  have late : (⟨40, 0, 80⟩ : Segments).forced 120 = 2 := rfl
  rw [size, segmentsOf_blip, late] at last
  refine ⟨le_rfl, blip_room le_rfl, last.trans ?_⟩
  norm_num [blip, show Int.toNat 80 = 80 from rfl]

/-- An empty decay moves the end of the release out of the signal, which ends in a click. -/
theorem empty_decay_clicks : letI := ideal
    ∃ signal out : Array ℝ, (segmentsOf blip 8000).attack + (segmentsOf blip 8000).decay +
      (segmentsOf blip 8000).release ≤ signal.size ∧ applyEnvelope signal blip 8000 = .ok out ∧
        out.getD (signal.size - 1) 0 ≠ 0 := by
  let venue := ideal
  have size : (Array.replicate 200 (1 : ℝ)).size = 200 := Array.size_replicate
  have last := levelOf_end (le_refl _ : 0 ≤ blip.decay) le_rfl (blip_room (by decide : 120 ≤ 200)) (k := 79)
    (by rw [segmentsOf_blip]; decide)
  have late : (⟨40, 0, 80⟩ : Segments).forced 200 = 1 := rfl
  rw [segmentsOf_blip, late] at last
  have clicks : levelOf blip 8000 200 199 = 1 / 158 := by
    refine last.trans ?_
    norm_num [blip, show Int.toNat 80 = 80 from rfl]
  refine ⟨_, _, blip_room (by rw [size]; decide), applyEnvelope_eq (le_refl _ : 0 ≤ blip.decay) (by decide)
    (Array.replicate 200 1), ?_⟩
  rw [size]
  simp [Array.getD, clicks]

end blip

end Signal

end Partita
