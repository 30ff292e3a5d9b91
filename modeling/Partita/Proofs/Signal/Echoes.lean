import Partita.Proofs.Whole.Sound

/-! Echoes over the real numbers. Each tap adds the input once more, later by a delay and weaker
by the feedback. Ping-pong moves what a tap adds from one side to the other and keeps the sum of
both; a delay that is shorter than a sample or not heard is left out. -/
namespace Partita

namespace Signal

open Exact Whole

variable [Venue]

theorem natPow_eq (x : ℝ) (n : ℕ) : natPow x n = .ok (x ^ n) := by
  have power : (Scalar.pow x (Scalar.ofNat n) : ℝ) = x ^ n := Real.rpow_natCast x n
  unfold natPow
  rw [power]
  exact if_pos rfl

noncomputable def monoOf (input : Stereo ℝ) : Array ℝ :=
  Array.zipWith (fun l r => (l + r) / @OfNat.ofNat ℝ 2 (Scalar.instOfNat 2)) input.left input.right

/-- What a tap adds to the left and the right for a frame of the input. With ping-pong it leans
to one side, odd taps to the right and even ones to the left. -/
noncomputable def echoOf (input : Stereo ℝ) (e : Echo ℝ) (tap i : ℕ) : ℝ × ℝ :=
  let level := e.feedback ^ (tap - 1) * e.wet
  let left := input.left.getD i 0
  let right := input.right.getD i 0
  if e.pingpong then
    let lean := if tap % 2 = 1 then min (max e.width 0) 1 else -min (max e.width 0) 1
    ((left + right) / 2 * level * (1 - lean), (left + right) / 2 * level * (1 + lean))
  else (left * level, right * level)

/-- The echoes of `count` taps from number `tap` on that are heard at a frame. -/
noncomputable def echoes (f : ℕ → ℕ → ℝ) (spacing tap count i : ℕ) : ℝ :=
  ∑ j ∈ Finset.range count, if spacing * (tap + j) ≤ i then f (tap + j) (i - spacing * (tap + j)) else 0

theorem getD_addDelayed {channel : Array ℝ} {i : ℕ} (inside : i < channel.size) (offset : ℕ) (sample : ℕ → ℝ) :
    (addDelayed channel offset sample).getD i 0 =
      channel.getD i 0 + if offset ≤ i then sample (i - offset) else 0 := by
  have here : i < (addDelayed channel offset sample).size := by
    rwa [show (addDelayed channel offset sample).size = channel.size from size_addAt ..]
  rw [← Array.getElem_eq_getD (h := here), ← Array.getElem_eq_getD (h := inside)]
  refine (getElem_addAt inside here).trans ?_
  have reached : (offset ≤ i ∧ i < offset + (channel.size - offset)) = (offset ≤ i) := by
    rw [eq_iff_iff]
    omega
  simp only [reached]
  split
  · rfl
  · exact (add_zero _).symm

omit [Venue] in
theorem echoes_succ (f : ℕ → ℕ → ℝ) (spacing tap count i : ℕ) : echoes f spacing tap (count + 1) i =
    (if spacing * tap ≤ i then f tap (i - spacing * tap) else 0) + echoes f spacing (tap + 1) count i := by
  unfold echoes
  rw [Finset.sum_range_succ', add_comm]
  simp only [Nat.add_zero, Nat.add_comm 1, Nat.add_assoc]

omit [Venue] in
theorem echoes_beyond (f : ℕ → ℕ → ℝ) {spacing tap i : ℕ} (beyond : i < spacing * tap) (count : ℕ) :
    echoes f spacing tap count i = 0 := by
  refine Finset.sum_eq_zero fun j _ => if_neg ?_
  have := Nat.mul_le_mul_left spacing (Nat.le_add_right tap j)
  omega

section taps

variable {frames : ℕ} {input : Stereo ℝ}

theorem getD_monoOf (sized : Sized frames input) (i : ℕ) :
    (monoOf input).getD i 0 = (input.left.getD i 0 + input.right.getD i 0) / 2 := by
  have two : (@OfNat.ofNat ℝ 2 (Scalar.instOfNat 2)) = 2 := by rw [real_natural, Nat.cast_two]
  obtain ⟨first, second⟩ := sized
  unfold monoOf
  rw [two]
  by_cases inside : i < frames
  · simp [Array.getD, first, second, inside]
  · simp [Array.getD, first, second, inside]

theorem addTaps_beyond (mono : Array ℝ) {spacing tap : ℕ} (beyond : input.size ≤ spacing * tap) (e : Echo ℝ)
    (count : ℕ) (output : Stereo ℝ) : addTaps input mono spacing e (count + 1) tap output = .ok output :=
  if_pos beyond

theorem addTaps_within (sized : Sized frames input) {spacing tap : ℕ} (within : spacing * tap < frames) (e : Echo ℝ)
    (count : ℕ) (output : Stereo ℝ) : addTaps input (monoOf input) spacing e (count + 1) tap output =
      addTaps input (monoOf input) spacing e count (tap + 1)
        ⟨addDelayed output.left (spacing * tap) fun i => (echoOf input e tap i).1,
          addDelayed output.right (spacing * tap) fun i => (echoOf input e tap i).2⟩ := by
  have heard : ¬ input.size ≤ spacing * tap := by
    rw [Stereo.size, sized.1]
    omega
  have half : (@OfScientific.ofScientific ℝ Scalar.instOfScientific 5 true 1) = 1 / 2 := by
    rw [real_decimal]
    norm_num
  rw [addTaps]
  dsimp only
  rw [if_neg heard, natPow_eq]
  simp only [bind, Except.bind]
  split
  · rename_i alternating
    have lean : (if (tap % 2 == 1) = true then (1 : ℝ) else -1) * min (max e.width 0) 1 =
        if tap % 2 = 1 then min (max e.width 0) 1 else -min (max e.width 0) 1 := by
      by_cases odd : tap % 2 = 1 <;> simp [odd]
    simp only [echoOf, alternating, if_true, half, real_natural, real_clamp, Nat.cast_zero, Nat.cast_one,
      getD_monoOf sized, lean]
    congr 2 <;> (congr 1; funext i; push_cast; ring)
  · rename_i straight
    simp only [echoOf, straight, real_natural, Nat.cast_zero]
    rfl

/-- A signal with the echoes of `count` taps from number `tap` on. -/
structure Hears (input : Stereo ℝ) (e : Echo ℝ) (frames spacing tap count : ℕ) (before after : Stereo ℝ) : Prop where
  sized : Sized frames after
  left : ∀ i < frames, after.left.getD i 0 =
    before.left.getD i 0 + echoes (fun t k => (echoOf input e t k).1) spacing tap count i
  right : ∀ i < frames, after.right.getD i 0 =
    before.right.getD i 0 + echoes (fun t k => (echoOf input e t k).2) spacing tap count i

/-- The taps from number `tap` on add their echoes to an output. That they are broken off where
one of them begins beyond the end loses nothing, as those after it begin even later. -/
theorem addTaps_hears (sized : Sized frames input) (spacing : ℕ) (e : Echo ℝ) (count tap : ℕ) {output : Stereo ℝ}
    (kept : Sized frames output) : ∃ out, addTaps input (monoOf input) spacing e count tap output = .ok out ∧
      Hears input e frames spacing tap count output out := by
  induction count generalizing tap output with
  | zero => exact ⟨output, rfl, kept, fun i _ => by simp [echoes], fun i _ => by simp [echoes]⟩
  | succ count ih =>
    by_cases within : spacing * tap < frames
    · obtain ⟨out, added, wide, left, right⟩ := ih (tap + 1) (addDelayed_sized kept (spacing * tap)
        (fun i => (echoOf input e tap i).1) fun i => (echoOf input e tap i).2)
      refine ⟨out, (addTaps_within sized within e count output).trans added, wide, fun i inside => ?_,
        fun i inside => ?_⟩
      · rw [left i inside, getD_addDelayed (kept.1 ▸ inside), echoes_succ, add_assoc]
      · rw [right i inside, getD_addDelayed (kept.2 ▸ inside), echoes_succ, add_assoc]
    · have beyond : frames ≤ spacing * tap := not_lt.mp within
      refine ⟨output, addTaps_beyond _ (sized.1.trans_le beyond) e count output, kept, fun i inside => ?_,
        fun i inside => ?_⟩
      · rw [echoes_beyond _ (by omega), add_zero]
      · rw [echoes_beyond _ (by omega), add_zero]

theorem applyDelay_bypassed {e : Echo ℝ} {rate spacing : ℤ}
    (spaced : Scalar.toInt (e.time * Scalar.ofInt rate) = .ok spacing) (bypassed : spacing ≤ 0 ∨ e.wet ≤ 0) :
    applyDelay input e rate = .ok input := by
  unfold applyDelay
  rw [spaced]
  simp only [bind, Except.bind, real_natural, Nat.cast_zero]
  exact if_pos (by simpa using bypassed)

theorem applyDelay_hears (sized : Sized frames input) {e : Echo ℝ} {rate spacing : ℤ} {taps : ℕ}
    (spaced : Scalar.toInt (e.time * Scalar.ofInt rate) = .ok spacing) (counted : tapCount e.feedback = .ok taps)
    (heard : ¬ (spacing ≤ 0 ∨ e.wet ≤ 0)) : ∃ out, applyDelay input e rate = .ok out ∧
      Hears input e frames spacing.toNat 1 taps input out := by
  have same : applyDelay input e rate = addTaps input (monoOf input) spacing.toNat e taps 1 input := by
    unfold applyDelay
    rw [spaced, counted]
    simp only [bind, Except.bind, real_natural, Nat.cast_zero]
    exact if_neg (by simpa using heard)
  rw [same]
  exact addTaps_hears sized spacing.toNat e taps 1 sized

/-- What is heard of a channel in the taps up to number `taps`, each of which comes a delay later
than the one before and is weaker by the feedback. -/
noncomputable def repeated (x : Array ℝ) (e : Echo ℝ) (spacing taps i : ℕ) : ℝ :=
  ∑ tap ∈ Finset.Icc 1 taps,
    if spacing * tap ≤ i then x.getD (i - spacing * tap) 0 * (e.feedback ^ (tap - 1) * e.wet) else 0

omit [Venue] in
theorem echoes_straight (x : Array ℝ) (e : Echo ℝ) (spacing taps i : ℕ) :
    echoes (fun t k => x.getD k 0 * (e.feedback ^ (t - 1) * e.wet)) spacing 1 taps i = repeated x e spacing taps i := by
  unfold echoes repeated
  rw [← Finset.Ico_add_one_right_eq_Icc, Finset.sum_Ico_eq_sum_range]
  rfl

omit [Venue] in
/-- Both sides together, a tap is as loud with ping-pong as without. -/
theorem echoOf_sum (input : Stereo ℝ) (e : Echo ℝ) (tap i : ℕ) :
    (echoOf input { e with pingpong := true } tap i).1 + (echoOf input { e with pingpong := true } tap i).2 =
      (echoOf input { e with pingpong := false } tap i).1 + (echoOf input { e with pingpong := false } tap i).2 := by
  simp only [echoOf, if_true, if_false, Bool.false_eq_true]
  ring

omit [Venue] in
theorem echoes_add (f g : ℕ → ℕ → ℝ) (spacing tap count i : ℕ) :
    echoes f spacing tap count i + echoes g spacing tap count i =
      echoes (fun t k => f t k + g t k) spacing tap count i := by
  unfold echoes
  rw [← Finset.sum_add_distrib]
  refine Finset.sum_congr rfl fun j _ => ?_
  split
  · rfl
  · exact add_zero 0

/-- Ping-pong changes where an echo is heard and not how loud both sides are together. Without
it, the output is the input and all its repetitions, unless the delay is left out. -/
theorem pingpong_keeps_sum (sized : Sized frames input) (e : Echo ℝ) (rate : ℤ) :
    ∃ (spacing : ℤ) (taps : ℕ) (straight alternating : Stereo ℝ),
      Scalar.toInt (e.time * Scalar.ofInt rate) = .ok spacing ∧ tapCount e.feedback = .ok taps ∧
      applyDelay input { e with pingpong := false } rate = .ok straight ∧ Sized frames straight ∧
      applyDelay input { e with pingpong := true } rate = .ok alternating ∧ Sized frames alternating ∧
      (∀ i < frames, alternating.left.getD i 0 + alternating.right.getD i 0 =
        straight.left.getD i 0 + straight.right.getD i 0) ∧
      (spacing ≤ 0 ∨ e.wet ≤ 0 → straight = input ∧ alternating = input) ∧
      (¬ (spacing ≤ 0 ∨ e.wet ≤ 0) → ∀ i < frames,
        straight.left.getD i 0 = input.left.getD i 0 + repeated input.left e spacing.toNat taps i ∧
        straight.right.getD i 0 = input.right.getD i 0 + repeated input.right e spacing.toNat taps i) := by
  obtain ⟨spacing, spaced⟩ := toInt_ok (e.time * Scalar.ofInt rate)
  obtain ⟨taps, counted⟩ := tapCount_ok e.feedback
  by_cases bypassed : spacing ≤ 0 ∨ e.wet ≤ 0
  · exact ⟨spacing, taps, input, input, spaced, counted, applyDelay_bypassed spaced bypassed, sized,
      applyDelay_bypassed spaced bypassed, sized, fun _ _ => rfl, fun _ => ⟨rfl, rfl⟩,
      fun heard => absurd bypassed heard⟩
  · obtain ⟨straight, plain, whole⟩ :=
      applyDelay_hears sized (e := { e with pingpong := false }) spaced counted bypassed
    obtain ⟨alternating, swung, moved⟩ :=
      applyDelay_hears sized (e := { e with pingpong := true }) spaced counted bypassed
    refine ⟨spacing, taps, straight, alternating, spaced, counted, plain, whole.sized, swung, moved.sized,
      fun i inside => ?_, fun passed => absurd passed bypassed, fun _ i inside => ?_⟩
    · rw [moved.left i inside, moved.right i inside, whole.left i inside, whole.right i inside, add_add_add_comm,
        echoes_add, add_add_add_comm, echoes_add]
      simp only [echoOf_sum]
    · rw [whole.left i inside, whole.right i inside, ← echoes_straight, ← echoes_straight]
      exact ⟨rfl, rfl⟩

end taps

noncomputable def spike : Stereo ℝ := ⟨#[1, 0], #[1 / 2, 0]⟩

noncomputable def slap (wet : ℝ) : Echo ℝ := ⟨1, 0, true, 3, wet⟩

theorem slap_spaced (wet : ℝ) : Scalar.toInt ((slap wet).time * Scalar.ofInt 1) = .ok 1 := by
  have one : (slap wet).time * Scalar.ofInt 1 = 1 := by
    change (1 : ℝ) * ((1 : ℤ) : ℝ) = 1
    norm_num
  rw [one, toInt_of_nonneg zero_le_one, Int.floor_one]

theorem slap_counted (wet : ℝ) : tapCount (slap wet).feedback = .ok 1 := by
  refine if_pos ?_
  rw [real_natural, Nat.cast_zero]
  exact le_rfl

omit [Venue] in
theorem pingpong_keeps_sum_slap : letI := ideal
    Sized 2 spike ∧ ∃ straight alternating, applyDelay spike { slap (1 / 2) with pingpong := false } 1 = .ok straight ∧
      applyDelay spike { slap (1 / 2) with pingpong := true } 1 = .ok alternating ∧
      alternating.left.getD 1 0 + alternating.right.getD 1 0 = straight.left.getD 1 0 + straight.right.getD 1 0 ∧
      straight.left.getD 1 0 = 1 / 2 := by
  let venue := ideal
  have sized : Sized 2 spike := ⟨rfl, rfl⟩
  obtain ⟨spacing, taps, straight, alternating, spaced, counted, plain, -, swung, -, same, -, each⟩ :=
    pingpong_keeps_sum sized (slap (1 / 2)) 1
  cases Except.ok.inj (spaced.symm.trans (slap_spaced _))
  cases Except.ok.inj (counted.symm.trans (slap_counted _))
  refine ⟨sized, straight, alternating, plain, swung, same 1 (by decide), ?_⟩
  rw [(each (by norm_num [slap]) 1 (by decide)).1]
  norm_num [repeated, spike, slap]

omit [Venue] in
/-- An echo at a negative level is left out, where its repetition would be taken away. -/
theorem negative_level_bypasses : letI := ideal
    ∃ straight, applyDelay spike { slap (-1 / 2) with pingpong := false } 1 = .ok straight ∧
      Scalar.toInt ((slap (-1 / 2)).time * Scalar.ofInt 1) = .ok 1 ∧ tapCount (slap (-1 / 2)).feedback = .ok 1 ∧
      straight.left.getD 1 0 ≠ spike.left.getD 1 0 + repeated spike.left (slap (-1 / 2)) 1 1 1 := by
  let venue := ideal
  refine ⟨spike, applyDelay_bypassed (slap_spaced (-1 / 2)) (.inr (by norm_num [slap])), slap_spaced _,
    slap_counted _, ?_⟩
  norm_num [repeated, spike, slap]

end Signal

end Partita
