import Partita.Proofs.Signal.Echoes

/-! The tails of a note. The voiced part is continued by a length that is worked out in seconds
and rounded once, while echoes come at multiples of a delay that is rounded for itself. All
roundings are downwards, so that the last echo of the voiced part and of its reverberation still
ends inside the note, and no tap is ever broken off. -/
namespace Partita.Mix

open Signal Exact
open Whole (Sized Faithful find_eq voicedSeconds voicedSeconds_eq wetMix_ok paddingOf_agrees pan_ok placeOf_covers)

theorem of_bind_ok {ε β γ : Type} {x : Except ε β} {f : β → Except ε γ} {c : γ} (given : x >>= f = .ok c) :
    ∃ b, x = .ok b ∧ f b = .ok c := by
  cases x with
  | error e => cases given
  | ok b => exact ⟨b, rfl, given⟩

variable [Venue] {rate : ℤ}

section render

theorem paddingOf_eq {seconds : ℝ} (above : 0 ≤ seconds) (positive : 0 < rate) {n : ℕ}
    (counted : paddingOf seconds rate = .ok n) : n = ⌊seconds * rate⌋₊ := by
  obtain ⟨m, same, long⟩ | ⟨f, limited, -⟩ := (paddingOf_agrees above positive).ends
  · exact (Except.ok.inj (counted.symm.trans same)).trans long
  · cases counted.symm.trans limited

theorem impulse_paired {decay predelay : ℝ} {room : Stereo ℝ} (built : impulse decay predelay rate = .ok room) :
    room.left.size = room.right.size := by
  obtain ⟨length, -, built⟩ := of_bind_ok built
  obtain ⟨pad, -, built⟩ := of_bind_ok built
  cases built
  simp

/-- A signal that has been reverberated is as long as before, whatever its room. -/
theorem reverberate_sized (convolves : Convolves) {frames : ℕ} {input output : Stereo ℝ} (sized : Sized frames input)
    {r : Reverb ℝ} {decay predelay : ℝ} (rung : reverberate input r (impulse decay predelay rate) = .ok output) :
    Sized frames output := by
  unfold reverberate at rung
  by_cases dry : r.wet ≤ @OfNat.ofNat ℝ 0 (Scalar.instOfNat 0)
  · rw [if_pos dry] at rung
    cases rung
    split
    · exact sized
    · simpa [Sized, Stereo.map] using sized
  rw [if_neg dry] at rung
  obtain ⟨room, built, rung⟩ := of_bind_ok rung
  by_cases silent : (input.size == 0 || room.size == 0) = true
  · rw [if_pos silent] at rung
    cases rung
  rw [if_neg silent] at rung
  cases rung
  obtain ⟨some, filled⟩ : 0 < frames ∧ 0 < room.left.size := by
    simp only [Bool.or_eq_true, beq_iff_eq, not_or, Stereo.size, sized.1] at silent
    omega
  refine ⟨(wetMix_ok convolves (sized.1 ▸ some) filled r).2.trans sized.1, ?_⟩
  exact (wetMix_ok convolves (sized.2 ▸ some) (impulse_paired built ▸ filled) r).2.trans sized.2

/-- What is echoed of a note that is heard: its voiced part and as many frames as its tails have. -/
theorem renderNote_echoes (convolves : Convolves) (positive : 0 < rate) {horizon : ℝ} {rooms : Rooms ℝ}
    (faithful : Faithful rooms rate) {lfo : Option (Lfo ℝ)} {note : Note ℝ} {sound : Stereo ℝ}
    (rendered : renderNote horizon rate rooms lfo note = .ok (some sound)) {tail : ℝ}
    (told : tailSeconds note.patch = .ok tail) (above : 0 ≤ tail) :
    ∃ voiced rung, voicedPart note lfo (voicedSeconds horizon note) rate = .ok voiced ∧
      Sized (voiced.size + ⌊tail * rate⌋₊) rung ∧ applyDelay rung note.patch.delay rate = .ok sound := by
  unfold renderNote at rendered
  dsimp only at rendered
  split at rendered
  · cases rendered
  split at rendered
  · cases rendered
  rw [voicedSeconds_eq] at rendered
  obtain ⟨voiced, voicing, rendered⟩ := of_bind_ok rendered
  obtain ⟨seconds, same, rendered⟩ := of_bind_ok rendered
  cases Except.ok.inj (told.symm.trans same)
  obtain ⟨rest, counted, rendered⟩ := of_bind_ok rendered
  cases paddingOf_eq above positive counted
  obtain ⟨placed, panned, rendered⟩ := of_bind_ok rendered
  obtain ⟨rung, ringing, rendered⟩ := of_bind_ok rendered
  obtain ⟨echoed, echoing, rendered⟩ := of_bind_ok rendered
  cases rendered
  refine ⟨voiced, rung, voicing, ?_, echoing⟩
  obtain ⟨s, panning, -, wide⟩ := pan_ok _ (placeOf_covers note.patch note.at_ _ rate)
  cases Except.ok.inj (panned.symm.trans panning)
  rw [Array.size_append, Array.size_replicate] at wide
  rw [find_eq faithful] at ringing
  exact reverberate_sized convolves wide ringing

end render

section tails

theorem tailSeconds_eq {p : Patch ℝ} (delayed : 0 < p.delay.time) (heard : 0 < p.delay.wet) {taps : ℕ}
    (counted : tapCount p.delay.feedback = .ok taps) :
    tailSeconds p = .ok (reverbTail p.reverb.wet p.reverb.decay p.reverb.predelay + p.delay.time * taps) := by
  unfold tailSeconds delayTail
  simp only [counted, bind, Except.bind, pure, Except.pure, real_natural, Nat.cast_zero]
  rw [if_pos heard, if_neg (not_le.mpr delayed)]
  rfl

omit [Venue] in
/-- What is rounded down as a whole is no less than what is rounded down part by part. -/
theorem floor_parts_le {time room : ℝ} (timed : 0 ≤ time) (above : 0 ≤ room) {tap taps : ℕ} (within : tap ≤ taps)
    (positive : 0 < rate) : ⌊time * rate⌋₊ * tap + ⌊room * rate⌋₊ ≤ ⌊(room + time * taps) * rate⌋₊ := by
  have fast : (0 : ℝ) ≤ rate := Int.cast_nonneg positive.le
  refine Nat.le_floor ?_
  push_cast
  calc (⌊time * rate⌋₊ : ℝ) * tap + ⌊room * rate⌋₊ ≤ time * rate * taps + room * rate := by
        gcongr
        · exact Nat.floor_le (mul_nonneg timed fast)
        · exact Nat.floor_le (mul_nonneg above fast)
    _ = (room + time * taps) * rate := by ring

omit [Venue] in
/-- If the last repetition of what is heard ends by a frame, nothing is heard from there on. -/
theorem repeated_beyond {x : Array ℝ} {sounding frames spacing taps : ℕ} (silent : ∀ k ≥ sounding, x.getD k 0 = 0)
    (inside : ∀ tap ≤ taps, spacing * tap + sounding ≤ frames) (e : Echo ℝ) {i : ℕ} (beyond : frames ≤ i) :
    repeated x e spacing taps i = 0 := by
  refine Finset.sum_eq_zero fun tap member => ?_
  have ends := inside tap (Finset.mem_Icc.mp member).2
  split
  · rw [silent _ (by omega), zero_mul]
  · rfl

end tails

/-- No echo is cut off by the end of a note. Whatever is voiced, each tap repeats the voiced part
and the whole length of its reverberation inside the frames that the tails make room for; so what
is heard in that time is not heard beyond the end, and in a note that is rendered no tap begins
there. -/
theorem echoes_end_inside (positive : 0 < rate) {p : Patch ℝ} (delayed : 0 < p.delay.time)
    (heard : 0 < p.delay.wet) : ∃ (spacing taps : ℕ) (tail : ℝ),
      Scalar.toInt (p.delay.time * Scalar.ofInt rate) = .ok (spacing : ℤ) ∧ tapCount p.delay.feedback = .ok taps ∧
      tailSeconds p = .ok tail ∧
      (∀ voiced, ∀ tap ≤ taps,
        spacing * tap + voiced + ⌊reverbTail p.reverb.wet p.reverb.decay p.reverb.predelay * rate⌋₊ ≤
          voiced + ⌊tail * rate⌋₊ ∧ (1 ≤ voiced → ¬ voiced + ⌊tail * rate⌋₊ ≤ spacing * tap)) ∧
      (∀ (voiced : ℕ) (x : Array ℝ), (∀ k ≥ voiced +
        ⌊reverbTail p.reverb.wet p.reverb.decay p.reverb.predelay * rate⌋₊, x.getD k 0 = 0) →
          ∀ i ≥ voiced + ⌊tail * rate⌋₊, repeated x p.delay spacing taps i = 0) ∧
      ∀ horizon rooms lfo note sound, Convolves → Faithful rooms rate → note.patch = p →
        renderNote horizon rate rooms lfo note = .ok (some sound) →
          ∃ voiced rung, voicedPart note lfo (voicedSeconds horizon note) rate = .ok voiced ∧
            Sized (voiced.size + ⌊tail * rate⌋₊) rung ∧ applyDelay rung p.delay rate = .ok sound ∧
            (1 ≤ voiced.size → ∀ tap ≤ taps, ¬ rung.size ≤ spacing * tap) := by
  obtain ⟨taps, counted⟩ := Whole.tapCount_ok p.delay.feedback
  have fast : (0 : ℝ) ≤ rate := Int.cast_nonneg positive.le
  have spaced : Scalar.toInt (p.delay.time * Scalar.ofInt rate) = .ok (⌊p.delay.time * rate⌋₊ : ℤ) := by
    rw [Int.natCast_floor_eq_floor (mul_nonneg delayed.le fast)]
    exact toInt_of_nonneg (mul_nonneg delayed.le fast)
  have room := Whole.reverbTail_nonneg p.reverb.wet p.reverb.decay p.reverb.predelay
  have told := tailSeconds_eq delayed heard counted
  have inside (tap : ℕ) (within : tap ≤ taps) := floor_parts_le delayed.le room within positive
  refine ⟨_, taps, _, spaced, counted, told, fun voiced tap within => ?_, fun voiced x silent i beyond => ?_, ?_⟩
  · have := inside tap within
    exact ⟨by omega, by omega⟩
  · refine repeated_beyond silent (fun tap within => ?_) p.delay beyond
    have := inside tap within
    omega
  · rintro horizon rooms lfo note sound convolves faithful rfl rendered
    obtain ⟨voiced, rung, voicing, wide, echoing⟩ := renderNote_echoes convolves positive faithful rendered told
      (add_nonneg room (mul_nonneg delayed.le (Nat.cast_nonneg taps)))
    refine ⟨voiced, rung, voicing, wide, echoing, fun some tap within => ?_⟩
    have := inside tap within
    rw [Stereo.size, wide.1]
    omega

noncomputable def hallPatch : Patch ℝ := ⟨0, 0, ⟨"lowpass", 20000, 1⟩, 0, ⟨0, 0, 1, 0⟩, ⟨1 / 2, 1, 1, 0⟩,
  ⟨1 / 10, 1 / 2, true, 1, 1⟩, ⟨0, 0⟩⟩

noncomputable def hallNote : Note ℝ := ⟨[440], 1, 0, hallPatch, none⟩

theorem hall_open : bandOf .low (20000 : ℝ) 1 8000 = .ok none := by
  have cutoff : @OfScientific.ofScientific ℝ Scalar.instOfScientific 99 true 2 ≤
      Scalar.min (Scalar.max ((20000 : ℝ) / (Scalar.ofInt 8000 / @OfNat.ofNat ℝ 2 (Scalar.instOfNat 2)))
        (@OfScientific.ofScientific ℝ Scalar.instOfScientific 1 true 3))
        (@OfScientific.ofScientific ℝ Scalar.instOfScientific 99 true 2) := by
    rw [real_min, real_max, real_decimal, real_decimal, real_natural, real_integer]
    norm_num
  unfold bandOf
  rw [Score.quotient_of_pos real_signed _ (real_signed.half_pos 8000 (by decide))]
  simp only [bind, Except.bind]
  rw [if_pos cutoff]
  rfl

theorem hall_fitting : Whole.Fitting 8000 hallNote := by
  have known : FilterKind.ofName? hallPatch.filter.kind = some .low := by decide +kernel
  refine ⟨one_pos, ⟨_, known⟩, fun kind band told asked => ?_⟩
  cases Option.some.inj (known.symm.trans told)
  cases Except.ok.inj (hall_open.symm.trans asked)

theorem hall_sounds (convolves : Convolves) (unbounded : ∀ bytes, Venue.addressable bytes = true)
    (silence : Venue.silence ≠ 0) : ∃ sound, renderNote 1 8000 [] none hallNote = .ok (some sound) := by
  have agrees := Whole.renderNote_agrees convolves (le_refl (8000 : ℤ)) 1 (by simp [Faithful] : Faithful [] 8000) none
    hall_fitting
  obtain ⟨sound, rendered, heard⟩ | ⟨-, -, -, bytes, limited⟩ := agrees.ends
  · have sounding : ¬ (hallNote.patch.gain = Venue.silence ∧ (none : Option (Lfo ℝ)) = none ∨ 1 ≤ hallNote.at_) := by
      norm_num [hallNote, hallPatch, silence.symm]
    rw [Whole.SoundOf, if_neg sounding] at heard
    obtain ⟨s, -, rfl, -⟩ := heard
    exact ⟨s, rendered⟩
  · cases (unbounded bytes).symm.trans limited

theorem hall_voiced {voiced : Array ℝ}
    (played : voicedPart hallNote none (voicedSeconds 1 hallNote) 8000 = .ok voiced) : 1 ≤ voiced.size := by
  have seconds : voicedSeconds 1 hallNote = 101 / 100 := by
    norm_num [voicedSeconds, hallNote, hallPatch]
  have agrees := Whole.voicedPart_agrees (by decide : (0 : ℤ) < 8000) hall_fitting none
    (seconds.symm ▸ by norm_num : 0 ≤ voicedSeconds 1 hallNote)
  obtain ⟨mono, same, long⟩ | ⟨f, limited, -⟩ := agrees.ends
  · cases Except.ok.inj (played.symm.trans same)
    rw [long, seconds, Nat.one_le_floor_iff]
    norm_num
  · cases played.symm.trans limited

omit [Venue] in
theorem echoes_end_inside_hall : letI := ideal
    Convolves ∧ 0 < hallPatch.delay.time ∧ 0 < hallPatch.delay.wet ∧
      ∃ sound rung taps, renderNote 1 8000 [] none hallNote = .ok (some sound) ∧
        tapCount hallPatch.delay.feedback = .ok taps ∧ applyDelay rung hallPatch.delay 8000 = .ok sound ∧
        ∀ tap ≤ taps, ¬ rung.size ≤ 800 * tap := by
  let venue := ideal
  have convolves : Convolves := fun x h _ _ => Array.size_ofFn
  have delayed : 0 < hallPatch.delay.time := by norm_num [hallPatch]
  have heard : 0 < hallPatch.delay.wet := by norm_num [hallPatch]
  obtain ⟨spacing, taps, tail, spaced, counted, -, -, -, runs⟩ :=
    echoes_end_inside (by decide : (0 : ℤ) < 8000) delayed heard
  have frames : hallPatch.delay.time * Scalar.ofInt 8000 = 800 := by
    change (1 / 10 : ℝ) * ((8000 : ℤ) : ℝ) = 800
    norm_num
  have cut : Scalar.toInt (800 : ℝ) = .ok (800 : ℤ) := (toInt_of_nonneg (by norm_num)).trans (by norm_num)
  rw [frames, cut] at spaced
  cases Int.natCast_inj.mp (Except.ok.inj spaced : ((800 : ℕ) : ℤ) = spacing)
  obtain ⟨sound, rendered⟩ := hall_sounds convolves (fun _ => rfl) (by norm_num : (-1000 : ℝ) ≠ 0)
  obtain ⟨voiced, rung, played, -, echoing, inside⟩ := runs 1 [] none hallNote sound convolves (by simp [Faithful]) rfl
    rendered
  exact ⟨convolves, delayed, heard, sound, rung, taps, rendered, counted, echoing, inside (hall_voiced played)⟩

end Partita.Mix
