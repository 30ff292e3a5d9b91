import Partita.Proofs.Whole.Note

/-! The lengths of a sound over the real numbers. Whatever the parameters of a note are, the
arrays of every step fit each other, so that a note that is heard gives a sound of exactly as
many frames as its voiced part and its tails have. -/
namespace Partita

namespace Exact

variable [Venue]

theorem real_signed : Scalar.Signed ℝ where
  ne_zero x positive := beq_eq_false_iff_ne.mpr (by rw [real_natural] at positive ⊢; exact positive.ne')
  ofInt_pos n positive := by
    rw [real_natural, Nat.cast_zero]
    exact Int.cast_pos.mpr positive
  half_pos n positive := by
    rw [real_natural, real_natural, Nat.cast_zero]
    exact div_pos (Int.cast_pos.mpr positive) (by norm_num)

/-- The convolution is whole: every sample of a signal meets every one of a response. -/
def Convolves : Prop :=
  ∀ x h : Array ℝ, 0 < x.size → 0 < h.size → (Venue.convolution x h).size = x.size + h.size - 1

end Exact

namespace Whole

open Signal Exact

def Sized {α : Type} (frames : ℕ) (s : Stereo α) : Prop := s.left.size = frames ∧ s.right.size = frames

variable [Venue]

section lengths

theorem sampleCount_agrees {n : ℤ} (above : 0 ≤ n) (bytes : ℤ) :
    Agrees (· = n.toNat) (sampleCount ℝ n bytes) (sampleCount ℝ n bytes) := by
  refine .of_ends ?_
  unfold sampleCount
  rw [if_neg (by omega)]
  split
  · exact .inl ⟨_, rfl, rfl⟩
  · exact .inr ⟨_, rfl, .inl rfl, n * bytes, eq_false_of_ne_true ‹_›⟩

section

variable {seconds : ℝ} (above : 0 ≤ seconds) {rate : ℤ} (positive : 0 < rate)
include above positive

/-- The samples that some seconds take, if as many can be had. -/
theorem width_agrees {count : ℤ → Except Fault ℕ} (agrees : ∀ n, 0 ≤ n → Agrees (· = n.toNat) (count n) (count n)) :
    Agrees (· = ⌊seconds * rate⌋₊) (Scalar.toInt (Scalar.ofInt rate * seconds) >>= count)
      (Scalar.toInt (Scalar.ofInt rate * seconds) >>= count) := by
  have whole : (0 : ℝ) ≤ rate * seconds := mul_nonneg (by exact_mod_cast positive.le) above
  change Agrees _ (Scalar.toInt ((rate : ℝ) * seconds) >>= _) (Scalar.toInt ((rate : ℝ) * seconds) >>= _)
  rw [toInt_of_nonneg whole]
  refine (agrees _ (Int.floor_nonneg.mpr whole)).mono fun n told => ?_
  rw [told, Int.floor_toNat, mul_comm]

theorem lengthOf_agrees : Agrees (· = ⌊seconds * rate⌋₊) (lengthOf seconds rate) (lengthOf seconds rate) :=
  width_agrees above positive fun _ counted => sampleCount_agrees counted 8

theorem paddingOf_agrees : Agrees (· = ⌊seconds * rate⌋₊) (paddingOf seconds rate) (paddingOf seconds rate) := by
  refine width_agrees above positive fun n counted => .ite (fun _ => sampleCount_agrees counted 8) fun beyond => ?_
  rw [Bool.or_eq_true, not_or] at beyond
  exact .of_ends (.inr ⟨_, rfl, .inr rfl, n * 8, eq_false_of_ne_true beyond.2⟩)

end

end lengths

section voice

variable {count : ℕ} {rate : ℤ}

theorem tones_agrees {seconds : ℝ} (counted : lengthOf seconds rate = .ok count) (frequencies : List ℝ) :
    Agrees (fun mono => mono.size = count) (tones frequencies seconds rate count)
      (Mix.tones frequencies seconds rate count) := by
  refine .foldlM (fun mono sized frequency _ => ?_) (by simp)
  obtain ⟨tone, played, long⟩ := triangle_ok counted frequency Mix.noteAmplitude
  have same : mono.size = tone.size := sized.trans long.symm
  rw [played]
  refine .of_ok ?_ (by simp [same, long])
  change addInto mono (tone.extract 0 mono.size) 0 tone.size = _
  rw [same, Array.extract_size]
  exact addInto_all same

theorem applyEnvelope_agrees (signal : Array ℝ) (e : Envelope ℝ) : Agrees (fun x => x.size = signal.size)
    (applyEnvelope signal e rate) (Signal.applyEnvelope signal e rate) := by
  rw [applyEnvelope_eq]
  exact .pure (by simp)

theorem lfoGain_agrees (positive : 0 < rate) (l : Lfo ℝ) (at_ : ℝ) : Agrees (fun gain => gain.size = count)
    (lfoGain l at_ count rate) (Mix.lfoGain l at_ count rate) := by
  rw [lfoGain_eq]
  unfold Mix.lfoGain
  rw [Score.quotient_of_pos real_signed _ (real_signed.ofInt_pos rate positive)]
  have above : (0 : ℝ) ≤ Scalar.ofInt (count : ℤ) / Scalar.ofInt rate := by
    refine div_nonneg ?_ ?_
    · exact Int.cast_nonneg (Int.natCast_nonneg count)
    · exact Int.cast_nonneg positive.le
  have swung : Agrees (fun _ => True) (swing (Scalar.ofInt count / Scalar.ofInt rate) l.rate rate (at_ - l.start))
      (swing (Scalar.ofInt count / Scalar.ofInt rate) l.rate rate (at_ - l.start)) :=
    (lengthOf_agrees above positive).bind fun _ _ => .pure trivial
  exact swung.bind fun wave _ => .pure (by simp)

/-- A recorded note: it has a length, and its filter is one that can be designed. -/
structure Fitting (rate : ℤ) (note : Note ℝ) : Prop where
  long : 0 < note.duration
  known : ∃ kind, FilterKind.ofName? note.patch.filter.kind = some kind
  designed : ∀ kind band, FilterKind.ofName? note.patch.filter.kind = some kind →
    bandOf kind note.patch.filter.frequency note.patch.filter.q rate = .ok (some band) → band.Legal

theorem bandOf_ok (positive : 0 < rate) (kind : FilterKind) (frequency q : ℝ) :
    ∃ band, bandOf kind frequency q rate = .ok band := by
  unfold bandOf
  rw [Score.quotient_of_pos real_signed _ (real_signed.half_pos rate positive)]
  cases kind with
  | low =>
    simp only [bind, Except.bind, pure, Except.pure]
    split <;> exact ⟨_, rfl⟩
  | high => exact ⟨_, rfl⟩
  | band => exact ⟨_, rfl⟩

theorem applyFilter_agrees {note : Note ℝ} (positive : 0 < rate) (fitting : Fitting rate note) (mono : Array ℝ) :
    Agrees (fun channels => (channels.headD #[]).size = mono.size)
      (applyFilter [mono] note.patch.filter.kind note.patch.filter.frequency note.patch.filter.q rate)
      (applyFilter [mono] note.patch.filter.kind note.patch.filter.frequency note.patch.filter.q rate) := by
  obtain ⟨kind, known⟩ := fitting.known
  obtain ⟨band, asked⟩ := bandOf_ok positive kind note.patch.filter.frequency note.patch.filter.q
  cases band with
  | none =>
    rw [applyFilter_open [mono] known asked]
    exact .pure rfl
  | some band =>
    obtain ⟨r, -, applied⟩ := applyFilter_legal [mono] known asked (fitting.designed kind band known asked)
    rw [applied]
    exact .pure (size_recurrence r mono)

theorem voicedPart_agrees (positive : 0 < rate) {note : Note ℝ} (fitting : Fitting rate note) (lfo : Option (Lfo ℝ))
    {seconds : ℝ} (above : 0 ≤ seconds) : Agrees (fun mono => mono.size = ⌊seconds * rate⌋₊)
      (voicedPart note lfo seconds rate) (Mix.voicedPart note lfo seconds rate) := by
  refine (lengthOf_agrees above positive).told.bind fun count ⟨counted, long⟩ => ?_
  refine (tones_agrees counted note.frequencies).bind fun played sized => ?_
  refine (applyEnvelope_agrees played note.patch.envelope).bind fun enveloped shaped => ?_
  refine (applyFilter_agrees positive fitting enveloped).bind fun channels filtered => ?_
  refine .bind_ok (distort_eq (channels.headD #[]) note.patch.distortion) ?_
  have size : (Signal.distort (channels.headD #[]) note.patch.distortion).size = ⌊seconds * rate⌋₊ := by
    rw [size_distort, filtered, shaped, sized, long]
  cases lfo with
  | none => exact .pure (by rw [Array.size_map, size])
  | some l =>
    refine (lfoGain_agrees positive l note.at_).bind fun gain fits => ?_
    rw [combine_ok fits.symm]
    exact .of_ok (zip_ok fits.symm _) (by rw [Array.size_zipWith, fits, Nat.min_self, size])

end voice

section tails

theorem natPow_ok (x : ℝ) (n : ℕ) : ∃ y, natPow x n = .ok y := by
  unfold natPow
  exact ⟨_, if_pos rfl⟩

theorem countTaps_ok (feedback : ℝ) (fuel taps : ℕ) : ∃ n, countTaps feedback fuel taps = .ok n := by
  induction fuel generalizing taps with
  | zero => exact ⟨taps, rfl⟩
  | succ fuel ih =>
    obtain ⟨level, raised⟩ := natPow_ok feedback taps
    simp only [countTaps, raised, bind, Except.bind, pure, Except.pure]
    split
    · exact ih (taps + 1)
    · exact ⟨taps, rfl⟩

theorem tapCount_ok (feedback : ℝ) : ∃ n, tapCount feedback = .ok n := by
  unfold tapCount
  split
  · exact ⟨1, rfl⟩
  · exact countTaps_ok feedback maxTaps 1

theorem delayTail_ok (time feedback : ℝ) : ∃ tail, delayTail time feedback = .ok tail ∧ 0 ≤ tail := by
  obtain ⟨n, counted⟩ := tapCount_ok feedback
  simp only [delayTail, counted, bind, Except.bind, pure, Except.pure, real_natural, Nat.cast_zero]
  split
  · exact ⟨0, rfl, le_refl 0⟩
  · exact ⟨time * n, rfl, mul_nonneg (not_le.mp ‹_›).le n.cast_nonneg⟩

theorem reverbTail_nonneg (wet decay predelay : ℝ) : 0 ≤ reverbTail wet decay predelay := by
  simp only [reverbTail, real_natural, Nat.cast_zero, real_max, real_decimal]
  split
  · rfl
  · exact add_nonneg (le_max_of_le_right (by positivity)) (le_max_right _ _)

theorem tailSeconds_ok (p : Patch ℝ) : ∃ tail, Mix.tailSeconds p = .ok tail ∧ 0 ≤ tail := by
  obtain ⟨echoes, counted, above⟩ := delayTail_ok p.delay.time p.delay.feedback
  have room := reverbTail_nonneg p.reverb.wet p.reverb.decay p.reverb.predelay
  simp only [Mix.tailSeconds, counted, bind, Except.bind, pure, Except.pure]
  split
  · exact ⟨_, rfl, add_nonneg room above⟩
  · exact ⟨_, rfl, room⟩

end tails

section effects

variable {frames : ℕ} {rate : ℤ}

theorem pan_agrees (mono : Array ℝ) {place : Place ℝ} (covers : Covers place mono.size) :
    Agrees (Sized mono.size) (pan mono place) (Signal.pan mono place) := by
  obtain ⟨s, panned, same, sized⟩ := pan_ok mono covers
  rw [panned, same]
  exact .pure sized

/-- A room that was built is one whose response is not empty. -/
theorem impulse_agrees (fast : 8000 ≤ rate) (decay predelay : ℝ) : Agrees (fun room => ∃ n, 0 < n ∧ Sized n room)
    (impulse decay predelay rate) (Signal.impulse decay predelay rate) := by
  rw [impulse_eq]
  have positive : 0 < rate := by omega
  refine Agrees.bind (lengthOf_agrees ?_ positive) fun length long => ?_
  · rw [real_max, real_decimal]
    exact le_max_of_le_right (by positivity)
  refine Agrees.bind (lengthOf_agrees ?_ positive) fun pad _ => .pure ⟨pad + length, ?_, by simp [Sized]⟩
  · rw [real_max, real_natural, Nat.cast_zero]
    exact le_max_right _ _
  · rw [real_max, real_decimal] at long
    have enough : (1 : ℝ) ≤ max decay ((5 : ℕ) / 10 ^ 2) * rate := calc
      (1 : ℝ) ≤ (5 : ℕ) / 10 ^ 2 * (8000 : ℤ) := by norm_num
      _ ≤ max decay ((5 : ℕ) / 10 ^ 2) * rate := by
        gcongr
        exact le_max_right _ _
    have : 0 < length := by rwa [long, Nat.floor_pos]
    omega

theorem wetMix_ok (convolves : Convolves) {channel response : Array ℝ} (some : 0 < channel.size)
    (filled : 0 < response.size) (r : Reverb ℝ) : wetMix channel response r = .ok (Signal.wetMix channel response r) ∧
      (Signal.wetMix channel response r).size = channel.size := by
  have full := convolves channel response some filled
  -- the signal is no longer than the convolution, so that cutting twice is cutting once
  have cut : ((Venue.convolution channel response).extract 0 (channel.size + response.size - 1)).extract 0
      channel.size = (Venue.convolution channel response).extract 0 channel.size := by
    rw [Array.extract_extract]
    congr 1
    omega
  have long : channel.size = ((Venue.convolution channel response).extract 0 channel.size).size := by
    rw [Array.size_extract]
    omega
  unfold wetMix Signal.wetMix
  change zip _ channel (((Venue.convolution channel response).extract 0 (channel.size + response.size - 1)).extract 0
    channel.size) = .ok (Array.zipWith _ channel ((Venue.convolution channel response).extract 0 channel.size)) ∧
    (Array.zipWith _ channel ((Venue.convolution channel response).extract 0 channel.size)).size = channel.size
  rw [cut, zip_ok long, Array.size_zipWith, ← long, Nat.min_self]
  exact ⟨rfl, rfl⟩

theorem reverberate_agrees (convolves : Convolves) (fast : 8000 ≤ rate) (some : 0 < frames) {input : Stereo ℝ}
    (sized : Sized frames input) (r : Reverb ℝ) :
    Agrees (Sized frames) (reverberate input r rate)
      (Signal.reverberate input r (Signal.impulse (roomOf r).1 (roomOf r).2 rate)) := by
  refine .ite (fun dry => .pure ?_) fun wet => ?_
  · split
    · exact sized
    · simpa [Sized, Stereo.map] using sized
  · refine (impulse_agrees fast _ _).bind fun room ⟨n, filled, fits⟩ => ?_
    have heard : (input.size == 0 || room.size == 0) = false := by
      simp [Stereo.size, sized.1, fits.1, some.ne', filled.ne']
    obtain ⟨leftMixed, leftSize⟩ := wetMix_ok convolves (sized.1 ▸ some) (fits.1 ▸ filled) r
    obtain ⟨rightMixed, rightSize⟩ := wetMix_ok convolves (sized.2 ▸ some) (fits.2 ▸ filled) r
    rw [heard]
    refine .bind_ok leftMixed (.bind_ok rightMixed (.of_ok (stack_ok ?_) ⟨?_, ?_⟩))
    · rw [leftSize, rightSize, sized.1, sized.2]
    · rw [leftSize, sized.1]
    · rw [rightSize, sized.2]

theorem addInto_echo {channel : Array ℝ} (sized : channel.size = frames) {offset : ℕ} (there : offset < frames)
    {piece : Array ℝ} (fits : piece.size = frames - offset) {f : ℕ → ℝ}
    (each : ∀ i (inside : i < piece.size), piece[i] = f i) :
    addInto channel piece offset channel.size = .ok (addDelayed channel offset f) := by
  subst sized
  exact addInto_ok fits (by omega) le_rfl each

theorem addDelayed_sized {output : Stereo ℝ} (sized : Sized frames output) (offset : ℕ) (f g : ℕ → ℝ) :
    Sized frames ⟨addDelayed output.left offset f, addDelayed output.right offset g⟩ :=
  ⟨(size_addAt output.left offset f _).trans sized.1, (size_addAt output.right offset g _).trans sized.2⟩

theorem addEcho_ok {output : Stereo ℝ} (sized : Sized frames output) {offset : ℕ} (there : offset < frames)
    {left right : Array ℝ} (first : left.size = frames - offset) (second : right.size = frames - offset)
    {f g : ℕ → ℝ} (lefts : ∀ i (inside : i < left.size), left[i] = f i)
    (rights : ∀ i (inside : i < right.size), right[i] = g i) : addEcho output left right offset =
      .ok ⟨addDelayed output.left offset f, addDelayed output.right offset g⟩ := by
  obtain ⟨leftSize, rightSize⟩ := addDelayed_sized sized offset f g
  unfold addEcho
  rw [addInto_echo sized.1 there first lefts, addInto_echo sized.2 there second rights]
  exact stack_ok (leftSize.trans rightSize.symm)

theorem addTaps_agrees {input : Stereo ℝ} (sized : Sized frames input) {mono : Array ℝ} (mixed : mono.size = frames)
    (spacing : ℕ) (e : Echo ℝ) (count tap : ℕ) {output : Stereo ℝ} (kept : Sized frames output) :
    Agrees (Sized frames) (addTaps input mono spacing e count tap output)
      (Signal.addTaps input mono spacing e count tap output) := by
  induction count generalizing tap output with
  | zero => exact .pure kept
  | succ count ih =>
    rw [addTaps, Signal.addTaps]
    refine .ite (fun _ => .pure kept) fun within => ?_
    have there : spacing * tap < frames := by
      rw [Stereo.size, sized.1] at within
      omega
    obtain ⟨power, raised⟩ := natPow_ok e.feedback (tap - 1)
    rw [raised]
    have heard {x : Array ℝ} (whole : x.size = frames) (h : ℝ → ℝ) :
        ((x.extract 0 (x.size - spacing * tap)).map h).size = frames - spacing * tap := by
      rw [Array.size_map, Array.size_extract]
      omega
    refine .ite (fun _ => ?_) fun _ => ?_
    · refine .bind_ok (addEcho_ok kept there (heard mixed _) (heard mixed _) (fun i inside => getElem_heard _ inside)
        fun i inside => getElem_heard _ inside) (ih (tap + 1) ?_)
      exact addDelayed_sized kept _ _ _
    · refine .bind_ok (addEcho_ok kept there (heard sized.1 _) (heard sized.2 _)
        (fun i inside => getElem_heard _ inside) fun i inside => getElem_heard _ inside) (ih (tap + 1) ?_)
      exact addDelayed_sized kept _ _ _

theorem applyDelay_agrees {input : Stereo ℝ} (sized : Sized frames input) (e : Echo ℝ) :
    Agrees (Sized frames) (applyDelay input e rate) (Signal.applyDelay input e rate) := by
  obtain ⟨spacing, cut⟩ := toInt_ok (e.time * Scalar.ofInt rate)
  obtain ⟨taps, counted⟩ := tapCount_ok e.feedback
  have same : input.left.size = input.right.size := sized.1.trans sized.2.symm
  unfold applyDelay Signal.applyDelay
  rw [cut, counted]
  refine .ite (fun _ => .pure sized) fun _ => .bind_ok (zip_ok same _) ?_
  exact addTaps_agrees sized (by rw [Array.size_zipWith, sized.1, sized.2, Nat.min_self]) _ e taps 1 sized

end effects

/-- Rooms that were built for what they are looked up by. -/
def Faithful (rooms : Mix.Rooms ℝ) (rate : ℤ) : Prop :=
  ∀ room ∈ rooms, room.2 = Signal.impulse room.1.1 room.1.2 rate

theorem find_eq {rooms : Mix.Rooms ℝ} {rate : ℤ} (faithful : Faithful rooms rate) (r : Reverb ℝ) :
    rooms.find r rate = Signal.impulse (roomOf r).1 (roomOf r).2 rate := by
  unfold Mix.Rooms.find
  dsimp only
  split
  · rename_i key room found
    have looked := List.find?_some found
    simp only [Bool.and_eq_true, real_beq] at looked
    rw [← looked.1, ← looked.2]
    exact faithful _ (List.mem_of_find?_eq_some found)
  · rfl

theorem ofPatches_faithful (patches : List (Patch ℝ)) (rate : ℤ) :
    Faithful (Mix.Rooms.ofPatches patches rate) rate := by
  unfold Mix.Rooms.ofPatches
  refine List.foldlRecOn patches _ (motive := (Faithful · rate)) (by simp [Faithful]) fun rooms faithful p _ => ?_
  dsimp only
  split
  · exact faithful
  · exact List.forall_mem_cons.mpr ⟨rfl, faithful⟩

/-- The seconds for which a note sounds before its tails, of what is left until a horizon. -/
noncomputable def voicedSeconds (horizon : ℝ) (note : Note ℝ) : ℝ :=
  min note.duration (horizon - note.at_) + max note.patch.envelope.release (1 / 100)

theorem voicedSeconds_eq (horizon : ℝ) (note : Note ℝ) :
    Scalar.min note.duration (horizon - note.at_) + Scalar.max note.patch.envelope.release
      (@OfScientific.ofScientific ℝ Scalar.instOfScientific 1 true 2) = voicedSeconds horizon note := by
  rw [real_min, real_max, real_decimal, voicedSeconds]
  norm_num

omit [Venue] in
theorem voicedSeconds_ge {horizon : ℝ} {note : Note ℝ} (long : 0 < note.duration) (early : ¬ horizon ≤ note.at_) :
    1 / 100 ≤ voicedSeconds horizon note := by
  have ahead : 0 < horizon - note.at_ := sub_pos.mpr (not_le.mp early)
  have played : 0 ≤ min note.duration (horizon - note.at_) := (lt_min long ahead).le
  have released := le_max_right note.patch.envelope.release (1 / 100)
  unfold voicedSeconds
  linarith

/-- A note is heard unless its voice is silent or the horizon lies before it; its sound then
has the frames of its voiced part and of its tails. -/
def SoundOf (horizon : ℝ) (rate : ℤ) (lfo : Option (Lfo ℝ)) (note : Note ℝ) (sound : Option (Stereo ℝ)) : Prop :=
  if note.patch.gain = Venue.silence ∧ lfo = none ∨ horizon ≤ note.at_ then sound = none
  else ∃ s tail, sound = some s ∧ Mix.tailSeconds note.patch = .ok tail ∧ 0 ≤ tail ∧
    Sized (⌊voicedSeconds horizon note * rate⌋₊ + ⌊tail * rate⌋₊) s

theorem renderNote_agrees (convolves : Convolves) {rate : ℤ} (fast : 8000 ≤ rate) (horizon : ℝ) {rooms : Mix.Rooms ℝ}
    (faithful : Faithful rooms rate) (lfo : Option (Lfo ℝ)) {note : Note ℝ} (fitting : Fitting rate note) :
    Agrees (SoundOf horizon rate lfo note) (renderNote horizon rate lfo note)
      (Mix.renderNote horizon rate rooms lfo note) := by
  have positive : 0 < rate := by omega
  have muted : (note.patch.gain == Scalar.negInf && lfo.isNone) = true ↔
      note.patch.gain = Venue.silence ∧ lfo = none := by
    rw [Bool.and_eq_true, real_beq, Option.isNone_iff_eq_none]
    rfl
  have past : horizon - note.at_ ≤ @OfNat.ofNat ℝ 0 (Scalar.instOfNat 0) ↔ horizon ≤ note.at_ := by
    rw [real_natural, Nat.cast_zero, sub_nonpos]
  unfold SoundOf
  refine .ite (fun silent => .pure ?_) fun sounding => .ite (fun late => .pure ?_) fun early => ?_
  · rw [if_pos (.inl (muted.mp silent))]
  · rw [if_pos (.inr (past.mp late))]
  rw [muted] at sounding
  rw [past] at early
  have heard : ¬ (note.patch.gain = Venue.silence ∧ lfo = none ∨ horizon ≤ note.at_) := not_or.mpr ⟨sounding, early⟩
  simp only [if_neg heard]
  have least := voicedSeconds_ge fitting.long early
  have above : 0 ≤ voicedSeconds horizon note := le_trans (by norm_num) least
  obtain ⟨tail, told, positiveTail⟩ := tailSeconds_ok note.patch
  rw [voicedSeconds_eq, told, find_eq faithful]
  refine (voicedPart_agrees positive fitting lfo above).bind fun voiced long => ?_
  refine (paddingOf_agrees positiveTail positive).bind fun rest extra => ?_
  have size (x : ℝ) : (voiced ++ Array.replicate rest x).size =
      ⌊voicedSeconds horizon note * rate⌋₊ + ⌊tail * rate⌋₊ := by
    rw [Array.size_append, Array.size_replicate, long, extra]
  have filled (x : ℝ) : 0 < (voiced ++ Array.replicate rest x).size := by
    have audible : 0 < ⌊voicedSeconds horizon note * rate⌋₊ := Nat.floor_pos.mpr (calc
      (1 : ℝ) ≤ 1 / 100 * (8000 : ℤ) := by norm_num
      _ ≤ voicedSeconds horizon note * rate := by gcongr)
    rw [size]
    omega
  refine (pan_agrees _ (placeOf_covers note.patch note.at_ _ rate)).bind fun placed wide => ?_
  refine (reverberate_agrees convolves fast (filled _) wide note.patch.reverb).bind fun rung still => ?_
  refine (applyDelay_agrees still note.patch.delay).bind fun echoed kept => .pure ?_
  exact ⟨echoed, tail, rfl, rfl, positiveTail, size _ ▸ kept⟩

end Whole

end Partita
