import Partita.Proofs.Whole.Levels
import Partita.Proofs.Whole.Sound

/-! A mix on whole arrays. Notes and samples are added to parts of buses that are as long as
they are, the gains of the dynamics are as many as there are frames, and the buses meet at
the end. So a mix has the frames of its length and two channels, or one without an axis of
its own, and no sample beyond full scale. -/
namespace Partita.Whole

open Signal

section overlay

variable {α : Type} [Scalar α]

def overlay (buffer note : Array α) (start rate : ℤ) : Except Fault (Array α) := do
  if start < 0 || (buffer.size : ℤ) ≤ start then return buffer
  let offset := start.toNat
  let stop := offset + note.size
  if stop ≤ buffer.size then addInto buffer note offset stop
  else
    let available := buffer.size - offset
    let fade ← @fadeLength α _ rate available
    let clipped := note.extract 0 available
    let faded ← if 1 < fade then scaleLast clipped (ramp 1 0 fade) fade else .ok clipped
    addInto buffer faded offset buffer.size

/-- A fade takes no more than what it is part of. -/
theorem fadeLength_le {rate : ℤ} {available fade : ℕ} (told : @fadeLength α _ rate available = .ok fade) :
    fade ≤ available := by
  unfold fadeLength at told
  cases most : Scalar.toInt (Scalar.ofInt rate * (0.01 : α)) with
  | error f =>
    rw [most] at told
    cases told
  | ok n =>
    rw [most] at told
    cases told
    omega

theorem overlay_eq (buffer note : Array α) (start rate : ℤ) :
    overlay buffer note start rate = Signal.overlay buffer note start rate := by
  unfold overlay Signal.overlay
  split
  · rfl
  rename_i within
  have inside : start.toNat < buffer.size := by
    simp only [Bool.or_eq_true, decide_eq_true_eq] at within
    omega
  dsimp only
  split
  · exact addInto_ok rfl rfl ‹_› fun i below => Array.getElem_eq_getD 0
  · rename_i long
    have fits : buffer.size = start.toNat + (buffer.size - start.toNat) := by omega
    have size : (note.extract 0 (buffer.size - start.toNat)).size = buffer.size - start.toNat := by
      rw [Array.size_extract]
      omega
    have read (i : ℕ) (below : i < (note.extract 0 (buffer.size - start.toNat)).size) :
        (note.extract 0 (buffer.size - start.toNat))[i] = note.getD i 0 := by
      rw [← Array.getElem_eq_getD (h := by omega) 0]
      simp
    cases told : @fadeLength α _ rate (buffer.size - start.toNat) with
    | error f => rfl
    | ok fade =>
      have enough : fade ≤ (note.extract 0 (buffer.size - start.toNat)).size := by
        rw [size]
        exact fadeLength_le told
      simp only [bind, Except.bind]
      split
      · obtain ⟨faded, scaled, sized, each⟩ := scaleLast_ok (size_ramp (1 : α) 0 fade) enough
        rw [scaled]
        refine addInto_ok (sized.trans size) fits le_rfl fun i below => ?_
        rw [each i below (sized ▸ below), read, size]
        split
        · rfl
        · have last : i - (buffer.size - start.toNat - fade) < fade := by omega
          simp [ramp, Array.getD, last]
      · exact addInto_ok size fits le_rfl read

end overlay

section render

variable {α : Type} [Acoustic α]

def mixSide (limited direct raw : Array α) (master : α) : Except Fault (Array α) := do
  let low : α := -1
  let high : α := 1
  let played ← zip (· + ·) limited (direct.map (· * master))
  let mix ← zip (· + ·) played raw
  return mix.map (Scalar.clamp low high)

theorem size_mixSide (limited direct raw : Array α) (master : α) :
    (Mix.mixSide limited direct raw master).size = limited.size := by simp [Mix.mixSide]

theorem mixSide_ok {limited direct raw : Array α} (first : limited.size = direct.size)
    (second : limited.size = raw.size) (master : α) :
    mixSide limited direct raw master = .ok (Mix.mixSide limited direct raw master) := by
  unfold mixSide
  have played := zip_ok (x := limited) (y := direct.map (· * master)) (by rw [Array.size_map, first]) (· + ·)
  have mixed := zip_ok (x := Array.zipWith (· + ·) limited (direct.map (· * master))) (y := raw)
    (by rw [Array.size_zipWith, Array.size_map, ← first, Nat.min_self, second]) (· + ·)
  simp only [played, mixed, bind, Except.bind]
  refine congrArg Except.ok (Array.ext (by simp [Mix.mixSide, ← first, ← second]) fun i inside here => ?_)
  have below : i < limited.size := by simpa [Mix.mixSide] using here
  simp [Mix.mixSide, Array.getD, below, ← first, ← second]

def overlayStereo (bus sound : Stereo α) (start rate : ℤ) : Except Fault (Stereo α) := do
  let ⟨left, right⟩ ← stack sound.left sound.right
  stack (← overlay bus.left left start rate) (← overlay bus.right right start rate)

def addTo (b : Mix.Buses α) (mode : Mode) (sound : Stereo α) (start rate : ℤ) : Except Fault (Mix.Buses α) := do
  match mode with
  | .full => return { b with full := ← overlayStereo b.full sound start rate }
  | .direct => return { b with direct := ← overlayStereo b.direct sound start rate }
  | .raw => return { b with raw := ← overlayStereo b.raw sound start rate }

def addNotes (e : Engine α) (horizon : α) (rate : ℤ) (mode : Mode) (state : Mix.Buses α × ℕ)
    (notes : List (Note α)) : Except Fault (Mix.Buses α × ℕ) :=
  notes.foldlM (fun (buses, count) note => do
    match ← renderNote horizon rate (note.lfo.bind (e.lfos[·]?)) note with
    | none => return (buses, count)
    | some sound => return (← addTo buses mode sound (← Mix.frameAt note.at_ rate) rate, count + 1)) state

def addSamples (e : Engine α) (rate : ℤ) (buses : Mix.Buses α) : Except Fault (Mix.Buses α) :=
  e.cues.toList.foldlM (fun buses cue => do
    if cue.gain == Scalar.negInf then return buses
    match e.samples.lookup cue.name with
    | none => throw (.missingSample cue.name)
    | some sample =>
      let gain := dbToGain cue.gain
      addTo buses .full (sample.map (·.map (· * gain))) (← Mix.frameAt cue.at_ rate) rate) buses

def mixdown (m : MixPlan α) (left right : Array α) : Except Fault (Audio α) := do
  let two : α := 2
  if m.channels == 1 then
    let mean ← zip (fun l r => Scalar.toSingle ((l + r) / two)) left right
    return Audio.mono mean
  else return Audio.ofStereo (← stack (left.map Scalar.toSingle) (right.map Scalar.toSingle))

def render (m : MixPlan α) (e : Engine α) : Except Fault (Mix.Rendered α) := do
  let frames ← sampleCount α (← m.frames) 16
  let silent := Mix.silentBus frames
  let (buses, count) ← (Mix.namedVoices e).foldlM
    (fun state v => addNotes e m.duration m.rate v.mode state v.notes.toList) (⟨silent, silent, silent⟩, 0)
  let buses ← addSamples e m.rate buses
  let master := m.masterVolume
  let comp := m.compressor.effective
  let compressed ← compress (buses.full.channels.map (·.map (· * master)))
    comp.threshold comp.ratio comp.attack comp.release m.rate 256
  let lim := m.limiter.effective
  let limited ← limit compressed.channels lim.threshold lim.release m.rate 64
  let left ← mixSide (limited.channels.getD 0 #[]) buses.direct.left buses.raw.left master
  let right ← mixSide (limited.channels.getD 1 #[]) buses.direct.right buses.raw.right master
  let audio ← mixdown m left right
  let seconds ← Score.quotient (Scalar.ofNat frames : α) (Scalar.ofInt m.rate)
  return {
    buffer := ⟨audio, m.rate⟩
    telemetry :=
      ⟨Scalar.abs compressed.last, Scalar.abs limited.last, Scalar.abs compressed.largest,
        Scalar.abs limited.largest⟩
    log := ⟨.info, "offline",
      s!"Rendered {count} notes and {e.cues.size} samples into {Scalar.fixed 1 seconds}s of audio"⟩ }

end render

section buses

variable [Exact.Venue] {frames : ℕ} {rate : ℤ}

open Exact

theorem overlay_agrees (buffer note : Array ℝ) (start rate : ℤ) :
    Agrees (fun sum => sum.size = buffer.size) (overlay buffer note start rate)
      (Signal.overlay buffer note start rate) := by
  rw [overlay_eq]
  have faded (available : ℕ) : ∃ fade, @fadeLength ℝ _ rate available = .ok fade := ⟨_, rfl⟩
  obtain ⟨fade, told⟩ := faded (buffer.size - start.toNat)
  refine .ite (fun _ => .pure rfl) fun _ => .ite (fun _ => .pure (size_addAt ..)) fun _ => ?_
  dsimp only
  rw [told]
  exact .ite (fun _ => .pure (size_addAt ..)) fun _ => .pure (size_addAt ..)

theorem overlayStereo_agrees {bus sound : Stereo ℝ} (wide : Sized frames bus)
    (paired : sound.left.size = sound.right.size) (start : ℤ) : Agrees (Sized frames)
      (overlayStereo bus sound start rate) (Mix.overlayStereo bus sound start rate) := by
  refine .bind_ok (stack_ok paired) ?_
  refine (overlay_agrees bus.left sound.left start rate).bind fun left first => ?_
  refine (overlay_agrees bus.right sound.right start rate).bind fun right second => ?_
  have same : left.size = right.size := by rw [first, second, wide.1, wide.2]
  exact .of_ok (stack_ok same) ⟨first.trans wide.1, second.trans wide.2⟩

def Long (frames : ℕ) (b : Mix.Buses ℝ) : Prop := Sized frames b.full ∧ Sized frames b.direct ∧ Sized frames b.raw

theorem addTo_agrees {b : Mix.Buses ℝ} (wide : Long frames b) (mode : Mode) {sound : Stereo ℝ}
    (paired : sound.left.size = sound.right.size) (start : ℤ) :
    Agrees (Long frames) (addTo b mode sound start rate) (b.add mode sound start rate) := by
  obtain ⟨full, direct, raw⟩ := wide
  cases mode with
  | full => exact (overlayStereo_agrees full paired start).bind fun _ sized => .pure ⟨sized, direct, raw⟩
  | direct => exact (overlayStereo_agrees direct paired start).bind fun _ sized => .pure ⟨full, sized, raw⟩
  | raw => exact (overlayStereo_agrees raw paired start).bind fun _ sized => .pure ⟨full, direct, sized⟩

theorem SoundOf.paired {horizon : ℝ} {lfo : Option (Lfo ℝ)} {note : Note ℝ} {s : Stereo ℝ}
    (sounds : SoundOf horizon rate lfo note (some s)) : s.left.size = s.right.size := by
  unfold SoundOf at sounds
  split at sounds
  · cases sounds
  · obtain ⟨t, tail, same, -, -, left, right⟩ := sounds
    cases same
    rw [left, right]

theorem addNotes_agrees (convolves : Convolves) (fast : 8000 ≤ rate) (e : Engine ℝ) (horizon : ℝ)
    {rooms : Mix.Rooms ℝ} (faithful : Faithful rooms rate) (mode : Mode) {state : Mix.Buses ℝ × ℕ}
    (wide : Long frames state.1) {notes : List (Note ℝ)} (fitting : ∀ note ∈ notes, Fitting rate note) :
    Agrees (fun state => Long frames state.1) (addNotes e horizon rate mode state notes)
      (Mix.addNotes e horizon rate rooms mode state notes) := by
  refine .foldlM (fun (buses, count) wide note member => ?_) wide
  refine (renderNote_agrees convolves fast horizon faithful _ (fitting note member)).bind fun sound sounds => ?_
  cases sound with
  | none => exact .pure wide
  | some sound =>
    obtain ⟨frame, placed⟩ := toNearest_ok (note.at_ * Scalar.ofInt rate)
    have at_ : Mix.frameAt note.at_ rate = .ok frame := placed
    rw [at_]
    exact (addTo_agrees wide mode sounds.paired frame).bind fun _ wide => .pure wide

theorem addSamples_agrees {e : Engine ℝ} (stocked : e.Stocked)
    (paired : ∀ sample ∈ e.samples, sample.2.left.size = sample.2.right.size) {buses : Mix.Buses ℝ}
    (wide : Long frames buses) :
    Agrees (Long frames) (addSamples e rate buses) (Mix.addSamples e rate buses) := by
  refine .foldlM (fun buses wide cue member => .ite (fun _ => .pure wide) fun _ => ?_) wide
  have there := stocked cue (Array.mem_toList_iff.mp member)
  cases found : e.samples.lookup cue.name with
  | none => simp [Engine.hasSample, found] at there
  | some sample =>
    obtain ⟨frame, placed⟩ := toNearest_ok (cue.at_ * Scalar.ofInt rate)
    have at_ : Mix.frameAt cue.at_ rate = .ok frame := placed
    have same : sample.left.size = sample.right.size := by
      obtain ⟨before, after, split, -⟩ := List.lookup_eq_some_iff.mp found
      exact paired (cue.name, sample) (by simp [split])
    dsimp only
    rw [at_]
    exact addTo_agrees wide .full (by simpa [Stereo.map] using same) frame

end buses

section mixing

variable [Exact.Venue]

open Exact

def FullScale (x : Array ℝ) : Prop := ∀ i (inside : i < x.size), -1 ≤ x[i] ∧ x[i] ≤ 1

theorem mixSide_fullScale (limited direct raw : Array ℝ) (master : ℝ) :
    FullScale (Mix.mixSide limited direct raw master) := by
  intro i inside
  simp only [Mix.mixSide, Array.getElem_mapIdx, real_clamp, real_natural, Nat.cast_one]
  exact ⟨le_min (le_max_right _ _) (by norm_num), min_le_right _ _⟩

namespace FullScale

variable {x y : Array ℝ}

theorem toSingle (low : FullScale x) : FullScale (x.map Scalar.toSingle) := by
  intro i inside
  rw [Array.getElem_map]
  exact low i (by simpa using inside)

theorem mean (low : FullScale x) (high : FullScale y) : FullScale
    (Array.zipWith (fun l r => Scalar.toSingle ((l + r) / @OfNat.ofNat ℝ 2 (Scalar.instOfNat 2))) x y) := by
  intro i inside
  obtain ⟨first, second⟩ := lt_min_iff.mp (Array.size_zipWith ▸ inside)
  obtain ⟨lowest, highest⟩ := low i first
  obtain ⟨least, most⟩ := high i second
  rw [Array.getElem_zipWith]
  simp only [real_natural]
  constructor
  · change -1 ≤ (x[i] + y[i]) / ((2 : ℕ) : ℝ)
    norm_num
    linarith
  · change (x[i] + y[i]) / ((2 : ℕ) : ℝ) ≤ 1
    norm_num
    linarith

end FullScale

/-- The audio of a mix: its frames on one channel without an axis of its own, or on two. -/
structure Shaped (m : MixPlan ℝ) (a : Audio ℝ) : Prop where
  shape : a.shape = if m.channels = 1 then [⌈m.duration * m.rate⌉₊] else [⌈m.duration * m.rate⌉₊, 2]
  channels : a.columns.size = if m.channels = 1 then 1 else 2
  frames : ∀ c ∈ a.columns, c.size = ⌈m.duration * m.rate⌉₊
  within : ∀ c ∈ a.columns, FullScale c

noncomputable def audioOf (m : MixPlan ℝ) (left right : Array ℝ) : Audio ℝ :=
  let two : ℝ := @OfNat.ofNat ℝ 2 (Scalar.instOfNat 2)
  if m.channels == 1 then Audio.mono (Array.zipWith (fun l r => Scalar.toSingle ((l + r) / two)) left right)
  else Audio.ofStereo ⟨left.map Scalar.toSingle, right.map Scalar.toSingle⟩

theorem mixdown_ok {m : MixPlan ℝ} {left right : Array ℝ} (first : left.size = ⌈m.duration * m.rate⌉₊)
    (second : right.size = ⌈m.duration * m.rate⌉₊) (low : FullScale left) (high : FullScale right) :
    mixdown m left right = .ok (audioOf m left right) ∧ Shaped m (audioOf m left right) := by
  have same : left.size = right.size := first.trans second.symm
  unfold mixdown audioOf
  by_cases single : m.channels = 1
  · simp only [single, beq_self_eq_true, if_true]
    refine ⟨by rw [zip_ok same]; rfl, ?_, ?_, ?_, ?_⟩
    · simp [single, Audio.mono, first, second]
    · simp [single, Audio.mono]
    · simp [Audio.mono, first, second]
    · simp only [Audio.mono, List.mem_toArray, List.mem_singleton, forall_eq]
      exact low.mean high
  · simp only [beq_iff_eq, single, if_false]
    refine ⟨by rw [stack_ok (by simpa using same)]; rfl, ?_, ?_, ?_, ?_⟩
    · simp [single, Audio.ofStereo, Stereo.size, first]
    · simp [single, Audio.ofStereo]
    · simp [Audio.ofStereo, first, second]
    · simp only [Audio.ofStereo, List.mem_toArray, List.mem_cons, List.not_mem_nil, or_false, forall_eq_or_imp,
        forall_eq]
      exact ⟨low.toSingle, high.toSingle⟩

theorem render_agrees (convolves : Convolves) {m : MixPlan ℝ} (long : 0 < m.duration) (fast : 8000 ≤ m.rate)
    {e : Engine ℝ} (stocked : e.Stocked) (paired : ∀ sample ∈ e.samples, sample.2.left.size = sample.2.right.size)
    (fitting : ∀ v ∈ Mix.namedVoices e, ∀ note ∈ v.notes, Fitting m.rate note) :
    Agrees (fun r => Shaped m r.buffer.audio) (render m e) (Mix.render m e) := by
  have positive : 0 < m.rate := by omega
  have ceiled : m.frames = .ok ⌈m.duration * m.rate⌉ := toCeil_eq (m.duration * m.rate)
  have above : 0 ≤ ⌈m.duration * m.rate⌉ :=
    Int.ceil_nonneg (mul_nonneg long.le (Int.cast_nonneg positive.le))
  have rooms := ofPatches_faithful ((Mix.namedVoices e).flatMap fun v => v.notes.toList.map (·.patch)) m.rate
  unfold render Mix.render
  rw [ceiled]
  refine (sampleCount_agrees above 16).bind fun frames told => ?_
  rw [Int.ceil_toNat] at told
  subst told
  have silent : Sized ⌈m.duration * m.rate⌉₊ (Mix.silentBus ⌈m.duration * m.rate⌉₊ : Stereo ℝ) := by
    simp [Sized, Mix.silentBus]
  have voiced := Agrees.foldlM (P := fun state : Mix.Buses ℝ × ℕ => Long ⌈m.duration * m.rate⌉₊ state.1)
    (fun _ wide v member => addNotes_agrees convolves fast e m.duration rooms v.mode wide
      fun note noted => fitting v member note (Array.mem_toList_iff.mp noted))
    (b := (⟨Mix.silentBus _, Mix.silentBus _, Mix.silentBus _⟩, 0)) ⟨silent, silent, silent⟩
  refine voiced.bind fun state wide => ?_
  refine (addSamples_agrees stocked paired wide).bind fun buses wide => ?_
  have framed : ∀ c ∈ buses.full.channels.map (·.map (· * m.masterVolume)), c.size = ⌈m.duration * m.rate⌉₊ := by
    simp [Stereo.channels, wide.1.1, wide.1.2]
  refine (compress_agrees (by simp [Stereo.channels]) framed (by decide) positive _ _ _ _).bind
    fun compressed kept => ?_
  obtain ⟨counted, framed⟩ := kept
  have some : compressed.channels ≠ [] := by
    rw [← List.length_pos_iff, counted]
    simp [Stereo.channels]
  refine (limit_agrees some framed (by decide) positive _ _).bind fun limited kept => ?_
  obtain ⟨paired, framed⟩ := kept
  rw [counted] at paired
  obtain ⟨first, second, both⟩ : ∃ first second, limited.channels = [first, second] := List.length_eq_two.mp paired
  have firstSize : first.size = ⌈m.duration * m.rate⌉₊ := framed first (by simp [both])
  have secondSize : second.size = ⌈m.duration * m.rate⌉₊ := framed second (by simp [both])
  obtain ⟨full, direct, raw⟩ := wide
  rw [both, Score.quotient_of_pos real_signed _ (real_signed.ofInt_pos m.rate positive)]
  refine .bind_ok (mixSide_ok (firstSize.trans direct.1.symm) (firstSize.trans raw.1.symm) _) ?_
  refine .bind_ok (mixSide_ok (secondSize.trans direct.2.symm) (secondSize.trans raw.2.symm) _) ?_
  obtain ⟨joined, shaped⟩ := mixdown_ok ((size_mixSide ..).trans firstSize) ((size_mixSide ..).trans secondSize)
    (mixSide_fullScale first _ _ _) (mixSide_fullScale second _ _ _)
  exact .bind_ok joined (.pure shaped)

/-- Whatever notes and samples a mix is made of, all arrays that are combined on the way have
the same length, and what comes of the notes and of the mix has the length it should have. -/
theorem mix_arrays_fit (convolves : Convolves) {m : MixPlan ℝ} (long : 0 < m.duration) (fast : 8000 ≤ m.rate)
    {e : Engine ℝ} (stocked : e.Stocked) (paired : ∀ sample ∈ e.samples, sample.2.left.size = sample.2.right.size)
    (fitting : ∀ v ∈ Mix.namedVoices e, ∀ note ∈ v.notes, Fitting m.rate note) :
    (∀ v ∈ Mix.namedVoices e, ∀ note ∈ v.notes,
      Agrees (SoundOf m.duration m.rate (note.lfo.bind (e.lfos[·]?)) note)
        (renderNote m.duration m.rate (note.lfo.bind (e.lfos[·]?)) note) (Mixdown.renderNote ⟨m, e⟩ note)) ∧
      Agrees (fun r => Shaped m r.buffer.audio) (render m e) (Mix.render m e) :=
  ⟨fun v member note noted => renderNote_agrees convolves fast m.duration (by simp [Faithful]) _
    (fitting v member note noted), render_agrees convolves long fast stocked paired fitting⟩

end mixing

open Exact

noncomputable def briefPlan : MixPlan ℝ := ⟨1 / 2, 8000, 1, 1, ⟨-24, 4, 0, 1 / 4, true⟩, ⟨-1, 0, true⟩⟩

noncomputable def briefPatch : Patch ℝ := ⟨0, -3, ⟨"lowpass", 2000, 1⟩, 2, ⟨-1, -1, 2, 0⟩, ⟨1 / 2, 1, 1, 0⟩,
  ⟨1 / 10, 1 / 2, true, 1, 1⟩, ⟨1, 1⟩⟩

noncomputable def briefEngine : Engine ℝ where
  voices := #[⟨"piano", .full, briefPatch, none, 1, #[⟨[440, 550], 1, 1 / 10, briefPatch, some 0⟩]⟩]
  names := [("piano", 0)]
  lfos := #[⟨0, 4, -12, 0, 0, true⟩]
  samples := [("drum", ⟨#[1, -1], #[1, 0]⟩)]
  cues := #[⟨"drum", -6, 9 / 20⟩]

theorem briefBand [Venue] : bandOf .low (2000 : ℝ) 1 8000 = .ok (some (.low (1 / 2))) := by
  have cutoff : Scalar.min (Scalar.max ((2000 : ℝ) / (Scalar.ofInt 8000 / @OfNat.ofNat ℝ 2 (Scalar.instOfNat 2)))
      (@OfScientific.ofScientific ℝ Scalar.instOfScientific 1 true 3))
      (@OfScientific.ofScientific ℝ Scalar.instOfScientific 99 true 2) = 1 / 2 := by
    rw [real_min, real_max, real_decimal, real_decimal, real_natural, real_integer]
    norm_num
  have steps : quantize (1 / 2 : ℝ) = .ok (1 / 2) := by
    have quotient : (1 / 2 : ℝ) / @OfScientific.ofScientific ℝ Scalar.instOfScientific 1 true 3 = (500 : ℕ) := by
      rw [real_decimal]
      norm_num
    have product : (Scalar.ofInt ((500 : ℕ) : ℤ) : ℝ) * @OfScientific.ofScientific ℝ Scalar.instOfScientific 1 true 3 =
        1 / 2 := by
      rw [real_decimal, real_integer]
      norm_num
    have nearest := toNearest_natCast 500
    rw [← quotient] at nearest
    unfold quantize
    dsimp only
    rw [nearest]
    exact congrArg Except.ok product
  have narrow : ¬ @OfScientific.ofScientific ℝ Scalar.instOfScientific 99 true 2 ≤ 1 / 2 := by
    rw [real_decimal]
    norm_num
  unfold bandOf
  rw [Score.quotient_of_pos real_signed _ (real_signed.half_pos 8000 (by decide))]
  simp only [bind, Except.bind]
  rw [cutoff, if_neg narrow, steps]
  rfl

theorem mix_arrays_fit_brief : letI := ideal
    Convolves ∧ briefEngine.Stocked ∧ (∀ v ∈ Mix.namedVoices briefEngine, ∀ note ∈ v.notes, Fitting 8000 note) ∧
      ∃ r, Mix.render briefPlan briefEngine = .ok r ∧ r.buffer.audio.shape = [4000] := by
  let venue := ideal
  have convolves : Convolves := by
    intro x h _ _
    exact Array.size_ofFn
  have stocked : briefEngine.Stocked := by simp [Engine.Stocked, Engine.hasSample, briefEngine]
  have fitting : ∀ v ∈ Mix.namedVoices briefEngine, ∀ note ∈ v.notes, Fitting 8000 note := by
    simp only [Mix.namedVoices, briefEngine, List.filterMap_cons, List.filterMap_nil, List.getElem?_toArray,
      List.getElem?_cons_zero, List.mem_singleton, forall_eq, List.mem_toArray]
    have known : FilterKind.ofName? briefPatch.filter.kind = some .low := by decide +kernel
    refine ⟨one_pos, ⟨_, known⟩, fun kind band told asked => ?_⟩
    cases Option.some.inj (known.symm.trans told)
    cases Option.some.inj (Except.ok.inj (briefBand.symm.trans asked))
    simp only [Band.Legal, real_natural]
    norm_num
  refine ⟨convolves, stocked, fitting, ?_⟩
  obtain ⟨-, -, ends⟩ := mix_arrays_fit convolves (m := briefPlan) (by norm_num [briefPlan]) (by decide) stocked
    (by simp [briefEngine]) fitting
  obtain ⟨r, rendered, shaped⟩ | ⟨-, -, -, bytes, limited⟩ := ends
  · refine ⟨r, rendered, shaped.shape.trans ?_⟩
    norm_num [briefPlan]
  · cases limited

end Partita.Whole
