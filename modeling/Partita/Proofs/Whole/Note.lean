import Partita.Mix.Mixdown
import Partita.Proofs.Mix.Faults
import Partita.Proofs.Signal.Bands
import Partita.Proofs.Whole

/-! The sound of a note on whole arrays. Each step is told once more with arrays of the
lengths that it works out by itself: the envelope from its segments, the oscillator from the
seconds it swings for, the reverberation from a convolution that is cut, each echo from the
part of the signal that is still heard. The arrays fit at every step, and the sound has as
many frames as its voiced part and its tails. -/
namespace Partita.Whole

open Signal

section envelope

variable {α : Type} [Scalar α]

def segments (s : Segments) (sustain : α) (total : ℕ) : Array α :=
  ramp 0 1 (Segments.atLeastOne s.attack) ++ ramp 1 sustain (Segments.atLeastOne s.decay) ++
    Array.replicate (Segments.atLeastOne (s.sustain total)) sustain ++ ramp sustain 0 (Segments.atLeastOne s.release)

/-- The envelope is continued with silence if its segments end before the signal, and cut if
they do not. -/
def applyEnvelope (signal : Array α) (e : Envelope α) (rate : ℤ) : Except Fault (Array α) := do
  let s ← Segments.ofEnvelope e rate
  zip (· * ·) signal (fit (segments s (Scalar.clamp 0 1 e.sustain) signal.size) signal.size 0)

theorem getD_segments (s : Segments) (sustain : α) (total i : ℕ) :
    (segments s sustain total).getD i 0 = s.level sustain total i := by
  unfold segments Segments.level
  simp only [Array.getD_eq_getD_getElem?, Array.getElem?_append, Array.size_append, size_ramp, Array.size_replicate,
    getElem?_ramp, Array.getElem?_replicate]
  split_ifs <;> first | omega | rfl

theorem applyEnvelope_eq (signal : Array α) (e : Envelope α) (rate : ℤ) :
    applyEnvelope signal e rate = Signal.applyEnvelope signal e rate := by
  refine congrArg (Segments.ofEnvelope e rate >>= ·) (funext fun s => ?_)
  rw [zip_ok (size_fit ..).symm]
  refine congrArg Except.ok (Array.ext (by simp) fun i inside here => ?_)
  simp only [Array.getElem_zipWith, getElem_fit, getD_segments, Array.getElem_mapIdx]

end envelope

section shape

variable {α : Type} [Acoustic α]

def tones (frequencies : List α) (seconds : α) (rate : ℤ) (count : ℕ) : Except Fault (Array α) :=
  frequencies.foldlM (fun mono frequency => do
    let tone ← triangle frequency seconds rate Mix.noteAmplitude
    addInto mono (tone.extract 0 mono.size) 0 tone.size) (Array.replicate count 0)

/-- The swing is brought to the length that is asked for. -/
def lfoGain (l : Lfo α) (at_ : α) (count rate : ℤ) : Except Fault (Array α) := do
  let seconds ← Score.quotient (Scalar.ofInt count) (Scalar.ofInt rate)
  let wave ← swing seconds l.rate rate (at_ - l.start)
  let range := l.high - l.low
  return (fit wave count.toNat 0).map fun w => dbToGain (l.low + range * w)

theorem lfoGain_eq (l : Lfo α) (at_ : α) (count rate : ℤ) :
    lfoGain l at_ count rate = Mix.lfoGain l at_ count rate := by
  refine congrArg (Score.quotient _ _ >>= ·) (funext fun seconds => ?_)
  refine congrArg (swing seconds l.rate rate (at_ - l.start) >>= ·) (funext fun wave => ?_)
  refine congrArg Except.ok (Array.ext (by simp) fun i inside here => ?_)
  simp only [Array.getElem_map, getElem_fit, Array.getElem_ofFn]

def distort (signal : Array α) (amount : α) : Except Fault (Array α) :=
  let wet := Scalar.clamp 0 1 amount
  if wet ≤ 0 then .ok signal
  else
    let drive := 1 + Scalar.min (amount * 10) 100
    let top := Scalar.tanh drive
    zip (· + ·) (signal.map (· * (1 - wet))) ((signal.map fun x => Scalar.tanh (x * drive) / top).map (· * wet))

theorem distort_eq (signal : Array α) (amount : α) : distort signal amount = .ok (Signal.distort signal amount) := by
  unfold distort Signal.distort
  dsimp only
  split
  · rfl
  · rw [zip_ok (by simp)]
    refine congrArg Except.ok (Array.ext (by simp) fun i inside here => ?_)
    simp only [Array.getElem_zipWith, Array.getElem_map]

def pan (mono : Array α) : Place α → Except Fault (Stereo α)
  | .fixed position =>
    let angle := panAngle position
    stack (mono.map (· * Scalar.cos angle)) (mono.map (· * Scalar.sin angle))
  | .curve positions => do
    let angles := positions.map panAngle
    stack (← zip (· * ·) mono (angles.map Scalar.cos)) (← zip (· * ·) mono (angles.map Scalar.sin))

/-- A place for each sample of a signal of that size. -/
def Covers (place : Place α) (size : ℕ) : Prop := ∀ positions, place = .curve positions → positions.size = size

theorem placeOf_covers (p : Patch α) (at_ : α) (count : ℕ) (rate : ℤ) :
    Covers (Mix.placeOf p at_ count rate) count := by
  intro positions curved
  unfold Mix.placeOf at curved
  split at curved
  · cases curved
    simp [panCurve]
  · cases curved

theorem combine_ok {x y : Array α} (same : x.size = y.size) (f : α → α → α) :
    combine f x y = .ok (Array.zipWith f x y) := if_pos (beq_iff_eq.mpr same)

theorem pan_ok (mono : Array α) {place : Place α} (covers : Covers place mono.size) : ∃ s,
    Signal.pan mono place = .ok s ∧ pan mono place = .ok s ∧ s.left.size = mono.size ∧ s.right.size = mono.size := by
  cases place with
  | fixed position => exact ⟨_, rfl, stack_ok (by simp), by simp, by simp⟩
  | curve positions =>
    have same : mono.size = positions.size := (covers positions rfl).symm
    have sized : mono.size = (positions.map panAngle).size := by rwa [Array.size_map]
    have moved (f : α → α) : Array.zipWith (· * ·) mono ((positions.map panAngle).map f) =
        Array.zipWith (fun x p => x * f (panAngle p)) mono positions :=
      Array.ext (by simp) fun i _ _ => by simp
    unfold Signal.pan pan
    simp only [combine_ok same]
    rw [zip_ok (by simpa using sized), zip_ok (by simpa using sized), moved, moved]
    refine ⟨_, rfl, stack_ok (by simp), ?_, ?_⟩ <;> simp [same]

def impulse (decay predelay : α) (rate : ℤ) : Except Fault (Stereo α) := do
  let sampleRate : α := Scalar.ofInt rate
  let decay := Scalar.max decay 0.05
  let length ← lengthOf decay rate
  let pad ← lengthOf (Scalar.max predelay 0) rate
  let noise : Array α := Acoustic.noise (2 * length)
  let falloff : α := -6.9
  let times : Array α := Array.ofFn fun i : Fin length => Scalar.ofNat i / sampleRate
  let envelope := times.map fun t => Scalar.exp (falloff * t / decay)
  let column (side : ℕ) : Except Fault (Array α) := do
    let raw ← zip (· * ·) (Array.ofFn fun i : Fin length => noise.getD (2 * i + side) 0) envelope
    let energy := raw.foldl (fun total x => total + x * x) 0
    let norm := Scalar.sqrt energy + 1e-12
    return Array.replicate pad 0 ++ raw.map (· / norm)
  stack (← column 0) (← column 1)

theorem impulse_eq (decay predelay : α) (rate : ℤ) :
    impulse decay predelay rate = Signal.impulse decay predelay rate := by
  refine congrArg (lengthOf _ rate >>= ·) (funext fun length => ?_)
  refine congrArg (lengthOf _ rate >>= ·) (funext fun pad => ?_)
  have shaped (noise : Fin length → α) (envelope : α → α) : zip (· * ·) (Array.ofFn noise)
      ((Array.ofFn fun i : Fin length => Scalar.ofNat i / Scalar.ofInt rate).map envelope) =
        .ok (Array.ofFn fun i : Fin length => noise i * envelope (Scalar.ofNat i / Scalar.ofInt rate)) := by
    rw [zip_ok (by simp)]
    exact congrArg Except.ok (Array.ext (by simp) fun i _ _ => by simp)
  simp only [shaped, bind, Except.bind, pure, Except.pure]
  exact stack_ok (by simp)

/-- The whole convolution, cut to the length of the signal, next to the signal itself. -/
def wetMix (channel response : Array α) (r : Reverb α) : Except Fault (Array α) :=
  let whole := Acoustic.convolve channel response (channel.size + response.size - 1)
  zip (fun x t => x * r.dry * (1 - r.wet) + t * r.wet) channel (whole.extract 0 channel.size)

def reverberate (input : Stereo α) (r : Reverb α) (rate : ℤ) : Except Fault (Stereo α) := do
  if r.wet ≤ 0 then
    return if r.dry == 1 then input else input.map (·.map (· * r.dry))
  let (decay, predelay) := roomOf r
  let room ← impulse decay predelay rate
  if input.size == 0 || room.size == 0 then throw .lengthMismatch
  stack (← wetMix input.left room.left r) (← wetMix input.right room.right r)

def addEcho (output : Stereo α) (left right : Array α) (offset : ℕ) : Except Fault (Stereo α) := do
  stack (← addInto output.left left offset output.left.size) (← addInto output.right right offset output.right.size)

def addTaps (input : Stereo α) (mono : Array α) (spacing : ℕ) (e : Echo α) :
    (count tap : ℕ) → Stereo α → Except Fault (Stereo α)
  | 0, _, output => .ok output
  | count + 1, tap, output => do
    let offset := spacing * tap
    if input.size ≤ offset then return output
    let heard (x : Array α) : Array α := x.extract 0 (x.size - offset)
    let level := (← natPow e.feedback (tap - 1)) * e.wet
    if e.pingpong then
      let spread := Scalar.clamp 0 1 e.width
      let side : α := if tap % 2 == 1 then 1 else -1
      let half : α := 0.5
      let two : α := 2
      let left := half * (1 - side * spread)
      let right := half * (1 + side * spread)
      addTaps input mono spacing e count (tap + 1) (← addEcho output ((heard mono).map fun x => x * level * left * two)
        ((heard mono).map fun x => x * level * right * two) offset)
    else
      addTaps input mono spacing e count (tap + 1)
        (← addEcho output ((heard input.left).map (· * level)) ((heard input.right).map (· * level)) offset)

def applyDelay (input : Stereo α) (e : Echo α) (rate : ℤ) : Except Fault (Stereo α) := do
  let spacing ← Scalar.toInt (e.time * Scalar.ofInt rate)
  if spacing ≤ 0 || e.wet ≤ 0 then return input
  let two : α := 2
  let mono ← zip (fun l r => (l + r) / two) input.left input.right
  addTaps input mono spacing.toNat e (← tapCount e.feedback) 1 input

def voicedPart (note : Note α) (lfo : Option (Lfo α)) (seconds : α) (rate : ℤ) : Except Fault (Array α) := do
  let p := note.patch
  let count ← lengthOf seconds rate
  let mono ← tones note.frequencies seconds rate count
  let mono ← applyEnvelope mono p.envelope rate
  let mono := (← applyFilter [mono] p.filter.kind p.filter.frequency p.filter.q rate).headD #[]
  let mono ← distort mono p.distortion
  match lfo with
  | some l => zip (· * ·) mono (← lfoGain l note.at_ mono.size rate)
  | none =>
    let gain := dbToGain p.gain
    return mono.map (· * gain)

def renderNote (horizon : α) (rate : ℤ) (lfo : Option (Lfo α)) (note : Note α) :
    Except Fault (Option (Stereo α)) := do
  let p := note.patch
  if p.gain == Scalar.negInf && lfo.isNone then return none
  let remaining := horizon - note.at_
  if remaining ≤ 0 then return none
  let seconds := Scalar.min note.duration remaining + Scalar.max p.envelope.release 0.01
  let voiced ← voicedPart note lfo seconds rate
  let tail ← paddingOf (← Mix.tailSeconds p) rate
  let mono := voiced ++ Array.replicate tail 0
  let stereo ← pan mono (Mix.placeOf p note.at_ mono.size rate)
  let stereo ← reverberate stereo p.reverb rate
  let stereo ← applyDelay stereo p.delay rate
  return some stereo

end shape

section lengths

variable {α : Type} [Scalar α]

theorem triangle_ok {seconds : α} {rate : ℤ} {count : ℕ} (counted : lengthOf seconds rate = .ok count)
    (frequency amplitude : α) : ∃ tone, triangle frequency seconds rate amplitude = .ok tone ∧ tone.size = count := by
  unfold triangle
  rw [counted]
  exact ⟨_, rfl, by simp [instants]⟩

theorem size_recurFrom (x : Array α) (b0 b1 b2 b3 b4 a1 a2 a3 a4 : α) (fuel i : ℕ) (z1 z2 z3 z4 : α) (out : Array α) :
    (recurFrom x b0 b1 b2 b3 b4 a1 a2 a3 a4 fuel i z1 z2 z3 z4 out).size = out.size + min fuel (x.size - i) := by
  induction fuel generalizing i z1 z2 z3 z4 out with
  | zero => simp [recurFrom]
  | succ fuel ih =>
    unfold recurFrom
    split
    · rename_i beyond
      have : x.size ≤ i := Array.getElem?_eq_none_iff.mp beyond
      omega
    · rename_i there
      obtain ⟨inside, -⟩ := Array.getElem?_eq_some_iff.mp there
      rw [ih, Array.size_push]
      omega

theorem size_distort (signal : Array α) (amount : α) : (Signal.distort signal amount).size = signal.size := by
  unfold Signal.distort
  dsimp only
  split
  · rfl
  · exact Array.size_map

@[simp]
theorem size_recurrence (r : Recurrence α) (x : Array α) : (r.apply x).size = x.size := by
  simp [Recurrence.apply, size_recurFrom]

/-- What is still heard of a signal that is put off. -/
theorem getElem_heard {x : Array α} (h : α → α) {count i : ℕ} (inside : i < ((x.extract 0 count).map h).size) :
    ((x.extract 0 count).map h)[i] = h (x.getD i 0) := by
  have here : i < x.size := by
    rw [Array.size_map, Array.size_extract] at inside
    omega
  simp [Array.getD, here]

end lengths

end Partita.Whole
