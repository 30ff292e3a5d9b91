import Partita.Mix.Mixdown
import Partita.Proofs.Performance.Desk
import Partita.Proofs.Score.Counts

/-! What can go wrong in a mix. Whatever notes and samples an engine was asked to play,
mixing them fails only where a number has no integer part or leaves the range, where a
length or a band makes no sense, or where a filter is unknown; nothing is ever divided by
zero, and no sample is missing that was there when it was played. Notes with tails of more
samples than an index can count are the only ones that it fails on in another way. -/
namespace Partita

variable {α β : Type}

/-- The faults of a computation with numbers and signals. -/
def Fault.IsNumeric (f : Fault) : Prop := f.kind = "ValueError" ∨ f.kind = "OverflowError"

instance (f : Fault) : Decidable f.IsNumeric := inferInstanceAs (Decidable (_ ∨ _))

abbrev Numeric (x : Except Fault β) : Prop := Confined Fault.IsNumeric x

/-- The faults of a mix. A tail that no index reaches the end of has one of its own. -/
def Fault.IsOfMix (endless : Bool) (f : Fault) : Prop := f.IsNumeric ∨ f = .paddingLimit ∧ endless = true

theorem Fault.IsOfMix.mono {a b : Bool} {f : Fault} (kind : f.IsOfMix a) (later : a = true → b = true) :
    f.IsOfMix b :=
  kind.imp_right (And.imp_right later)

theorem Numeric.mixes {endless : Bool} {x : Except Fault β} (numeric : Numeric x) :
    Confined (Fault.IsOfMix endless) x :=
  numeric.mono fun _ => .inl

theorem Numeric.of_integer {β : Type} (x : Except NotFinite β) : Numeric (x.mapError Fault.ofNotFinite) := by
  cases x with
  | ok b => exact .of_ok b
  | error e => cases e <;> exact .of_error (by decide)

namespace Scalar

variable [Scalar α]

theorem toInt_numeric (x : α) : Numeric (toInt x) := .of_integer _

theorem toNearest_numeric (x : α) : Numeric (toNearest x) := .of_integer _

theorem toCeil_numeric (x : α) : Numeric (toCeil x) := .of_integer _

end Scalar

namespace Signal

section scalar

variable [Scalar α]

theorem sampleCount_numeric (n bytes : Int) : Numeric (sampleCount α n bytes) :=
  .of_if (fun _ => .of_error (by decide)) fun _ => .of_if (fun _ => .of_ok _) fun _ => .of_error (by decide)

theorem lengthOf_numeric (seconds : α) (rate : Int) : Numeric (lengthOf seconds rate) :=
  (Scalar.toInt_numeric _).bind fun _ => sampleCount_numeric _ _

def isBeyond (rate : Int) (seconds : α) : Bool :=
  match Scalar.toInt (Scalar.ofInt rate * seconds) with
  | .ok n => indexLimit ≤ n
  | .error _ => false

theorem paddingOf_confined (seconds : α) (rate : Int) :
    Confined (Fault.IsOfMix (isBeyond rate seconds)) (paddingOf seconds rate) := by
  unfold paddingOf isBeyond
  cases width : Scalar.toInt (Scalar.ofInt rate * seconds) with
  | error f => exact .of_error (.inl (Scalar.toInt_numeric _ f width))
  | ok n =>
    refine .of_if (fun _ => (sampleCount_numeric n 8).mixes) fun beyond => .of_error (.inr ⟨rfl, ?_⟩)
    simp only [Bool.or_eq_true, decide_eq_true_eq, not_or] at beyond ⊢
    omega

theorem triangle_numeric (frequency seconds : α) (rate : Int) (amplitude : α) :
    Numeric (triangle frequency seconds rate amplitude) :=
  (lengthOf_numeric seconds rate).bind fun _ => .of_ok _

theorem swing_numeric (seconds frequency : α) (rate : Int) (start : α) :
    Numeric (swing seconds frequency rate start) :=
  (lengthOf_numeric seconds rate).bind fun _ => .of_ok _

theorem applyEnvelope_numeric (signal : Array α) (e : Envelope α) (rate : Int) :
    Numeric (applyEnvelope signal e rate) := by
  have segments : Numeric (Segments.ofEnvelope e rate) :=
    (Scalar.toInt_numeric _).bind fun _ => (Scalar.toInt_numeric _).bind fun _ =>
      (Scalar.toInt_numeric _).bind fun _ => .of_ok _
  exact segments.bind fun _ => .of_ok _

theorem design_numeric (band : Band α) : Numeric (design band) := by
  cases band <;> exact .of_if (fun _ => .of_ok _) fun _ => .of_error (by decide)

theorem quantize_numeric (x : α) : Numeric (quantize x) := (Scalar.toNearest_numeric _).bind fun _ => .of_ok _

theorem bandOf_numeric (signed : Scalar.Signed α) {rate : Int} (positive : 0 < rate) (kind : FilterKind)
    (frequency q : α) : Numeric (bandOf kind frequency q rate) := by
  unfold bandOf
  rw [Score.quotient_of_pos signed _ (signed.half_pos rate positive)]
  cases kind with
  | low => exact .of_if (fun _ => .of_ok _) fun _ => (quantize_numeric _).bind fun _ => .of_ok _
  | high => exact (quantize_numeric _).bind fun _ => .of_ok _
  | band => exact (quantize_numeric _).bind fun _ => (quantize_numeric _).bind fun _ => .of_ok _

theorem applyFilter_numeric (signed : Scalar.Signed α) {rate : Int} (positive : 0 < rate)
    (channels : List (Array α)) (kind : String) (frequency q : α) :
    Numeric (applyFilter channels kind frequency q rate) := by
  unfold applyFilter
  split
  · exact .of_error (.inl rfl)
  · refine (bandOf_numeric signed positive _ _ _).bind fun band => ?_
    cases band with
    | none => exact .of_ok _
    | some band => exact (design_numeric band).bind fun _ => .of_ok _

theorem natPow_numeric (x : α) (n : Nat) : Numeric (natPow x n) :=
  .of_if (fun _ => .of_ok _) fun _ => .of_error (by decide)

theorem tapCount_numeric (feedback : α) : Numeric (tapCount feedback) := by
  have counted (fuel taps : Nat) : Numeric (countTaps feedback fuel taps) := by
    induction fuel generalizing taps with
    | zero => exact .of_ok taps
    | succ fuel ih =>
      exact (natPow_numeric feedback taps).bind fun _ => .of_if (fun _ => ih _) fun _ => .of_ok _
  exact .of_if (fun _ => .of_ok _) fun _ => counted _ _

theorem delayTail_numeric (time feedback : α) : Numeric (delayTail time feedback) :=
  .of_if (fun _ => .of_ok _) fun _ => (tapCount_numeric feedback).bind fun _ => .of_ok _

theorem addTaps_numeric (input : Stereo α) (mono : Array α) (spacing : Nat) (e : Echo α) (count tap : Nat)
    (output : Stereo α) : Numeric (addTaps input mono spacing e count tap output) := by
  induction count generalizing tap output with
  | zero => exact .of_ok output
  | succ count ih =>
    exact .of_if (fun _ => .of_ok _) fun _ => (natPow_numeric _ _).bind fun _ =>
      .of_if (fun _ => ih _ _) fun _ => ih _ _

theorem applyDelay_numeric (input : Stereo α) (e : Echo α) (rate : Int) : Numeric (applyDelay input e rate) :=
  (Scalar.toInt_numeric _).bind fun _ => .of_if (fun _ => .of_ok _) fun _ =>
    (tapCount_numeric e.feedback).bind fun _ => addTaps_numeric _ _ _ _ _ _ _

theorem combine_numeric (f : α → α → α) (x y : Array α) : Numeric (combine f x y) := by
  refine .of_if (fun _ => .of_ok _) fun _ => ?_
  split
  · exact .of_ok _
  · exact .of_ok _
  · exact .of_error (by decide)

theorem pan_numeric (mono : Array α) (place : Place α) : Numeric (pan mono place) := by
  cases place with
  | fixed position => exact .of_ok _
  | curve positions =>
    exact (combine_numeric _ _ _).bind fun _ => (combine_numeric _ _ _).bind fun _ => .of_ok _

theorem overlay_numeric (buffer note : Array α) (start rate : Int) : Numeric (overlay buffer note start rate) := by
  have faded (available : Nat) : Numeric (fadeLength (α := α) rate available) :=
    (Scalar.toInt_numeric _).bind fun _ => .of_ok _
  exact .of_if (fun _ => .of_ok _) fun _ => .of_if (fun _ => .of_ok _) fun _ =>
    (faded _).bind fun _ => .of_if (fun _ => .of_ok _) fun _ => .of_ok _

theorem blockSeconds_ok {block : Nat} {rate : Int} (some : block ≠ 0) (positive : 0 < rate) :
    blockSeconds block rate = .ok (Scalar.ofNat block / Scalar.ofInt rate : α) := by
  simp [blockSeconds, some, Int.ne_of_gt positive]

theorem compress_numeric (channels : List (Array α)) (frames : Nat) (threshold ratio attack release : α)
    {rate : Int} (positive : 0 < rate) {block : Nat} (some : block ≠ 0) :
    Numeric (compress channels frames threshold ratio attack release rate block) := by
  unfold compress
  rw [blockSeconds_ok some positive]
  exact .of_if (fun _ => .of_ok _) fun _ => .of_ok _

theorem limit_numeric (channels : List (Array α)) (frames : Nat) (threshold release : α) {rate : Int}
    (positive : 0 < rate) {block : Nat} (some : block ≠ 0) :
    Numeric (limit channels frames threshold release rate block) := by
  unfold limit
  rw [blockSeconds_ok some positive]
  exact .of_if (fun _ => .of_ok _) fun _ => .of_ok _

end scalar

variable [Acoustic α]

theorem impulse_numeric (decay predelay : α) (rate : Int) : Numeric (impulse decay predelay rate) :=
  (lengthOf_numeric _ _).bind fun _ => (lengthOf_numeric _ _).bind fun _ => .of_ok _

theorem reverberate_numeric (input : Stereo α) (r : Reverb α) {room : Except Fault (Stereo α)}
    (built : Numeric room) : Numeric (reverberate input r room) :=
  .of_if (fun _ => .of_ok _) fun _ => built.bind fun _ =>
    .of_if (fun _ => .of_error (by decide)) fun _ => .of_ok _

end Signal

namespace Mix

open Signal

variable [Acoustic α] (signed : Scalar.Signed α) {rate : Int} (positive : 0 < rate)

include signed positive in
theorem lfoGain_numeric (l : Lfo α) (at_ : α) (count : Int) : Numeric (lfoGain l at_ count rate) := by
  unfold lfoGain
  rw [Score.quotient_of_pos signed _ (signed.ofInt_pos rate positive)]
  exact (swing_numeric _ _ _ _).bind fun _ => .of_ok _

include signed positive in
theorem voicedPart_numeric (note : Note α) (lfo : Option (Lfo α)) (seconds : α) :
    Numeric (voicedPart note lfo seconds rate) := by
  have added (count : Nat) : Numeric (tones note.frequencies seconds rate count) :=
    .foldlM (fun _ _ _ => (triangle_numeric _ _ _ _).bind fun _ => .of_ok _) _
  refine (lengthOf_numeric _ _).bind fun _ => (added _).bind fun _ =>
    (applyEnvelope_numeric _ _ _).bind fun _ => (applyFilter_numeric signed positive _ _ _ _).bind fun _ => ?_
  cases lfo with
  | none => exact .of_ok _
  | some l => exact (lfoGain_numeric signed positive l _ _).bind fun _ => combine_numeric _ _ _

/-- Rooms that were built, or failed to be, by computation. -/
def Rooms.Built (rooms : Rooms α) : Prop := ∀ room ∈ rooms, Numeric room.2

theorem Rooms.ofPatches_built (patches : List (Patch α)) (rate : Int) : (Rooms.ofPatches patches rate).Built := by
  unfold Rooms.ofPatches
  refine List.foldlRecOn patches _ (motive := Rooms.Built) (by simp [Rooms.Built]) fun rooms built p _ => ?_
  dsimp only
  split
  · exact built
  · exact List.forall_mem_cons.mpr ⟨impulse_numeric _ _ _, built⟩

theorem Rooms.find_numeric {rooms : Rooms α} (built : rooms.Built) (r : Reverb α) (rate : Int) :
    Numeric (rooms.find r rate) := by
  unfold Rooms.find
  dsimp only
  split
  · rename_i room found
    exact built _ (List.mem_of_find?_eq_some found)
  · exact impulse_numeric _ _ _

theorem tailSeconds_numeric (p : Patch α) : Numeric (tailSeconds p) :=
  .of_if (fun _ => (delayTail_numeric _ _).bind fun _ => .of_ok _) fun _ => .of_ok _

/-- Whether the tails of a note have more samples than an index counts. -/
def hasEndlessTail (rate : Int) (note : Note α) : Bool := (tailSeconds note.patch).toOption.any (isBeyond rate)

/-- Whether the attack or the decay of a note has more samples than an index counts. Arrays that
are asked for such a ramp refuse it or leave it empty, by their own rounding of its length. -/
def hasEndlessRamp (rate : Int) (note : Note α) : Bool :=
  isBeyond rate note.patch.envelope.attack || isBeyond rate note.patch.envelope.decay

/-- Whether an engine was asked to play a note of a kind. -/
def plays (kind : Note α → Bool) (e : Engine α) : Bool := (namedVoices e).any fun v => v.notes.toList.any kind

include signed positive in
theorem renderNote_confined (horizon : α) {rooms : Rooms α} (built : rooms.Built) (lfo : Option (Lfo α))
    (note : Note α) :
    Confined (Fault.IsOfMix (hasEndlessTail rate note)) (renderNote horizon rate rooms lfo note) := by
  refine .of_if (fun _ => .of_ok _) fun _ => .of_if (fun _ => .of_ok _) fun _ => ?_
  refine (voicedPart_numeric signed positive _ _ _).mixes.bind fun _ =>
    (tailSeconds_numeric _).mixes.bind_of fun seconds told => ?_
  have padded : Confined (Fault.IsOfMix (hasEndlessTail rate note)) (paddingOf seconds rate) := by
    have tail : hasEndlessTail rate note = isBeyond rate seconds := by
      simp [hasEndlessTail, told, Except.toOption]
    rw [tail]
    exact paddingOf_confined seconds rate
  exact padded.bind fun _ => (pan_numeric _ _).mixes.bind fun _ =>
    (reverberate_numeric _ _ (Rooms.find_numeric built _ _)).mixes.bind fun _ =>
      (applyDelay_numeric _ _ _).mixes.bind fun _ => .of_ok _

theorem Buses.add_numeric (b : Buses α) (mode : Mode) (sound : Stereo α) (start rate : Int) :
    Numeric (b.add mode sound start rate) := by
  have laid (bus : Stereo α) : Numeric (overlayStereo bus sound start rate) :=
    (overlay_numeric _ _ _ _).bind fun _ => (overlay_numeric _ _ _ _).bind fun _ => .of_ok _
  cases mode <;> exact (laid _).bind fun _ => .of_ok _

include signed positive in
theorem addNotes_confined (e : Engine α) (horizon : α) {rooms : Rooms α} (built : rooms.Built) (mode : Mode)
    (state : Buses α × Nat) (notes : List (Note α)) :
    Confined (Fault.IsOfMix (notes.any (hasEndlessTail rate))) (addNotes e horizon rate rooms mode state notes) := by
  refine .foldlM (fun (buses, count) note member => ?_) state
  refine Confined.bind ((renderNote_confined signed positive horizon built _ note).mono fun f failed =>
    failed.mono fun endless => List.any_eq_true.mpr ⟨note, member, endless⟩) fun sound => ?_
  cases sound with
  | none => exact .of_ok _
  | some sound =>
    have added : Numeric (do return (← buses.add mode sound (← frameAt note.at_ rate) rate, count + 1)) :=
      (Scalar.toNearest_numeric _).bind fun _ => (buses.add_numeric _ _ _ _).bind fun _ => .of_ok _
    exact added.mixes

theorem addSamples_numeric {e : Engine α} (stocked : e.Stocked) (rate : Int) (buses : Buses α) :
    Numeric (addSamples e rate buses) := by
  refine .foldlM (fun buses cue member => ?_) buses
  refine .of_if (fun _ => .of_ok _) fun _ => ?_
  have there := stocked cue (Array.mem_toList_iff.mp member)
  split
  · rename_i missing
    simp [Engine.hasSample, missing] at there
  · exact (Scalar.toNearest_numeric _).bind fun _ => buses.add_numeric _ _ _ _

include signed in
/-- Mixing never divides by zero and misses no sample. -/
theorem render_confined {m : MixPlan α} (positive : 0 < m.rate) {e : Engine α} (stocked : e.Stocked) :
    Confined (Fault.IsOfMix (plays (hasEndlessTail m.rate) e)) (render m e) := by
  have sized : Numeric m.frames := Scalar.toCeil_numeric _
  refine sized.mixes.bind fun _ => (sampleCount_numeric _ _).mixes.bind fun frames => ?_
  refine Confined.bind (.foldlM (fun state v member => ?_) _) fun _ => ?_
  · exact (addNotes_confined signed positive e _ (Rooms.ofPatches_built _ _) _ _ _).mono fun f failed =>
      failed.mono fun endless => List.any_eq_true.mpr ⟨v, member, endless⟩
  refine (addSamples_numeric stocked _ _).mixes.bind fun _ => ?_
  refine (compress_numeric _ _ _ _ _ _ positive (by decide)).mixes.bind fun _ => ?_
  refine (limit_numeric _ _ _ _ positive (by decide)).mixes.bind fun _ => ?_
  rw [Score.quotient_of_pos signed _ (signed.ofInt_pos m.rate positive)]
  exact .of_ok _

end Mix

end Partita
