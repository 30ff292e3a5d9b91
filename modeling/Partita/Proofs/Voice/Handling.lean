import Partita.Proofs.Voice.Sections

/-! What is done to an instrument is made of few parts: records, calls, effects that are
given a value, changes of the stack, and what starts and stops the oscillator. A relation
that these parts stay within is one that everything stays within, wherever it is refused. A
note that is played is a part of its own, for the relations that notes matter to. -/
namespace Partita

open Score (EffectKind)

variable {α : Type} [Scalar α]

omit [Scalar α] in
/-- Whether a call sets a parameter of a voice, or lets its notes fade: it neither plays a
note nor starts or stops an oscillator. -/
def Call.isPlain : Call α → Bool
  | .startLfo .. | .stopLfo _ | .trigger .. | .silence => false
  | _ => true

omit [Scalar α] in
/-- Whether a call plays notes. -/
def Call.isNote : Call α → Bool
  | .trigger .. => true
  | _ => false

namespace Desk

/-- An operation that stays within a relation, with faults of any kind. -/
abbrev Inside {β : Type} (R : Desk α → Desk α → Prop) (act : DeskM α β) : Prop := Within R (fun _ => True) act

/-- A relation that the parts of every operation stay within, notes apart. -/
structure Carries (R : Desk α → Desk α → Prop) : Prop where
  log : ∀ {severity : Severity} (text : String), severity ≠ .error → Inside R (log severity text)
  send : ∀ {call : Call α}, call.isPlain = true → Inside R (send call)
  assign : ∀ {saved : Snapshot α}, saved.kind ≠ .autovolume → Inside R (change (·.assign saved))
  pile : ∀ pile : Parameters α → List (Snapshot α), Inside R (change fun p => { p with stack := pile p })
  drop : Inside R Instrument.dropLfo
  swing : ∀ (s : AutoVolume α) (at_ : α), Inside R (Instrument.setAutovolume s at_)
  silence : Inside R Instrument.silence

namespace Carries

variable {R : Desk α → Desk α → Prop} [IsPreorder (Desk α) R]

omit [Scalar α] in
theorem current : Inside R (current (α := α)) := .of_get_bind fun d => Within.of_pure _ d

/-- A relation that all calls but those that play notes, and all changes of parameters, stay
within. -/
theorem of_calls
    (logged : ∀ {severity : Severity} (text : String), severity ≠ .error → Inside R (Desk.log severity text))
    (sent : ∀ {call : Call α}, call.isNote = false → Inside R (Desk.send call))
    (changed : ∀ f : Parameters α → Parameters α, Inside R (change f)) : Carries R := by
  have drop : Inside R Instrument.dropLfo := by
    refine current.bind fun p => ?_
    split
    · exact (sent rfl).bind fun _ => changed _
    · exact .of_pure ()
  refine ⟨logged, fun {call} plain => sent ?_, fun _ => changed _, fun _ => changed _, drop, fun s at_ => ?_,
    drop.bind fun _ => sent rfl⟩
  · cases call with
    | trigger => contradiction
    | _ => rfl
  · refine drop.bind fun _ => ?_
    dsimp only
    split
    · exact .of_get_bind fun d => ((sent rfl).bind fun _ => (changed _).bind fun _ => changed _) d
    · exact (current.bind fun _ => sent rfl).bind fun _ => changed _

variable (carries : Carries R)
include carries

theorem sendCurrent {call : Parameters α → Call α} (plain : ∀ p, (call p).isPlain = true) :
    Inside R (Desk.current >>= fun p => Desk.send (call p)) :=
  current.bind fun p => carries.send (plain p)

theorem sync : Inside R Instrument.sync :=
  current.bind fun _ => (carries.send rfl).bind fun _ => (carries.sendCurrent fun _ => rfl).bind fun _ =>
  current.bind fun _ => (carries.send rfl).bind fun _ => (carries.sendCurrent fun _ => rfl).bind fun _ =>
  (carries.sendCurrent fun _ => rfl).bind fun _ => (carries.sendCurrent fun _ => rfl).bind fun _ =>
  current.bind fun _ => (carries.send rfl).bind fun _ => carries.sendCurrent fun _ => rfl

theorem setVolume (volume : α) : Inside R (Instrument.setVolume volume) := by
  have changed : Inside R (change (·.assign (.volume volume))) := carries.assign (by simp [Snapshot.kind])
  refine changed.bind fun _ => current.bind fun p => .of_get_bind fun d => ?_
  dsimp only
  split
  · exact carries.send rfl d
  · exact ((carries.log _ (by simp)).bind fun _ => carries.send rfl) d

theorem setDelay (s : Delay α) : Inside R (Instrument.setDelay s) := by
  have changed : Inside R (change (·.assign (.delay s))) := carries.assign (by simp [Snapshot.kind])
  have warned (name : String) : Inside R (if 0.7 < s.feedback then
      Desk.log .info s!"{name}: high delay feedback ({Scalar.text s.feedback}), volume compensated"
      else pure () : DeskM α Unit) := by
    split
    · exact carries.log _ (by simp)
    · exact .of_pure ()
  refine changed.bind fun _ => (carries.sendCurrent fun _ => rfl).bind fun _ =>
    (carries.sendCurrent fun _ => rfl).bind fun _ => current.bind fun p => .of_get_bind fun d => ?_
  dsimp only
  split
  · exact warned _ d
  · exact ((carries.log _ (by simp)).bind fun _ => warned _) d

theorem restore (at_ : α) (saved : Snapshot α) : Inside R (Instrument.restore at_ saved) := by
  have changed (other : saved.kind ≠ .autovolume) : Inside R (change (·.assign saved)) := carries.assign other
  cases saved with
  | filter s =>
    exact (changed (by simp [Snapshot.kind])).bind fun _ => (carries.sendCurrent fun _ => rfl).bind fun _ =>
      .of_get_bind fun d => carries.log _ (by simp) d
  | distortion amount => exact (changed (by simp [Snapshot.kind])).bind fun _ => carries.send rfl
  | reverb s =>
    exact (changed (by simp [Snapshot.kind])).bind fun _ => (carries.sendCurrent fun _ => rfl).bind fun _ =>
      carries.sendCurrent fun _ => rfl
  | delay s => exact carries.setDelay s
  | envelope s => exact (changed (by simp [Snapshot.kind])).bind fun _ => carries.sendCurrent fun _ => rfl
  | pan position => exact (changed (by simp [Snapshot.kind])).bind fun _ => carries.send rfl
  | autopan s => exact (changed (by simp [Snapshot.kind])).bind fun _ => carries.send rfl
  | autovolume s => exact carries.swing s at_
  | volume level => exact carries.setVolume level

theorem begin (effect : String) : Inside R (Instrument.begin effect) := by
  unfold Instrument.begin
  split
  · exact carries.pile _
  · exact .of_throw trivial

theorem finish (effect : String) (at_ : α) : Inside R (Instrument.finish effect at_) := by
  refine current.bind fun p => ?_
  split
  · exact .of_pure ()
  · refine (carries.pile _).bind fun _ => ?_
    dsimp only
    split
    · exact carries.restore at_ _
    · exact .of_get_bind fun d => carries.log _ (by simp) d

theorem normalize : Inside R Instrument.normalize := by
  have sent : Inside R (do
      Instrument.sync
      let p ← Desk.current
      Desk.send (.setGain (volumeToDb p.volume + p.normalization)) : DeskM α Unit) :=
    carries.sync.bind fun _ => carries.sendCurrent fun _ => rfl
  refine current.bind fun p => ?_
  dsimp only
  split
  · have changed : Inside R (change (·.assign (.volume boostedVolume))) := carries.assign (by simp [Snapshot.kind])
    exact changed.bind fun _ => sent
  · exact sent

theorem operate (op : Operation α)
    (played : ∀ frequencies duration at_, op = .trigger frequencies duration at_ → Inside R op.act) :
    Inside R op.act := by
  cases op with
  | setVolume volume => exact carries.restore 0 (.volume volume)
  | setPan pan => exact carries.restore 0 (.pan pan)
  | setFilter s => exact carries.restore 0 (.filter s)
  | setDistortion amount => exact carries.restore 0 (.distortion amount)
  | setEnvelope s => exact carries.restore 0 (.envelope s)
  | setReverb s => exact carries.restore 0 (.reverb s)
  | setDelay s => exact carries.restore 0 (.delay s)
  | setAutopan s => exact carries.restore 0 (.autopan s)
  | setAutovolume s at_ => exact carries.restore at_ (.autovolume s)
  | begin effect => exact carries.begin effect
  | finish effect at_ => exact carries.finish effect at_
  | trigger frequencies duration at_ => exact played frequencies duration at_ rfl
  | release => exact carries.drop.bind fun _ => carries.send rfl

/-- Whatever is done to an instrument stays within the relation. -/
theorem act (step : Handling α)
    (played : ∀ frequencies duration at_, step = .operate (.trigger frequencies duration at_) →
      Inside R (Instrument.trigger frequencies duration at_)) :
    Inside R step.act := by
  cases step with
  | operate op =>
    refine carries.operate op fun frequencies duration at_ trigger => ?_
    subst trigger
    exact played frequencies duration at_ rfl
  | sync => exact carries.sync
  | applyGain => exact carries.sendCurrent fun _ => rfl
  | normalize => exact carries.normalize
  | silence => exact carries.silence

end Carries

end Desk

end Partita
