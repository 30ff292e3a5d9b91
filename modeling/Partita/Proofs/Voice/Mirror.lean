import Partita.Proofs.Performance.Desk
import Partita.Proofs.Performance.Exact

/-! A voice mirrors its instrument. The gain is computed from three parameters, so that
every operation that moves one of them has to send it again. Operations are followed
call by call: what they make of the parameters, and of the patch of the voice. -/
namespace Partita

open Score (EffectKind)

variable {α : Type} [Scalar α]

/-- The patch of a voice that is in line with the parameters. -/
def Parameters.patch (p : Parameters α) : Patch α where
  gain := p.gain
  pan := p.pan
  filter := p.filter
  distortion := p.distortion
  envelope := p.envelope
  reverb := p.reverb
  delay := p.delay.echo
  autopan := p.autopan

/-- What can be asked of an instrument that is in tune with its voice. -/
inductive Operation (α : Type) where
  | setVolume (volume : α)
  | setPan (pan : α)
  | setFilter (s : Filter α)
  | setDistortion (amount : α)
  | setEnvelope (s : Envelope α)
  | setReverb (s : Reverb α)
  | setDelay (s : Delay α)
  | setAutopan (s : AutoPan α)
  | setAutovolume (s : AutoVolume α) (at_ : α)
  | begin (effect : String)
  | finish (effect : String) (at_ : α)
  | trigger (frequencies : List α) (duration at_ : α)
  | release

def Operation.act : Operation α → DeskM α Unit
  | .setVolume volume => Instrument.setVolume volume
  | .setPan pan => Instrument.setPan pan
  | .setFilter s => Instrument.setFilter s
  | .setDistortion amount => Instrument.setDistortion amount
  | .setEnvelope s => Instrument.setEnvelope s
  | .setReverb s => Instrument.setReverb s
  | .setDelay s => Instrument.setDelay s
  | .setAutopan s => Instrument.setAutopan s
  | .setAutovolume s at_ => Instrument.setAutovolume s at_
  | .begin effect => Instrument.begin effect
  | .finish effect at_ => Instrument.finish effect at_
  | .trigger frequencies duration at_ => Instrument.trigger frequencies duration at_
  | .release => Instrument.release

/-- What a call makes of the patch of a voice. -/
def Patch.hears (a : Patch α) : Call α → Patch α
  | .setGain db => { a with gain := db }
  | .setPan position => { a with pan := position }
  | .setFilter s => { a with filter := s }
  | .setDistortion amount => { a with distortion := amount }
  | .setEnvelope s => { a with envelope := s }
  | .setReverb s => { a with reverb := s }
  | .setDelay s => { a with delay := s }
  | .setAutopan s => { a with autopan := s }
  | .silence => { a with gain := Scalar.negInf, reverb.wet := 0, delay.wet := 0 }
  | .startLfo .. | .stopLfo _ | .trigger .. | .releaseAll => a

theorem Engine.apply_patch {e : Engine α} {id : Nat} {v : Voice α} (found : e.voices[id]? = some v) (call : Call α) :
    ∃ w, (e.apply id call).voices[id]? = some w ∧ w.patch = v.patch.hears call := by
  cases call with
  | startLfo rate low high at_ => simp [apply, found, Array.getElem?_modify, Patch.hears]
  | stopLfo index => exact ⟨v, found, rfl⟩
  | trigger frequencies duration at_ =>
    simp only [apply]
    split
    · exact ⟨v, found, rfl⟩
    · simp [found, Array.getElem?_modify, Patch.hears]
  | silence =>
    refine ⟨v.apply .silence, ?_, rfl⟩
    simp only [apply]
    split <;> simp [stopLfo, found, Array.getElem?_modify]
  | _ => simp [apply, found, Array.getElem?_modify, Voice.apply, Patch.hears]

namespace Desk

structure Has (id : Nat) (p : Parameters α) (a : Patch α) (d : Desk α) : Prop where
  willing : d.Willing
  params : d.instrument.params = p
  seat : d.instrument.voice = id
  voice : ∃ v, d.engine.voices[id]? = some v ∧ v.patch = a

/-- An operation that returns, and takes parameters and patch to others. -/
def Leads (p : Parameters α) (a : Patch α) (act : DeskM α Unit) (q : Parameters α) (b : Patch α) : Prop :=
  ∀ id d, d.Has id p a → ∃ e, runFrom act d = (.ok (), e) ∧ e.Has id q b

def Mirrors (id : Nat) (d : Desk α) : Prop := d.Has id d.instrument.params d.instrument.params.patch

/-- An operation that returns and keeps the voice in line. -/
def Tuned (act : DeskM α Unit) : Prop :=
  ∀ id (d : Desk α), d.Mirrors id → ∃ e, runFrom act d = (.ok (), e) ∧ e.Mirrors id

section operations

omit [Scalar α]

variable {p q r : Parameters α} {a b c : Patch α}

theorem Leads.of_pure : Leads p a (pure ()) p a := fun _ d has => ⟨d, rfl, has⟩

theorem Leads.bind {act next : DeskM α Unit} (first : Leads p a act q b) (rest : Leads q b next r c) :
    Leads p a (act >>= fun _ => next) r c := by
  intro id d has
  obtain ⟨e, ran, has⟩ := first id d has
  obtain ⟨f, ran', has⟩ := rest id e has
  exact ⟨f, by rw [runFrom_bind_ok ran, ran'], has⟩

theorem Leads.get_bind {next : Desk α → DeskM α Unit} (rest : ∀ d, Leads p a (next d) q b) :
    Leads p a (get >>= next) q b := fun id d has => rest d id d has

theorem Leads.current_bind {next : Parameters α → DeskM α Unit} (rest : Leads p a (next p) q b) :
    Leads p a (current >>= next) q b := by
  intro id d has
  obtain ⟨e, ran, has'⟩ := rest id d has
  refine ⟨e, ?_, has'⟩
  rw [current, bind_assoc, runFrom_get_bind, pure_bind, has.params, ran]

theorem Leads.of_change (f : Parameters α → Parameters α) : Leads p a (change f) (f p) a := by
  intro id d has
  exact ⟨_, rfl, has.willing, congrArg f has.params, has.seat, has.voice⟩

theorem Leads.of_log (severity : Severity) (text : String) : Leads p a (log severity text) p a := by
  intro id d has
  exact ⟨_, rfl, has.willing, has.params, has.seat, has.voice⟩

end operations

theorem Leads.of_send {p : Parameters α} {a : Patch α} (call : Call α) : Leads p a (send call) p (a.hears call) := by
  rintro _ d ⟨willing, params, rfl, v, found, rfl⟩
  obtain ⟨journal, sent⟩ := send_eq (willing call)
  obtain ⟨w, applied, same⟩ := Engine.apply_patch found call
  refine ⟨_, sent, ?_, params, rfl, w, applied, same⟩
  rw [Willing, refusal?_of_alike (by rfl) (d.engine.apply_alike _ call)]
  exact willing

theorem Tuned.of_leads {act : DeskM α Unit}
    (leads : ∀ p : Parameters α, ∃ q, Leads p p.patch act q q.patch) : Tuned act := by
  intro id d mirrors
  obtain ⟨q, leads⟩ := leads d.instrument.params
  obtain ⟨e, ran, has⟩ := leads id d mirrors
  refine ⟨e, ran, ?_⟩
  rw [Mirrors, has.params]
  exact has

theorem Tuned.bind {act next : DeskM α Unit} (first : Tuned act) (rest : Tuned next) :
    Tuned (act >>= fun _ => next) := by
  intro id d mirrors
  obtain ⟨e, ran, mirrors⟩ := first id d mirrors
  obtain ⟨f, ran', mirrors⟩ := rest id e mirrors
  exact ⟨f, by rw [runFrom_bind_ok ran, ran'], mirrors⟩

theorem Tuned.get_bind {next : Desk α → DeskM α Unit} (rest : ∀ d, Tuned (next d)) : Tuned (get >>= next) :=
  fun id d mirrors => rest d id d mirrors

end Desk

namespace Instrument

open Desk Leads

section calls

variable {p : Parameters α} {a : Patch α}

theorem applyGain_leads : Leads p a applyGain p { a with gain := p.gain } := current_bind (of_send _)

theorem applyFilter_leads : Leads p a applyFilter p { a with filter := p.filter } := current_bind (of_send _)

theorem applyEnvelope_leads : Leads p a applyEnvelope p { a with envelope := p.envelope } := current_bind (of_send _)

theorem applyReverb_leads : Leads p a applyReverb p { a with reverb := p.reverb } := current_bind (of_send _)

theorem applyDelay_leads : Leads p a applyDelay p { a with delay := p.delay.echo } := current_bind (of_send _)

/-- Sending every parameter brings any voice in line. -/
theorem sync_leads : Leads p a sync p p.patch := by
  refine current_bind ((of_send _).bind (applyFilter_leads.bind ?_))
  refine current_bind ((of_send _).bind (applyEnvelope_leads.bind ?_))
  refine applyReverb_leads.bind (applyDelay_leads.bind ?_)
  exact current_bind ((of_send _).bind applyGain_leads)

theorem dropLfo_leads : Leads p a dropLfo { p with lfo := none } a := by
  apply current_bind
  split
  · exact (of_send _).bind (of_change _)
  · rename_i idle
    rw [← idle]
    exact of_pure

end calls

theorem setVolume_tuned (volume : α) : Tuned (setVolume volume) := by
  refine .of_leads fun p => ⟨{ p with volume }, (of_change _).bind (current_bind (get_bind fun d => ?_))⟩
  dsimp only
  split
  · exact of_send _
  · exact (of_log _ _).bind (of_send _)

theorem setPan_tuned (pan : α) : Tuned (setPan pan) :=
  .of_leads fun p => ⟨{ p with pan }, (of_change _).bind (of_send _)⟩

theorem setFilter_tuned (s : Filter α) : Tuned (setFilter s) :=
  .of_leads fun p => ⟨{ p with filter := s },
    (of_change _).bind (applyFilter_leads.bind (get_bind fun _ => of_log _ _))⟩

theorem setDistortion_tuned (amount : α) : Tuned (setDistortion amount) :=
  .of_leads fun p => ⟨{ p with distortion := amount }, (of_change _).bind (of_send _)⟩

theorem setEnvelope_tuned (s : Envelope α) : Tuned (setEnvelope s) :=
  .of_leads fun p => ⟨{ p with envelope := s }, (of_change _).bind applyEnvelope_leads⟩

theorem setReverb_tuned (s : Reverb α) : Tuned (setReverb s) :=
  .of_leads fun p => ⟨{ p with reverb := s }, (of_change _).bind (applyReverb_leads.bind applyGain_leads)⟩

theorem setDelay_tuned (s : Delay α) : Tuned (setDelay s) := by
  refine .of_leads fun p => ⟨{ p with delay := s },
    (of_change _).bind (applyDelay_leads.bind (applyGain_leads.bind (current_bind (get_bind fun d => ?_))))⟩
  have warned (name : String) (q : Parameters α) (b : Patch α) : Leads q b (if 0.7 < s.feedback then
      log .info s!"{name}: high delay feedback ({Scalar.text s.feedback}), volume compensated"
      else pure () : DeskM α Unit) q b := by
    split
    · exact of_log _ _
    · exact of_pure
  dsimp only
  split
  · exact warned _ _ _
  · exact (of_log _ _).bind (warned _ _ _)

theorem setAutopan_tuned (s : AutoPan α) : Tuned (setAutopan s) :=
  .of_leads fun p => ⟨{ p with autopan := s }, (of_change _).bind (of_send _)⟩

/-- A swing that starts leaves the gain of the voice alone; one that is removed sends it
again. -/
theorem setAutovolume_tuned (s : AutoVolume α) (at_ : α) : Tuned (setAutovolume s at_) := by
  refine Tuned.bind (.of_leads fun p => ⟨_, dropLfo_leads⟩) ?_
  dsimp only
  split
  · refine .get_bind fun d => .of_leads fun p => ⟨{ p with lfo := some d.engine.lfos.size, autovolume := s }, ?_⟩
    exact (of_send _).bind ((of_change _).bind (of_change _))
  · exact .of_leads fun p => ⟨{ p with autovolume := s }, applyGain_leads.bind (of_change _)⟩

theorem restore_tuned (at_ : α) (saved : Snapshot α) : Tuned (restore at_ saved) := by
  cases saved with
  | filter s => exact setFilter_tuned s
  | distortion amount => exact setDistortion_tuned amount
  | reverb s => exact setReverb_tuned s
  | delay s => exact setDelay_tuned s
  | envelope s => exact setEnvelope_tuned s
  | pan position => exact setPan_tuned position
  | autopan s => exact setAutopan_tuned s
  | autovolume s => exact setAutovolume_tuned s at_
  | volume level => exact setVolume_tuned level

/-- An end takes a snapshot off the stack in any case, and brings it back if it is one
of the effect that is ended. -/
theorem finish_tuned (effect : String) (at_ : α) : Tuned (finish effect at_) := by
  intro id d mirrors
  rw [finish, current, bind_assoc, runFrom_get_bind, pure_bind]
  cases d.instrument.params.stack with
  | nil => exact ⟨d, rfl, mirrors⟩
  | cons saved rest =>
    refine Tuned.bind (.of_leads fun p => ⟨{ p with stack := rest }, of_change _⟩) ?_ id d mirrors
    dsimp only
    split
    · exact restore_tuned at_ saved
    · exact .of_leads fun p => ⟨p, get_bind fun _ => of_log _ _⟩

theorem trigger_tuned (frequencies : List α) (duration at_ : α) : Tuned (trigger frequencies duration at_) :=
  .of_leads fun p => ⟨p, of_send _⟩

theorem release_tuned : Tuned (release (α := α)) :=
  .of_leads fun p => ⟨{ p with lfo := none }, dropLfo_leads.bind (of_send _)⟩

theorem begin_tuned {effect : String} {kind : EffectKind} (known : EffectKind.ofName? effect = some kind) :
    Tuned (begin (α := α) effect) := by
  rw [begin, known]
  exact .of_leads fun p => ⟨{ p with stack := p.snapshot kind :: p.stack }, of_change _⟩

end Instrument

/-- Whether an operation does not begin an effect that there is not. -/
def Operation.isKnown : Operation α → Bool
  | .begin effect => (EffectKind.ofName? effect).isSome
  | _ => true

theorem Operation.tuned {op : Operation α} (known : op.isKnown = true) : Desk.Tuned op.act := by
  cases op with
  | setVolume volume => exact Instrument.setVolume_tuned volume
  | setPan pan => exact Instrument.setPan_tuned pan
  | setFilter s => exact Instrument.setFilter_tuned s
  | setDistortion amount => exact Instrument.setDistortion_tuned amount
  | setEnvelope s => exact Instrument.setEnvelope_tuned s
  | setReverb s => exact Instrument.setReverb_tuned s
  | setDelay s => exact Instrument.setDelay_tuned s
  | setAutopan s => exact Instrument.setAutopan_tuned s
  | setAutovolume s at_ => exact Instrument.setAutovolume_tuned s at_
  | begin effect =>
    obtain ⟨kind, found⟩ := Option.isSome_iff_exists.mp known
    exact Instrument.begin_tuned found
  | finish effect at_ => exact Instrument.finish_tuned effect at_
  | trigger frequencies duration at_ => exact Instrument.trigger_tuned frequencies duration at_
  | release => exact Instrument.release_tuned

omit [Scalar α] in
theorem Operation.eq_begin {op : Operation α} (unknown : op.isKnown = false) :
    ∃ effect, op = .begin effect ∧ EffectKind.ofName? effect = none := by
  cases op with
  | begin effect => exact ⟨effect, rfl, by simpa [isKnown] using unknown⟩
  | _ => contradiction

namespace Desk

def after (d : Desk α) (ops : List (Operation α)) : Desk α := ops.foldl (fun d op => (runFrom op.act d).2) d

theorem Mirrors.operate {id : Nat} {d : Desk α} (mirrors : d.Mirrors id) (op : Operation α) :
    (runFrom op.act d).2.Mirrors id := by
  cases known : op.isKnown with
  | true =>
    obtain ⟨e, ran, mirrors⟩ := op.tuned known id d mirrors
    rw [ran]
    exact mirrors
  | false =>
    obtain ⟨effect, rfl, unknown⟩ := op.eq_begin known
    rw [Operation.act, Instrument.begin, unknown]
    exact mirrors

theorem Mirrors.after {id : Nat} {d : Desk α} (mirrors : d.Mirrors id) (ops : List (Operation α)) :
    (d.after ops).Mirrors id := by
  induction ops generalizing d with
  | nil => exact mirrors
  | cons op rest ih => exact ih (mirrors.operate op)

/-- Once an instrument has sent its parameters, its voice has the patch that goes with
them, gain included, after every operation that follows, and every operation is carried
out but the begin of an effect that there is not. -/
theorem synced_voice_mirrors {d : Desk α} (willing : d.Willing)
    (there : d.instrument.voice < d.engine.voices.size) (ops : List (Operation α)) :
    ∃ synced, runFrom Instrument.sync d = (.ok (), synced) ∧
      (∃ v, (synced.after ops).engine.voices[d.instrument.voice]? = some v ∧
        v.patch = (synced.after ops).instrument.params.patch) ∧
      ∀ op : Operation α, (runFrom op.act (synced.after ops)).1 = .ok () ↔ op.isKnown = true := by
  have seated : d.Has d.instrument.voice d.instrument.params d.engine.voices[d.instrument.voice].patch :=
    ⟨willing, rfl, rfl, _, Array.getElem?_eq_getElem there, rfl⟩
  obtain ⟨synced, sent, has⟩ := Instrument.sync_leads d.instrument.voice d seated
  have mirrors : synced.Mirrors d.instrument.voice := by
    rw [Mirrors, has.params]
    exact has
  refine ⟨synced, sent, (mirrors.after ops).voice, fun op => ?_⟩
  constructor
  · intro returned
    cases known : op.isKnown with
    | true => rfl
    | false =>
      obtain ⟨effect, rfl, unknown⟩ := op.eq_begin known
      rw [Operation.act, Instrument.begin, unknown] at returned
      contradiction
  · intro known
    obtain ⟨e, ran, -⟩ := op.tuned known _ _ (mirrors.after ops)
    rw [ran]

def stale : Desk ℚ :=
  ⟨⟨"lead", 0, { (.initial : Parameters ℚ) with volume := 50, pan := 1 }⟩,
    { voices := #[(Voice.initial "lead" .full).apply .silence] }, #[]⟩

def etude : List (Operation ℚ) :=
  [.begin "delay", .setDelay (.capped 1 1 1 1 1), .setAutovolume ⟨0, 1, 2⟩ 0, .trigger [440] 1 0, .begin "volume",
    .setVolume 20, .setReverb ⟨1, 0, 2, 0⟩, .setAutovolume ⟨0, 1, 3⟩ 1, .finish "pan" 1, .begin "echo",
    .finish "delay" 2, .setAutovolume ⟨0, 0, 0⟩ 2, .finish "delay" 2, .release]

theorem synced_voice_mirrors_etude :
    stale.Willing ∧ stale.instrument.voice < stale.engine.voices.size ∧
      ∃ synced, runFrom Instrument.sync stale = (.ok (), synced) ∧
        (∃ v, (synced.after etude).engine.voices[0]? = some v ∧
          v.patch = (synced.after etude).instrument.params.patch) ∧
        ∀ op : Operation ℚ, (runFrom op.act (synced.after etude)).1 = .ok () ↔ op.isKnown = true := by
  have willing : stale.Willing := fun _ => rfl
  have there : stale.instrument.voice < stale.engine.voices.size := by decide
  exact ⟨willing, there, synced_voice_mirrors willing there etude⟩

end Desk

end Partita
