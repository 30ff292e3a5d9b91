import Partita.Proofs.Operation
import Partita.Voice.Instrument

/-! What operations on an instrument leave alone. They change its parameters and
call the engine; the engine keeps its setup, and the journal only grows. Only a
note that is triggered adds an entry that sounds. -/
namespace Partita

variable {α : Type}

namespace Event

def isSounding : Event α → Bool
  | .call _ (.trigger ..) => true
  | .playSample .. => true
  | _ => false

def isOfSession : Event α → Bool
  | .log r => r.source == "session"
  | _ => false

/-- Whether an entry is none of those that a run makes: a record of the session itself, or
a call on a playback device. -/
def isForeign : Event α → Bool
  | .device _ => true
  | e => e.isOfSession

theorem isOfSession_of_own {e : Event α} (own : e.isForeign = false) : e.isOfSession = false := by
  cases e with
  | device call => rfl
  | _ => exact own

end Event

/-- A fault that a run reports and passes over. -/
def Fault.Passing (f : Fault) : Prop := f.isSetup = false

theorem Fault.misuse_passing (m : Misuse) : (misuse m).Passing := rfl

/-- A journal that grows by entries of which those in `sounds` sound, and none of
which is foreign. -/
def Grows (sounds : List (Event α)) (before after : Array (Event α)) : Prop :=
  ∃ entries : List (Event α), after.toList = before.toList ++ entries ∧
    entries.filter Event.isSounding = sounds ∧ ∀ e ∈ entries, e.isForeign = false

namespace Grows

theorem refl (j : Array (Event α)) : Grows [] j j := ⟨[], by simp, rfl, by simp⟩

theorem trans {a b : List (Event α)} {j k l : Array (Event α)} (first : Grows a j k)
    (second : Grows b k l) : Grows (a ++ b) j l := by
  obtain ⟨xs, grown, sounds, others⟩ := first
  obtain ⟨ys, grown', sounds', others'⟩ := second
  refine ⟨xs ++ ys, by rw [grown', grown, List.append_assoc], by rw [List.filter_append, sounds, sounds'], ?_⟩
  intro e member
  rcases List.mem_append.mp member with left | right
  · exact others e left
  · exact others' e right

theorem push {e : Event α} (other : e.isForeign = false) (j : Array (Event α)) :
    Grows ([e].filter Event.isSounding) j (j.push e) :=
  ⟨[e], by simp, rfl, by simpa using other⟩

theorem push_silent {e : Event α} (silent : e.isSounding = false) (other : e.isForeign = false)
    (j : Array (Event α)) : Grows [] j (j.push e) := by
  simpa [silent] using push other j

theorem push_sounding {e : Event α} (sounding : e.isSounding = true) (other : e.isForeign = false)
    (j : Array (Event α)) : Grows [e] j (j.push e) := by
  simpa [sounding] using push other j

end Grows

/-- Whether a call sets something about a voice, rather than having it play. -/
def Call.isSetter : Call α → Bool
  | .startLfo .. | .trigger .. | .releaseAll => false
  | _ => true

namespace Engine

def Stocked (e : Engine α) : Prop := ∀ cue ∈ e.cues, e.hasSample cue.name = true

/-- Engines that differ only in what they were asked to play, and on how many voices. -/
structure Alike (e f : Engine α) : Prop where
  recorder : f.recorder = e.recorder
  failing : f.failing = e.failing
  refused : f.refused = e.refused
  samples : f.samples = e.samples
  closed : f.closed = e.closed
  voices : e.voices.size ≤ f.voices.size
  stocked : e.Stocked → f.Stocked

theorem Alike.refl (e : Engine α) : e.Alike e := ⟨rfl, rfl, rfl, rfl, rfl, Nat.le_refl _, id⟩

theorem Alike.trans {e f g : Engine α} (first : e.Alike f) (second : f.Alike g) : e.Alike g :=
  ⟨second.recorder.trans first.recorder, second.failing.trans first.failing,
    second.refused.trans first.refused, second.samples.trans first.samples,
    second.closed.trans first.closed, Nat.le_trans first.voices second.voices,
    fun stocked => second.stocked (first.stocked stocked)⟩

theorem Alike.refusal? {e f : Engine α} (same : e.Alike f) : f.refusal? = e.refusal? := by
  funext name call
  rw [Engine.refusal?, Engine.refusal?, same.refused]

/-- What an operation on an instrument may fail with: a fault that is passed over, or that of
a call which the engine refuses. -/
def Raises (e : Engine α) (f : Fault) : Prop :=
  f.Passing ∨ ∃ (name : String) (call : Call α), e.refusal? name call.name = some f

variable [Scalar α]

theorem apply_alike (e : Engine α) (id : Nat) (call : Call α) : e.Alike (e.apply id call) := by
  cases call with
  | startLfo rate low high at_ =>
    simp only [apply]
    split <;> exact ⟨rfl, rfl, rfl, rfl, rfl, by simp, fun stocked => stocked⟩
  | trigger frequencies duration at_ =>
    simp only [apply]
    split
    · exact .refl e
    · split <;> exact ⟨rfl, rfl, rfl, rfl, rfl, by simp, fun stocked => stocked⟩
  | silence =>
    simp only [apply]
    split <;> exact ⟨rfl, rfl, rfl, rfl, rfl, by simp [stopLfo], fun stocked => stocked⟩
  | _ => exact ⟨rfl, rfl, rfl, rfl, rfl, by simp [apply, stopLfo], fun stocked => stocked⟩

theorem createVoice_alike {e f : Engine α} {name : String} {mode : Mode} {id : Nat}
    (made : e.createVoice name mode = .ok (id, f)) : e.Alike f := by
  simp only [createVoice] at made
  split at made
  · contradiction
  · split at made
    · contradiction
    · cases made
      exact ⟨rfl, rfl, rfl, rfl, rfl, by simp, fun stocked => stocked⟩

end Engine

namespace Desk

/-- Operations on an instrument, seen from outside: the engine keeps its setup and
the journal grows by the entries that sound and others. -/
structure Aside (sounds : List (Event α)) (d e : Desk α) : Prop where
  engine : d.engine.Alike e.engine
  journal : Grows sounds d.journal e.journal

theorem Aside.refl (d : Desk α) : d.Aside [] d := ⟨.refl _, .refl _⟩

theorem Aside.trans {a b : List (Event α)} {d e f : Desk α} (first : d.Aside a e)
    (second : e.Aside b f) : d.Aside (a ++ b) f :=
  ⟨first.engine.trans second.engine, first.journal.trans second.journal⟩

instance : IsPreorder (Desk α) (Aside []) where
  refl := .refl
  trans _ _ _ first second := first.trans second

/-- An operation that leaves no sound behind, and fails only where a call is refused or with
a fault that a run passes over. -/
def Quiet {β : Type} (act : DeskM α β) : Prop := ∀ d, WithinAt (Aside []) d.engine.Raises act d

namespace Quiet

variable {β γ : Type}

theorem of_within {act : DeskM α β} (kept : Within (Aside []) Fault.Passing act) : Quiet act :=
  fun d => ⟨(kept d).1, fun f raised => .inl ((kept d).2 f raised)⟩

theorem of_pure (b : β) : Quiet (pure b : DeskM α β) := of_within (.of_pure b)

theorem of_throw {f : Fault} (passing : f.Passing) : Quiet (throw f : DeskM α β) := of_within (.of_throw passing)

theorem of_get_bind {next : Desk α → DeskM α β} (rest : ∀ d, WithinAt (Aside []) d.engine.Raises (next d) d) :
    Quiet (get >>= next) := rest

theorem bind {act : DeskM α β} {next : β → DeskM α γ} (first : Quiet act) (rest : ∀ b, Quiet (next b)) :
    Quiet (act >>= next) := by
  refine fun d => Within.bind_at (first d) fun b e ran => ?_
  have same := (first d).1.engine
  rw [ran] at same
  refine ⟨(rest b e).1, fun f raised => ?_⟩
  simpa only [Engine.Raises, same.refusal?] using (rest b e).2 f raised

end Quiet

theorem change_aside (f : Parameters α → Parameters α) : Quiet (change f) :=
  .of_within (.of_modify fun d => ⟨.refl d.engine, .refl d.journal⟩)

theorem current_aside : Quiet (current (α := α)) := .of_within (.of_get_bind fun d => Within.of_pure _ d)

theorem note_aside {e : Event α} (silent : e.isSounding = false) (other : e.isForeign = false) :
    Quiet (note e) :=
  .of_within (.of_modify fun d => ⟨.refl d.engine, .push_silent silent other _⟩)

theorem log_aside (severity : Severity) (text : String) : Quiet (log (α := α) severity text) :=
  note_aside rfl (by simp [Event.isForeign, Event.isOfSession])

variable [Scalar α]

theorem apply_aside (call : Call α) :
    Quiet (modify fun d => { d with engine := d.engine.apply d.instrument.voice call }) :=
  .of_within (.of_modify fun d => ⟨d.engine.apply_alike _ _, .refl _⟩)

theorem send_aside {call : Call α} (quiet : ∀ name, (Event.call name call).isSounding = false) :
    Quiet (send call) := by
  refine .of_get_bind fun d => ?_
  dsimp only
  cases refused : d.refusal? call with
  | some f =>
    refine ⟨.refl d, fun g raised => ?_⟩
    cases raised
    exact .inr ⟨_, call, refused⟩
  | none =>
    dsimp only
    split
    · refine (note_aside ?_ rfl).bind (fun _ => apply_aside call) d
      split
      · rfl
      · exact quiet _
    · split
      · exact (note_aside rfl (by simp [Event.isForeign, Event.isOfSession])).bind (fun _ => apply_aside _) d
      · exact apply_aside call d

omit [Scalar α] in
/-- An engine refuses what it refused before it was used. -/
theorem refusal?_of_alike {d e : Desk α} (name : e.instrument.name = d.instrument.name)
    (same : d.engine.Alike e.engine) : e.refusal? = d.refusal? := by
  funext call
  rw [refusal?, refusal?, name, same.refusal?]

/-- A call is refused, or carried out. -/
theorem send_cases (call : Call α) (d : Desk α) :
    (∃ f, d.refusal? call = some f ∧ runFrom (send call) d = (.error f, d)) ∨
      d.refusal? call = none ∧ ∃ journal, runFrom (send call) d =
        (.ok (), ⟨d.instrument, d.engine.apply d.instrument.voice call, journal⟩) := by
  rw [send, runFrom_get_bind]
  cases d.refusal? call with
  | some f => exact .inl ⟨f, rfl, rfl⟩
  | none =>
    refine .inr ⟨rfl, ?_⟩
    dsimp only
    split
    · exact ⟨_, rfl⟩
    · split <;> exact ⟨_, rfl⟩

theorem send_eq {call : Call α} {d : Desk α} (accepted : d.refusal? call = none) :
    ∃ journal, runFrom (send call) d =
      (.ok (), ⟨d.instrument, d.engine.apply d.instrument.voice call, journal⟩) := by
  obtain ⟨f, refused, -⟩ | ⟨-, sent⟩ := send_cases call d
  · cases accepted.symm.trans refused
  · exact sent

def Willing (d : Desk α) : Prop := ∀ call : Call α, d.refusal? call = none

theorem send_completes (call : Call α) : Completes Willing (send call) := by
  intro d willing
  obtain ⟨journal, sent⟩ := send_eq (willing call)
  refine ⟨(), _, sent, ?_⟩
  rw [Willing, refusal?_of_alike (by rfl) (d.engine.apply_alike _ call)]
  exact willing

theorem send_current_completes {P : Desk α → Prop} {call : Parameters α → Call α}
    (accepted : ∀ p, Completes P (send (call p))) : Completes P (current >>= fun p => send (call p)) :=
  Completes.bind (fun d holds => ⟨_, d, rfl, holds⟩) accepted

theorem send_trigger_aside {frequencies : List α} {duration at_ : α} {d : Desk α}
    (accepted : d.refusal? (.trigger frequencies duration at_) = none) :
    d.Aside (if d.engine.recorder then [.call d.instrument.name (.trigger frequencies duration at_)] else [])
      (runFrom (send (.trigger frequencies duration at_)) d).2 := by
  have applied (e : Desk α) (call : Call α) :
      e.Aside [] { e with engine := e.engine.apply e.instrument.voice call } :=
    ⟨e.engine.apply_alike _ _, .refl _⟩
  simp only [send, runFrom_get_bind, accepted]
  split
  · have noted : d.Aside [.call d.instrument.name (.trigger frequencies duration at_)]
        { d with journal := d.journal.push (.call d.instrument.name (.trigger frequencies duration at_)) } :=
      ⟨.refl _, .push_sounding rfl rfl _⟩
    exact noted.trans (applied _ _)
  · exact applied d _

end Desk

namespace Instrument

open Desk

theorem change_then {β : Type} {f : Parameters α → Parameters α} {next : DeskM α β}
    (rest : Quiet next) : Quiet (change f >>= fun _ => next) :=
  (change_aside f).bind fun _ => rest

theorem begin_aside (effect : String) : Quiet (begin (α := α) effect) := by
  unfold begin
  split
  · exact change_aside _
  · exact .of_throw rfl

variable [Scalar α]

theorem send_current_aside {call : Parameters α → Call α}
    (quiet : ∀ p name, (Event.call name (call p)).isSounding = false) :
    Quiet (current >>= fun p => send (call p)) :=
  current_aside.bind fun p => send_aside (quiet p)

theorem applyGain_aside : Quiet (applyGain (α := α)) :=
  send_current_aside fun _ _ => rfl

theorem sync_aside : Quiet (sync (α := α)) :=
  current_aside.bind fun _ => (send_aside fun _ => rfl).bind fun _ =>
  (send_current_aside fun _ _ => rfl).bind fun _ =>
  current_aside.bind fun _ => (send_aside fun _ => rfl).bind fun _ =>
  (send_current_aside fun _ _ => rfl).bind fun _ =>
  (send_current_aside fun _ _ => rfl).bind fun _ =>
  (send_current_aside fun _ _ => rfl).bind fun _ =>
  current_aside.bind fun _ => (send_aside fun _ => rfl).bind fun _ => applyGain_aside

theorem setVolume_aside (volume : α) : Quiet (setVolume volume) := by
  refine change_then (current_aside.bind fun p => .of_get_bind fun d => ?_)
  dsimp only
  split
  · exact send_aside (fun _ => rfl) d
  · exact (log_aside _ _).bind (fun _ => send_aside fun _ => rfl) d

theorem setPan_aside (pan : α) : Quiet (setPan pan) :=
  change_then (send_aside fun _ => rfl)

theorem setFilter_aside (s : Filter α) : Quiet (setFilter s) :=
  change_then ((send_current_aside fun _ _ => rfl).bind fun _ => .of_get_bind fun d => log_aside _ _ d)

theorem setDistortion_aside (amount : α) : Quiet (setDistortion amount) :=
  change_then (send_aside fun _ => rfl)

theorem setEnvelope_aside (s : Envelope α) : Quiet (setEnvelope s) :=
  change_then (send_current_aside fun _ _ => rfl)

theorem setReverb_aside (s : Reverb α) : Quiet (setReverb s) :=
  change_then ((send_current_aside fun _ _ => rfl).bind fun _ => applyGain_aside)

theorem setDelay_aside (s : Delay α) : Quiet (setDelay s) := by
  refine change_then ((send_current_aside fun _ _ => rfl).bind fun _ => applyGain_aside.bind fun _ =>
    current_aside.bind fun p => .of_get_bind fun d => ?_)
  have warned (name : String) : Quiet (if 0.7 < s.feedback then
      log .info s!"{name}: high delay feedback ({Scalar.text s.feedback}), volume compensated"
      else pure () : DeskM α Unit) := by
    split
    · exact log_aside _ _
    · exact .of_pure ()
  dsimp only
  split
  · exact warned _ d
  · exact (log_aside _ _).bind (fun _ => warned _) d

theorem setAutopan_aside (s : AutoPan α) : Quiet (setAutopan s) :=
  change_then (send_aside fun _ => rfl)

theorem dropLfo_aside : Quiet (dropLfo (α := α)) := by
  refine current_aside.bind fun p => ?_
  split
  · exact (send_aside fun _ => rfl).bind fun _ => change_aside _
  · exact .of_pure ()

theorem setAutovolume_aside (s : AutoVolume α) (at_ : α) :
    Quiet (setAutovolume s at_) := by
  refine dropLfo_aside.bind fun _ => ?_
  dsimp only
  split
  · exact .of_get_bind fun d => (send_aside fun _ => rfl).bind (fun _ => change_then (change_aside _)) d
  · exact applyGain_aside.bind fun _ => change_aside _

theorem restore_aside (at_ : α) (saved : Snapshot α) : Quiet (restore at_ saved) := by
  cases saved with
  | filter s => exact setFilter_aside s
  | distortion amount => exact setDistortion_aside amount
  | reverb s => exact setReverb_aside s
  | delay s => exact setDelay_aside s
  | envelope s => exact setEnvelope_aside s
  | pan position => exact setPan_aside position
  | autopan s => exact setAutopan_aside s
  | autovolume s => exact setAutovolume_aside s at_
  | volume level => exact setVolume_aside level

theorem finish_aside (effect : String) (at_ : α) : Quiet (finish effect at_) := by
  refine current_aside.bind fun p => ?_
  split
  · exact .of_pure ()
  · refine change_then ?_
    split
    · exact restore_aside at_ _
    · exact .of_get_bind fun d => log_aside _ _ d

theorem normalize_aside : Quiet (normalize (α := α)) := by
  have synced : Quiet (do
      sync
      let p ← current
      send (.setGain (volumeToDb p.volume + p.normalization)) : DeskM α Unit) :=
    sync_aside.bind fun _ => send_current_aside fun _ _ => rfl
  refine current_aside.bind fun p => ?_
  dsimp only
  split
  · exact change_then synced
  · exact synced

theorem release_aside : Quiet (release (α := α)) :=
  dropLfo_aside.bind fun _ => send_aside fun _ => rfl

theorem silence_aside : Quiet (silence (α := α)) :=
  dropLfo_aside.bind fun _ => send_aside fun _ => rfl

/-- An engine that takes whatever is set on a voice takes every parameter of an instrument. -/
theorem sync_completes_of {P : Desk α → Prop}
    (accepted : ∀ call : Call α, call.isSetter = true → Completes P (send call)) : Completes P (sync (α := α)) := by
  have then_ {next : DeskM α Unit} {call : Parameters α → Call α} (setter : ∀ p, (call p).isSetter = true)
      (rest : Completes P next) : Completes P (do
        let p ← current
        send (call p)
        next) :=
    Completes.bind (fun d holds => ⟨_, d, rfl, holds⟩) fun p => (accepted _ (setter p)).bind fun _ => rest
  have then' {next : DeskM α Unit} {call : Parameters α → Call α} (setter : ∀ p, (call p).isSetter = true)
      (rest : Completes P next) : Completes P (do
        (do send (call (← current)))
        next) :=
    (send_current_completes fun p => accepted _ (setter p)).bind fun _ => rest
  exact then_ (fun _ => rfl) <| then' (fun _ => rfl) <| then_ (fun _ => rfl) <| then' (fun _ => rfl) <|
    then' (fun _ => rfl) <| then' (fun _ => rfl) <| then_ (fun _ => rfl) <|
    send_current_completes fun _ => accepted _ rfl

/-- An engine that refuses no call takes every parameter of an instrument. -/
theorem sync_completes : Completes Willing (sync (α := α)) := sync_completes_of fun call _ => send_completes call

end Instrument

end Partita
