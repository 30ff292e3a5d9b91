import Partita.Proofs.Performance.Step

/-! An engine that takes whatever is set on its voices, though it may have no route for a voice and
refuse to play. Then a block gets no run only for want of a route, and whatever is going on can be
ended at once. -/
namespace Partita

open Score

variable {α : Type}

/-- An engine that takes whatever is set on its voices. -/
def Engine.Obliging (e : Engine α) : Prop :=
  ∀ name (call : Call α), call.isSetter = true → e.refusal? name call.name = none

theorem Engine.Obliging.alike {e f : Engine α} (obliging : e.Obliging) (same : e.Alike f) : f.Obliging := by
  intro name call setter
  rw [same.refusal?]
  exact obliging name call setter

theorem Completes.forIn {σ ε ι : Type} {P : σ → Prop} {xs : List ι} {act : ι → ExceptT ε (StateM σ) PUnit}
    (each : ∀ x, Completes P (act x)) :
    Completes P (forIn xs PUnit.unit fun x _ => do
      act x
      pure (ForInStep.yield PUnit.unit)) := by
  induction xs with
  | nil => exact fun s holds => ⟨PUnit.unit, s, rfl, holds⟩
  | cons x rest ih =>
    rw [List.forIn_cons, bind_assoc]
    exact (each x).bind fun _ => ih

namespace Desk

variable [Scalar α]

def Obliging (d : Desk α) : Prop := d.engine.Obliging

theorem send_setter {call : Call α} (setter : call.isSetter = true) : Completes Obliging (send call) := by
  intro d obliging
  obtain ⟨journal, sent⟩ := send_eq (obliging _ call setter)
  exact ⟨(), _, sent, Engine.Obliging.alike obliging (d.engine.apply_alike _ call)⟩

end Desk

namespace Instrument

open Desk

variable [Scalar α]

theorem sync_obliged : Completes Obliging (sync (α := α)) := sync_completes_of fun _ => send_setter

theorem silence_obliged : Completes Obliging (silence (α := α)) := by
  have dropped : Completes Obliging (dropLfo (α := α)) := by
    refine Completes.bind (fun d holds => ⟨_, d, rfl, holds⟩) fun p => ?_
    split
    · exact (send_setter rfl).bind fun _ d holds => ⟨(), _, rfl, holds⟩
    · exact fun d holds => ⟨(), d, rfl, holds⟩
  exact dropped.bind fun _ => send_setter rfl

end Instrument

namespace Performance

variable [Scalar α]

def Obliging (p : Performance α) : Prop := p.engine.Obliging

theorem onDesk_obliged {β : Type} {act : DeskM α β} (name : String) (voice : Nat)
    (obliged : Completes Desk.Obliging act) : Completes Obliging (onDesk name voice act) := by
  intro p obliging
  obtain ⟨b, d, ran, kept⟩ := obliged (p.deskOf name voice) obliging
  have operated := runFrom_onDesk name voice act p
  rw [ran] at operated
  exact ⟨b, _, operated, kept⟩

theorem onInstruments_obliged {act : DeskM α Unit} (obliged : Completes Desk.Obliging act) :
    Completes Obliging (onInstruments act) := by
  intro p obliging
  have each (x : String × Nat) : Completes Obliging (onDesk x.1 x.2 act) := onDesk_obliged x.1 x.2 obliged
  obtain ⟨_, q, ran, kept⟩ := Completes.forIn each p obliging
  refine ⟨(), q, ?_, kept⟩
  simp only [onInstruments, runFrom_get_bind]
  exact runFrom_bind_ok ran

/-- Everything can be ended at once. -/
theorem forceStop_obliged {p : Performance α} (obliging : p.Obliging) : ∃ q, runFrom forceStop p = (.ok (), q) := by
  obtain ⟨_, r, silenced, -⟩ := onInstruments_obliged Instrument.silence_obliged p.dismissed obliging
  rw [forceStop, runFrom_get_bind, runFrom_dismiss, runFrom_bind_ok silenced]
  simp only [stopSamples, runFrom_modify_bind, bind_assoc, runFrom_get_bind]
  split <;> exact ⟨_, rfl⟩

theorem createVoice_fails {name : String} {modes : List Mode} {p q : Performance α} {f : Fault}
    (failed : runFrom (createVoice name modes) p = (.error f, q)) : f = .noRoute name := by
  induction modes generalizing p with
  | nil =>
    cases failed
    rfl
  | cons mode rest ih =>
    simp only [createVoice, runFrom_get_bind] at failed
    cases built : p.engine.createVoice name mode with
    | error g =>
      simp only [built, log, record, runFrom_modify_bind] at failed
      exact ih failed
    | ok voice =>
      obtain ⟨voice, engine⟩ := voice
      simp only [built, runFrom_set_bind] at failed
      split at failed <;> split at failed <;> cases failed

/-- An instrument is not built only for want of a route. -/
theorem ensureInstrument_fails {name : String} {p q : Performance α} (obliging : p.Obliging) {f : Fault}
    (failed : runFrom (ensureInstrument name) p = (.error f, q)) : f = .noRoute name := by
  rw [runFrom_ensureInstrument] at failed
  split at failed
  · generalize prepared : (if (p.params.lookup name).isNone then _ else p) = r at failed
    have obliging : r.Obliging := by
      rw [← prepared]
      split <;> exact obliging
    rcases made : runFrom (createVoice name Mode.all) r with ⟨result, s⟩
    have still := (createVoice_aside name Mode.all r).1
    rw [made] at still
    cases result with
    | error g =>
      rw [install, runFrom_bind_error made] at failed
      cases failed
      exact createVoice_fails made
    | ok voice =>
      obtain ⟨_, t, synced, -⟩ :=
        onDesk_obliged name voice Instrument.sync_obliged s (obliging.alike still.engine)
      rw [install, runFrom_bind_ok made, runFrom_bind_ok synced] at failed
      cases failed
  · cases failed

theorem spawn_fails {name : String} {position : α} {p q : Performance α} (obliging : p.Obliging) {f : Fault}
    (failed : runFrom (spawn name position) p = (.error f, q)) : ∃ block, f = .noRoute block := by
  simp only [spawn, runFrom_get_bind] at failed
  split at failed
  · cases failed
  · rcases ensured : runFrom (ensureInstrument name) p with ⟨result, r⟩
    cases result with
    | error g =>
      rw [runFrom_bind_error ensured] at failed
      cases failed
      exact ⟨name, ensureInstrument_fails obliging ensured⟩
    | ok =>
      rw [runFrom_bind_ok ensured] at failed
      cases failed

theorem spawn_alike (name : String) (position : α) (p : Performance α) :
    p.engine.Alike (runFrom (spawn name position) p).2.engine := by
  rcases spawn_cases p name position with still | ⟨lines, -, still⟩
  · exact still.engine
  · exact still.engine

/-- Blocks that are played together do not all get a run only for want of a route. -/
theorem play_fails {run : Run α} {names : List String} {p q : Performance α} (obliging : p.Obliging) {f : Fault}
    (failed : runFrom (play run names) p = (.error f, q)) : ∃ block, f = .noRoute block := by
  have each {names : List String} {p q : Performance α} (obliging : p.Obliging)
      (failed : runFrom (names.filterMapM fun name => spawn name run.position) p = (.error f, q)) :
      ∃ block, f = .noRoute block := by
    induction names generalizing p with
    | nil => cases failed
    | cons name rest ih =>
      rw [List.filterMapM_cons] at failed
      have alike := spawn_alike name run.position p
      rcases ran : runFrom (spawn name run.position) p with ⟨result, r⟩
      rw [ran] at alike
      cases result with
      | error g =>
        rw [runFrom_bind_error ran] at failed
        cases failed
        exact spawn_fails obliging ran
      | ok started =>
        rw [runFrom_bind_ok ran] at failed
        have later := ih (p := r) (Engine.Obliging.alike obliging alike)
        cases started with
        | none => exact later failed
        | some id =>
          rcases others : runFrom (rest.filterMapM fun name => spawn name run.position) r with ⟨result, s⟩
          cases result with
          | error g =>
            rw [runFrom_bind_error others] at failed
            cases failed
            exact later others
          | ok ids =>
            rw [runFrom_bind_ok others] at failed
            cases failed
  rcases ran : runFrom (names.filterMapM fun name => spawn name run.position) p with ⟨result, r⟩
  rw [play] at failed
  cases result with
  | error g =>
    rw [runFrom_bind_error ran] at failed
    cases failed
    exact each obliging ran
  | ok children =>
    rw [runFrom_bind_ok ran] at failed
    cases failed

end Performance

end Partita
