import Partita.Performance.Dispatch
import Partita.Proofs.Performance.Desk

/-! Operations of a performance that are none of its course: they concern the
instruments, the engine and the journal, and leave the runs, the session, the
clock and what was asked of the scheduler as they are. -/
namespace Partita

variable {α : Type}

/-- Two states of a performance between which its course stands still. The
journal grows by the entries `sounds` and others that do not sound. -/
structure Performance.Aside (sounds : List (Event α)) (p q : Performance α) : Prop where
  blocks : q.blocks = p.blocks
  config : q.config = p.config
  session : q.session = p.session
  clock : q.clock = p.clock
  runs : q.runs = p.runs
  outbox : q.outbox = p.outbox
  engine : p.engine.Alike q.engine
  voices : ∀ name, (p.voices.lookup name).isSome → (q.voices.lookup name).isSome
  owned : ∀ entry ∈ q.voices, entry ∈ p.voices ∨ entry.2 < q.engine.voices.size
  journal : Grows sounds p.journal q.journal

namespace Performance

theorem Aside.refl (p : Performance α) : p.Aside [] p :=
  ⟨rfl, rfl, rfl, rfl, rfl, rfl, .refl _, fun _ => id, fun _ => .inl, .refl _⟩

theorem Aside.trans {a b : List (Event α)} {p q r : Performance α} (first : p.Aside a q)
    (second : q.Aside b r) : p.Aside (a ++ b) r where
  blocks := second.blocks.trans first.blocks
  config := second.config.trans first.config
  session := second.session.trans first.session
  clock := second.clock.trans first.clock
  runs := second.runs.trans first.runs
  outbox := second.outbox.trans first.outbox
  engine := first.engine.trans second.engine
  voices name held := second.voices name (first.voices name held)
  owned entry member := by
    rcases second.owned entry member with old | new
    · exact (first.owned entry old).imp_right fun bound => Nat.lt_of_lt_of_le bound second.engine.voices
    · exact .inr new
  journal := first.journal.trans second.journal

instance : IsPreorder (Performance α) (Aside []) where
  refl := .refl
  trans _ _ _ first second := first.trans second

/-- An operation during which the course stands still and nothing sounds, with
faults of a kind. -/
def Still {β : Type} (E : Fault → Prop) (act : PerformM α β) : Prop := Within (Aside []) E act

variable {E : Fault → Prop}

theorem record_aside {e : Event α} (silent : e.isSounding = false) (other : e.isForeign = false) :
    Still E (record e) :=
  Within.of_modify fun p => { Aside.refl p with journal := .push_silent silent other _ }

theorem log_aside (severity : Severity) (text : String) :
    Still E (log (α := α) severity text) :=
  record_aside rfl (by simp [Event.isForeign, Event.isOfSession])

theorem stopSamples_aside : Still E (stopSamples (α := α)) := by
  have cleared : Still E (modify fun p => { p with engine := p.engine.stopSamples } : PerformM α Unit) :=
    Within.of_modify fun p => { Aside.refl p with
      engine := ⟨rfl, rfl, rfl, rfl, rfl, Nat.le_refl _, fun _ => by simp [Engine.Stocked, Engine.stopSamples]⟩ }
  refine cleared.bind fun _ => .of_get_bind fun p => ?_
  split
  · exact record_aside rfl rfl p
  · exact Within.of_pure () p

variable [Scalar α]

def deskOf (p : Performance α) (name : String) (voice : Nat) : Desk α :=
  ⟨⟨name, voice, (p.params.lookup name).getD Parameters.initial⟩, p.engine, p.journal⟩

theorem runFrom_onDesk {β : Type} (name : String) (voice : Nat) (act : DeskM α β) (p : Performance α) :
    runFrom (onDesk name voice act) p = ((runFrom act (p.deskOf name voice)).1,
      { p with
        params := assign name (runFrom act (p.deskOf name voice)).2.instrument.params p.params
        engine := (runFrom act (p.deskOf name voice)).2.engine
        journal := (runFrom act (p.deskOf name voice)).2.journal }) := by
  rcases ran : runFrom act (p.deskOf name voice) with ⟨result, desk⟩
  change StateT.run act.run (p.deskOf name voice) = (result, desk) at ran
  rw [deskOf] at ran
  simp only [onDesk, runFrom_get_bind, ran, runFrom_set_bind]
  cases result <;> rfl

theorem onDesk_aside_at {β : Type} {name : String} {voice : Nat} {act : DeskM α β}
    {sounds : List (Event α)} {p : Performance α}
    (kept : (p.deskOf name voice).Aside sounds (runFrom act (p.deskOf name voice)).2) :
    p.Aside sounds (runFrom (onDesk name voice act) p).2 := by
  rw [runFrom_onDesk]
  exact { Aside.refl p with engine := kept.engine, owned := fun _ => .inl, journal := kept.journal }

theorem onDesk_aside {β : Type} (name : String) (voice : Nat) {act : DeskM α β} (kept : Desk.Quiet act) :
    Still (fun _ => True) (onDesk name voice act) :=
  .of_related fun _ => onDesk_aside_at (kept _).1

theorem onInstrument_aside (name : String) {act : DeskM α Unit} (kept : Desk.Quiet act) (p : Performance α) :
    WithinAt (Aside []) p.engine.Raises (onInstrument name act) p := by
  rw [WithinAt, onInstrument, runFrom_get_bind]
  split
  · rename_i voice _
    refine ⟨onDesk_aside_at (kept _).1, fun f raised => (kept (p.deskOf name voice)).2 f ?_⟩
    rwa [runFrom_onDesk] at raised
  · exact ⟨.refl p, fun f raised => by cases raised⟩

theorem onInstruments_aside {act : DeskM α Unit} (kept : Desk.Quiet act) :
    Still (fun _ => True) (onInstruments act) := by
  refine .of_get_bind fun p => ?_
  refine Within.bind ?_ (fun _ => .of_pure ()) p
  exact .forIn fun x _ => (onDesk_aside x.1 x.2 kept).bind fun _ => .of_pure _

theorem normalizeVolumes_aside : Still (fun _ => True) (normalizeVolumes (α := α)) := by
  refine (onInstruments_aside Instrument.normalize_aside).bind fun _ => .of_get_bind fun p => ?_
  refine Within.bind ?_ (fun _ => log_aside _ _) p
  cases Scalar.toNearest (p.config.masterVolume * 100) with
  | ok n => exact .of_pure n
  | error f => exact .of_throw trivial

theorem createVoice_aside (name : String) (modes : List Mode) :
    Still (fun _ => True) (createVoice (α := α) name modes) := by
  induction modes with
  | nil => exact .of_throw trivial
  | cons mode rest ih =>
    refine .of_get_bind fun p => ?_
    split
    · exact (log_aside _ _).bind (fun _ => ih) p
    · rename_i id engine made
      have announced : Still (fun _ => True) (do
          unless mode == .full do log .warning s!"Using {mode.name} connection for {name} (fallback)"
          return id : PerformM α Nat) := by
        dsimp only
        split
        · exact .of_pure id
        · exact (log_aside _ _).bind fun _ => .of_pure id
      refine Within.set_bind_at { Aside.refl p with
        engine := Engine.createVoice_alike made, owned := fun _ => .inl } ?_
      dsimp only
      split
      · exact (record_aside rfl rfl).bind (fun _ => announced) _
      · exact announced _

theorem createVoice_bound {name : String} {modes : List Mode} {p q : Performance α} {id : Nat}
    (made : runFrom (createVoice name modes) p = (.ok id, q)) : id < q.engine.voices.size := by
  induction modes generalizing p with
  | nil => simp [createVoice] at made
  | cons mode rest ih =>
    simp only [createVoice, runFrom_get_bind] at made
    cases built : p.engine.createVoice name mode with
    | error f =>
      rw [built] at made
      obtain ⟨_, r, -, made⟩ := runFrom_bind_eq_ok made
      exact ih made
    | ok voice =>
      obtain ⟨voice, engine⟩ := voice
      simp only [built, runFrom_set_bind] at made
      have kept : voice = id ∧ engine = q.engine := by
        split at made <;> split at made <;> cases made <;> exact ⟨rfl, rfl⟩
      rw [← kept.1, ← kept.2]
      simp only [Engine.createVoice] at built
      repeat' split at built
      all_goals cases built
      simp

theorem ensureInstrument_aside (name : String) :
    Still (fun _ => True) (ensureInstrument (α := α) name) := by
  have built : Still (fun _ => True) (do
      let voice ← createVoice name Mode.all
      onDesk name voice Instrument.sync
      modify fun p => { p with voices := p.voices ++ [(name, voice)] }
      log .info s!"Created synth for block: {name}" : PerformM α Unit) := by
    intro p
    refine Within.bind_at (createVoice_aside name _ p) fun voice q made => ?_
    have synced := onDesk_aside name voice (α := α) Instrument.sync_aside
    refine Within.bind_at (synced q) fun _ r sent => ?_
    have bound : voice < r.engine.voices.size := by
      have kept := (synced q).1.engine.voices
      rw [sent] at kept
      exact Nat.lt_of_lt_of_le (createVoice_bound made) kept
    refine Within.bind_at ⟨?_, by simp⟩ fun _ s _ => log_aside _ _ s
    exact { Aside.refl r with
      voices := fun _ held => by simp [List.lookup_append, held]
      owned := fun entry member => by
        rcases List.mem_append.mp member with old | new
        · exact .inl old
        · obtain rfl := List.mem_singleton.mp new
          exact .inr bound }
  refine .of_get_bind fun p => ?_
  split
  · dsimp only
    split
    · exact Within.set_bind_at { Aside.refl p with } (built _)
    · exact built p
  · exact Within.of_pure () p

end Performance

end Partita
