import Partita.Proofs.Performance.Accounting

/-! Ending everything at once. With an engine that fails no call, every voice in use
falls silent and nothing is left to be played, whatever came before. The runs that
were there belong to an earlier generation from then on: a turn of theirs, which may
still come, reads no line and moves neither the session nor the engine, even after
the performance is started again. -/
namespace Partita

open Score

variable {α : Type} [Scalar α]

namespace Engine

/-- A voice that plays nothing and has nothing left to play. -/
structure Mute (e : Engine α) (v : Voice α) : Prop where
  gain : v.patch.gain = Scalar.negInf
  reverb : v.patch.reverb.wet = 0
  delay : v.patch.delay.wet = 0
  notes : v.notes = #[]
  lfo : e.runningLfo? v = none

def Mutes (e : Engine α) (id : Nat) : Prop := ∃ v, e.voices[id]? = some v ∧ e.Mute v

omit [Scalar α] in
theorem runningLfo?_stopLfo (e : Engine α) (i : Nat) (v : Voice α) :
    (e.stopLfo i).runningLfo? v = (e.runningLfo? v).filter (· != i) := by
  simp only [runningLfo?, stopLfo, Option.filter_filter]
  congr 1
  funext j
  rw [Array.getElem?_modify]
  by_cases same : i = j
  · subst j
    cases e.lfos[i]? <;> simp
  · simp [same, bne_iff_ne.mpr (Ne.symm same)]

theorem Mutes.stopLfo {e : Engine α} {id : Nat} (mutes : e.Mutes id) (i : Nat) : (e.stopLfo i).Mutes id := by
  obtain ⟨v, found, mute⟩ := mutes
  exact ⟨v, found, { mute with lfo := by rw [runningLfo?_stopLfo, mute.lfo]; rfl }⟩

theorem apply_silence (e : Engine α) (id : Nat) : ∃ f : Engine α, e.apply id .silence =
    { f with voices := f.voices.modify id (·.apply .silence) } ∧ f.voices = e.voices ∧
    (∀ j, e.Mutes j → f.Mutes j) ∧ ∀ v, e.voices[id]? = some v → f.runningLfo? v = none := by
  cases swings : e.voices[id]?.bind (·.lfo) with
  | none =>
    refine ⟨e, by simp only [apply, swings], rfl, fun _ mutes => mutes, fun v found => ?_⟩
    simp [runningLfo?, show v.lfo = none by simpa [found] using swings]
  | some i =>
    refine ⟨e.stopLfo i, by simp only [apply, swings], rfl, fun _ mutes => mutes.stopLfo i, fun v found => ?_⟩
    have last : v.lfo = some i := by simpa [found] using swings
    rw [runningLfo?_stopLfo, runningLfo?, last]
    cases h : (e.lfos[i]?.map (·.running)).getD false <;> simp [Option.filter, h]

theorem silence_mutes {e : Engine α} {id : Nat} (there : id < e.voices.size) : (e.apply id .silence).Mutes id := by
  obtain ⟨f, silenced, voices, -, stopped⟩ := e.apply_silence id
  have found : e.voices[id]? = some e.voices[id] := Array.getElem?_eq_getElem there
  rw [silenced]
  refine ⟨e.voices[id].apply .silence, ?_, rfl, rfl, rfl, rfl, ?_⟩
  · rw [voices, Array.getElem?_modify, if_pos rfl, found, Option.map_some]
  · exact stopped e.voices[id] found

theorem Mutes.silence {e : Engine α} {j : Nat} (mutes : e.Mutes j) (id : Nat) :
    (e.apply id .silence).Mutes j := by
  by_cases own : id = j
  · obtain ⟨v, found, -⟩ := mutes
    exact own ▸ silence_mutes (own ▸ (Array.getElem?_eq_some_iff.mp found).1)
  · obtain ⟨f, silenced, -, kept, -⟩ := e.apply_silence id
    obtain ⟨v, found, mute⟩ := kept j mutes
    rw [silenced]
    exact ⟨v, by simpa [Array.getElem?_modify, own] using found, { mute with }⟩

end Engine

namespace Instrument

open Desk

theorem silence_ok {d : Desk α} (willing : d.Willing) (there : d.instrument.voice < d.engine.voices.size) :
    ∃ e, runFrom silence d = (.ok (), e) ∧ e.engine.Mutes d.instrument.voice ∧
      ∀ j, d.engine.Mutes j → e.engine.Mutes j := by
  obtain ⟨c, dropped, name, same, size, kept⟩ : ∃ c, runFrom dropLfo d = (.ok (), c) ∧
      c.instrument.name = d.instrument.name ∧ c.instrument.voice = d.instrument.voice ∧ d.engine.Alike c.engine ∧
      ∀ j, d.engine.Mutes j → c.engine.Mutes j := by
    cases swings : d.instrument.params.lfo with
    | none =>
      refine ⟨d, ?_, rfl, rfl, .refl _, fun _ mutes => mutes⟩
      simp only [dropLfo, current, bind_assoc, pure_bind, runFrom_get_bind, swings]
      rfl
    | some i =>
      obtain ⟨journal, sent⟩ := send_eq (willing (.stopLfo i))
      have ran : runFrom dropLfo d = (.ok (), ⟨{ d.instrument with params.lfo := none },
          d.engine.apply d.instrument.voice (.stopLfo i), journal⟩) := by
        simp only [dropLfo, current, bind_assoc, pure_bind, runFrom_get_bind, swings]
        rw [runFrom_bind_ok sent]
        rfl
      exact ⟨_, ran, rfl, rfl, d.engine.apply_alike d.instrument.voice (.stopLfo i), fun _ mutes => mutes.stopLfo i⟩
  have accepted : c.refusal? .silence = none := by
    rw [refusal?_of_alike name size]
    exact willing .silence
  obtain ⟨journal, sent⟩ := send_eq accepted
  have ran : runFrom silence d = (.ok (), ⟨c.instrument, c.engine.apply c.instrument.voice .silence, journal⟩) := by
    rw [silence, runFrom_bind_ok dropped, sent]
  refine ⟨_, ran, ?_, fun j mutes => (kept j mutes).silence _⟩
  rw [← same]
  exact Engine.silence_mutes (same ▸ Nat.lt_of_lt_of_le there size.voices)

end Instrument

namespace Performance

/-- Every instrument in use has its voice. -/
def Equipped (p : Performance α) : Prop := ∀ entry ∈ p.voices, entry.2 < p.engine.voices.size

/-- Nothing plays and nothing is left to be played. -/
structure Silenced (p : Performance α) : Prop where
  playing : p.session.playing = false
  active : p.session.active = 0
  voices : ∀ entry ∈ p.voices, p.engine.Mutes entry.2
  cues : p.engine.cues = #[]

section silence

variable {p : Performance α}

theorem silence_each (entries : List (String × Nat)) (faultless : p.engine.Faultless)
    (there : ∀ entry ∈ entries, entry.2 < p.engine.voices.size) :
    ∃ q, runFrom (forIn entries PUnit.unit fun entry _ => do
        onDesk entry.1 entry.2 Instrument.silence
        pure (ForInStep.yield PUnit.unit) : PerformM α PUnit) p = (.ok ⟨⟩, q) ∧ q.voices = p.voices ∧
      (∀ entry ∈ entries, q.engine.Mutes entry.2) ∧ ∀ j, p.engine.Mutes j → q.engine.Mutes j := by
  induction entries generalizing p with
  | nil => exact ⟨p, rfl, rfl, by simp, fun _ mutes => mutes⟩
  | cons entry rest ih =>
    obtain ⟨name, voice⟩ := entry
    obtain ⟨d, silenced, mutes, kept⟩ := Instrument.silence_ok (d := p.deskOf name voice) (faultless.calls name)
      (there _ (List.mem_cons_self ..))
    have ran := runFrom_onDesk name voice Instrument.silence p
    rw [silenced] at ran
    have alike : p.engine.Alike d.engine := by
      have still := (Instrument.silence_aside (p.deskOf name voice)).1.engine
      rwa [silenced] at still
    obtain ⟨q, others, same, muted, still⟩ := ih (p := { p with
        params := assign name d.instrument.params p.params, engine := d.engine, journal := d.journal })
      (faultless.alike alike)
      fun entry member => Nat.lt_of_lt_of_le (there entry (List.mem_cons_of_mem _ member)) alike.voices
    refine ⟨q, ?_, same, ?_, fun j mute => still j (kept j mute)⟩
    · rw [List.forIn_cons, bind_assoc, runFrom_bind_ok ran, pure_bind]
      exact others
    · intro entry member
      rcases List.mem_cons.mp member with rfl | later
      · exact still _ mutes
      · exact muted entry later

theorem forceStop_silences (faultless : p.engine.Faultless) (equipped : p.Equipped) :
    ∃ q, runFrom forceStop p = (.ok (), q) ∧ p.cleared.Aside [] q ∧ q.Silenced := by
  obtain ⟨r, silenced, voices, mutes, -⟩ :=
    silence_each (p := p.dismissed) p.voices faultless equipped
  have all : runFrom (onInstruments Instrument.silence) p.dismissed = (.ok (), r) := by
    simp only [onInstruments, runFrom_get_bind]
    exact runFrom_bind_ok silenced
  have ran : ∃ journal, runFrom forceStop p = (.ok (), { r with
      engine := r.engine.stopSamples, session := r.session.reset, journal := journal
      outbox := r.outbox.push .changed }) := by
    rw [forceStop, runFrom_get_bind, runFrom_dismiss, runFrom_bind_ok all]
    simp only [stopSamples, runFrom_modify_bind, bind_assoc, runFrom_get_bind]
    split <;> exact ⟨_, rfl⟩
  obtain ⟨journal, ran⟩ := ran
  refine ⟨_, ran, ?_, rfl, rfl, fun entry member => ?_, rfl⟩
  · rcases forceStop_cases p with ⟨q, done, still⟩ | ⟨f, q, failed, -⟩
    · cases done.symm.trans ran
      exact still
    · cases failed.symm.trans ran
  · obtain ⟨v, found, mute⟩ := mutes entry (voices ▸ member)
    exact ⟨v, found, { mute with }⟩

end silence

def Sound (p : Performance α) : Prop := p.engine.Faultless ∧ p.Equipped

theorem sound_stable : Stable (Sound (α := α)) where
  aside holds still := by
    refine ⟨holds.1.alike still.engine, fun entry member => ?_⟩
    rcases still.owned entry member with old | new
    · exact Nat.lt_of_lt_of_le (holds.2 entry old) still.engine.voices
    · exact new
  addRun _ _ _ holds _ := holds
  opened _ holds := holds
  stopped holds := holds
  cleared holds := holds

omit [Scalar α] in
theorem Going.sound {id : Nat} {p q : Performance α} {run : Run α} {started : List (Run α)}
    (going : Going id p q run started) (holds : p.Sound) : q.Sound := by
  refine ⟨holds.1.alike going.engine, fun entry member => ?_⟩
  rcases going.owned entry member with old | new
  · exact Nat.lt_of_lt_of_le (holds.2 entry old) going.engine.voices
  · exact new

theorem Turn.sound {id : Nat} {run place : Run α} {p q : Performance α} (turn : Turn id run place p q)
    (holds : p.Sound) : q.Sound := by
  cases turn with
  | goes going _ _ => exact going.sound holds
  | ends _ going _ _ _ _ _ => exact going.sound holds
  | vanishes _ _ _ => exact holds

theorem Sound.take {p : Performance α} (holds : p.Sound) {m : Moment α} (ready : p.enabled m.act = true) :
    (p.take m).Sound :=
  sound_stable.take holds ready (fun _ _ _ turn => turn.sound holds) (.inr holds)

theorem Fresh.sound {p : Performance α} (fresh : p.Fresh) (faultless : p.engine.Faultless) : p.Sound := by
  refine ⟨faultless, fun entry member => ?_⟩
  obtain ⟨blocks, config, clock, engine, rfl⟩ := fresh
  simp [initial] at member

/-- The first runs all belong to earlier generations. -/
structure Bygone (count : Nat) (p : Performance α) : Prop where
  there : count ≤ p.runs.size
  earlier : ∀ (i : Nat) (r : Run α), i < count → p.runs[i]? = some r → r.generation < p.session.generation

namespace Bygone

variable {count : Nat} {p q : Performance α}

omit [Scalar α] in
theorem transfer (bygone : p.Bygone count) (runs : q.runs = p.runs)
    (generation : p.session.generation ≤ q.session.generation) : q.Bygone count where
  there := runs ▸ bygone.there
  earlier i r old there := Nat.lt_of_lt_of_le (bygone.earlier i r old (runs ▸ there)) generation

omit [Scalar α] in
theorem replace {id : Nat} {run run' : Run α} {started : List (Run α)} (bygone : p.Bygone count)
    (found : p.runs[id]? = some run) (runs : Succeeds id run' started p.runs q.runs)
    (same : run'.generation = run.generation) (generation : q.session.generation = p.session.generation) :
    q.Bygone count where
  there := by
    rw [runs.size]
    exact Nat.le_add_right_of_le bygone.there
  earlier i r old there := by
    rw [generation]
    rcases runs.origin there with ⟨rfl, rfl⟩ | ⟨-, before⟩ | ⟨late, -⟩
    · exact same ▸ bygone.earlier i run old found
    · exact bygone.earlier i r old before
    · exact absurd (Nat.lt_of_lt_of_le old bygone.there) (Nat.not_lt.mpr late)

theorem stable (count : Nat) : Stable (Bygone (α := α) count) where
  aside bygone still := bygone.transfer still.runs (by rw [still.session])
  addRun position _ _ bygone _ := by
    refine ⟨by simpa [addRun] using Nat.le_succ_of_le bygone.there, fun i r old there => ?_⟩
    have there' := there
    simp only [addRun, Array.getElem?_push, Nat.ne_of_lt (Nat.lt_of_lt_of_le old bygone.there), if_false] at there'
    exact bygone.earlier i r old there'
  opened _ bygone := bygone.transfer rfl (Nat.le_refl _)
  stopped bygone := bygone.transfer rfl (Nat.le_refl _)
  cleared bygone := bygone.transfer rfl (Nat.le_succ _)

theorem turn {id : Nat} {run place : Run α} (bygone : p.Bygone count) (turn : Turn id run place p q)
    (found : p.runs[id]? = some run) : q.Bygone count := by
  cases turn with
  | goes going moves _ => exact bygone.replace found going.runs moves.generation going.generation
  | ends outcome going moves _ _ _ _ =>
    exact bygone.replace found (going.runs.modify (·.withStatus (.ended outcome))) moves.generation
      ((closed_generation ..).trans going.generation)
  | vanishes _ _ _ => exact bygone.replace found ((Succeeds.refl found).modify (·.withStatus (.ended .cancelled))) rfl rfl

theorem take {m : Moment α} (bygone : p.Bygone count) (ready : p.enabled m.act = true) :
    (p.take m).Bygone count :=
  (stable count).take bygone ready (fun _ found _ turn => bygone.turn turn found)
    (.inr (bygone.transfer rfl (Nat.le_refl _)))

end Bygone

/-- A turn that the session and the engine take no notice of. -/
def Unheeded (p q : Performance α) : Prop := q.session = p.session ∧ q.engine = p.engine

theorem settle_unheeded (p : Performance α) (time deadline : α) (id : Nat) :
    p.Unheeded (runFrom (settleStatus id (settle time deadline id)) p).2 := by
  rw [runFrom_settleStatus]
  simp only [settle, runFrom_get_bind]
  cases p.session.verdict 1 deadline time with
  | wait => exact ⟨rfl, rfl⟩
  | expired => exact ⟨rfl, rfl⟩
  | settled => cases p.session.playing <;> exact ⟨rfl, rfl⟩

section orphan

variable {p : Performance α} {id : Nat} {run : Run α} (orphan : run.generation < p.session.generation)
include orphan

theorem closed_unheeded (outcome : Outcome α) : p.Unheeded (p.closed id run outcome) := by
  have other : (run.generation == p.session.generation) = false := by simpa using Nat.ne_of_lt orphan
  refine ⟨?_, rfl⟩
  simp only [closed, onRun, counted, Session.runFinished, other, Bool.false_eq_true, if_false]

theorem wake_unheeded (found : p.runs[id]? = some run) (time : α) (w : Wake) :
    p.Unheeded (exec (wake time id w) p) := by
  have closed (outcome : Outcome α) : p.Unheeded (runFrom (close id outcome) p).2 := by
    rw [runFrom_close found]
    exact closed_unheeded orphan outcome
  change p.Unheeded (runFrom (wake time id w) p).2
  rw [wake, runFrom_get_bind, found]
  dsimp only
  cases run.status with
  | created => cases w <;> exact ⟨rfl, rfl⟩
  | running =>
    cases w with
    | cancel => exact closed _
    | _ => exact ⟨rfl, rfl⟩
  | waiting seconds beats =>
    cases w with
    | cancel => exact closed _
    | _ => cases beats <;> exact ⟨rfl, rfl⟩
  | settling deadline =>
    -- A run that is not ended by the request to end waits on, or goes on to find itself an orphan.
    cases w with
    | cancel => exact closed _
    | timeout => exact ⟨rfl, rfl⟩
    | _ => exact settle_unheeded p time deadline id
  | playing children =>
    cases w with
    | cancel => exact closed _
    | fail f => exact closed _
    | _ => exact ⟨rfl, rfl⟩
  | ended outcome =>
    cases w with
    | cancel => exact closed _
    | _ => exact ⟨rfl, rfl⟩

omit [Scalar α] in
theorem next?_orphan : run.next? p.session = none := by
  have other : (run.generation == p.session.generation) = false := by simpa using Nat.ne_of_lt orphan
  simp only [Run.next?, other, Bool.and_false, Bool.false_eq_true, if_false]

theorem step_unheeded (found : p.runs[id]? = some run) (time : α) : p.Unheeded (exec (step time id) p) := by
  rw [exec_step found, next?_orphan orphan]
  exact closed_unheeded orphan _

end orphan

/-- The turns of runs that are bygone are unheeded, and dispatch nothing. -/
theorem Bygone.unheeded {count id : Nat} {p : Performance α} {m : Moment α} (bygone : p.Bygone count)
    (turn : m.act.actor? = some id) (old : id < count) :
    p.dispatched? id m.act = none ∧ p.Unheeded (p.take m) := by
  obtain ⟨run, found⟩ : ∃ run, p.runs[id]? = some run :=
    ⟨_, Array.getElem?_eq_getElem (Nat.lt_of_lt_of_le old bygone.there)⟩
  have orphan := bygone.earlier id run old found
  obtain ⟨time, act⟩ := m
  cases act with
  | step j =>
    cases turn
    refine ⟨?_, step_unheeded orphan found time⟩
    simp [dispatched?, read?, found, next?_orphan orphan]
  | wake j w =>
    cases turn
    exact ⟨rfl, wake_unheeded orphan found time w⟩
  | _ => cases turn

theorem Bygone.along {count : Nat} {p : Performance α} {ms : List (Moment α)} (bygone : p.Bygone count)
    (ran : Execution p ms) : Along (fun p m => ∀ id, m.act.actor? = some id → id < count →
      p.dispatched? id m.act = none ∧ p.Unheeded (p.take m)) p ms := by
  induction ms generalizing p with
  | nil => trivial
  | cons m rest ih => exact ⟨fun id turn old => bygone.unheeded turn old, ih (bygone.take ran.1) ran.2⟩

/-- Whatever has happened, ending everything at once leaves nothing that plays or
waits to be played; and whatever happens next, no run that was there dispatches a
command, sounds or moves the session again. -/
theorem forceStop_isolates {p : Performance α} {ms ns : List (Moment α)} (fresh : p.Fresh)
    (faultless : p.engine.Faultless) (ran : Execution p ms)
    (continued : Execution (runFrom forceStop (p.after ms)).2 ns) :
    ∃ q, runFrom forceStop (p.after ms) = (.ok (), q) ∧ q.Silenced ∧
      Along (fun s m => ∀ id, m.act.actor? = some id → id < (p.after ms).runs.size →
        s.dispatched? id m.act = none ∧ s.Unheeded (s.take m)) q ns := by
  have sound : (p.after ms).Sound := ran.invariant (fun _ _ holds ready => holds.take ready) (fresh.sound faultless)
  obtain ⟨q, done, still, silenced⟩ := forceStop_silences sound.1 sound.2
  rw [done] at continued
  have books : (p.after ms).Accounted := ran.accounted fresh.accounted
  have bygone : (p.after ms).cleared.Bygone (p.after ms).runs.size :=
    ⟨Nat.le_refl _, fun i r _ there => Nat.lt_succ_of_le (books.generations i r there)⟩
  exact ⟨q, done, silenced, (bygone.transfer still.runs (by rw [still.session])).along continued⟩

def swinging : Performance ℚ :=
  initial [("main", ["play a"]), ("a", ["autovolume 0 100 1", "tone c4 1", "waitforfinish", "tone c4 1"])]
    default (.virtual 0) {}

def intoWait : List (Moment ℚ) :=
  [⟨0, .begin⟩, ⟨0, .wake 0 .go⟩, ⟨0, .step 0⟩, ⟨0, .wake 1 .go⟩, ⟨0, .step 1⟩, ⟨0, .step 1⟩, ⟨0, .step 1⟩]

def goesOn : List (Moment ℚ) :=
  [⟨0, .begin⟩, ⟨0, .wake 1 .go⟩, ⟨0, .wake 1 .go⟩, ⟨0, .step 1⟩]

theorem forceStop_isolates_swinging :
    (swinging.after intoWait).engine.voices.map (·.notes.size) = #[1] ∧
    (swinging.after intoWait).engine.lfos.map (·.running) = #[true] ∧
    Execution (runFrom forceStop (swinging.after intoWait)).2 goesOn ∧
    ∃ q, runFrom forceStop (swinging.after intoWait) = (.ok (), q) ∧ q.Silenced ∧
      Along (fun s m => ∀ id, m.act.actor? = some id → id < (swinging.after intoWait).runs.size →
        s.dispatched? id m.act = none ∧ s.Unheeded (s.take m)) q goesOn := by
  have fresh : swinging.Fresh := ⟨_, _, _, _, rfl⟩
  have faultless : swinging.engine.Faultless := .of_settings rfl rfl rfl
  obtain ⟨ran, continued, notes, lfos⟩ : Execution swinging intoWait ∧
      Execution (runFrom forceStop (swinging.after intoWait)).2 goesOn ∧
      (swinging.after intoWait).engine.voices.map (·.notes.size) = #[1] ∧
      (swinging.after intoWait).engine.lfos.map (·.running) = #[true] := by
    decide +kernel
  exact ⟨notes, lfos, continued, forceStop_isolates fresh faultless ran continued⟩

end Performance

end Partita
