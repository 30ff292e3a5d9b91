import Partita.Performance.Step
import Partita.Proofs.Performance.Dispatch

/-! The turns of a run, one equation for each: what reading a line leaves, and
what each kind of waking leaves. -/
namespace Partita

open Score

variable {α : Type}

namespace Run

def next? (r : Run α) (s : Session α) : Option String :=
  if s.playing && r.generation == s.generation then r.lines[r.cursor]? else none

/-- The line that a run reads next stands at its cursor. -/
theorem getElem?_of_next? {r : Run α} {s : Session α} {line : String} (next : r.next? s = some line) :
    r.lines[r.cursor]? = some line := by
  unfold next? at next
  split at next
  · exact next
  · contradiction

def advance (r : Run α) : Run α := { r with cursor := r.cursor + 1 }

def withStatus (r : Run α) (status : Status α) : Run α := { r with status }

end Run

namespace Performance

theorem onRun_congr {p : Performance α} {id : Nat} {run : Run α} {f g : Run α → Run α}
    (found : p.runs[id]? = some run) (same : f run = g run) : p.onRun id f = p.onRun id g := by
  have modified : p.runs.modify id f = p.runs.modify id g := by
    apply Array.ext_getElem?
    intro i
    rw [Array.getElem?_modify, Array.getElem?_modify]
    split
    · subst i
      simp [found, same]
    · rfl
  rw [onRun, onRun, modified]

variable [Scalar α]

def counted (p : Performance α) (generation : Nat) (position : α) : Performance α :=
  { p with
    session := p.session.runFinished generation position
    journal := match p.session.strayFinish? generation with
      | some r => p.journal.push (.log r)
      | none => p.journal
    outbox := if generation == p.session.generation then p.outbox.push .changed else p.outbox }

theorem runFrom_countFinish (p : Performance α) (generation : Nat) (position : α) :
    runFrom (countFinish generation position) p = (.ok (), p.counted generation position) := by
  simp only [countFinish, counted, runFrom_get_bind]
  cases current : generation == p.session.generation with
  | true => cases p.session.strayFinish? generation <;> rfl
  | false =>
    have orphan : p.session.runFinished generation position = p.session := by
      simp only [Session.runFinished, current, Bool.false_eq_true, if_false]
    rw [orphan]
    cases p.session.strayFinish? generation <;> rfl

def closed (p : Performance α) (id : Nat) (run : Run α) (outcome : Outcome α) : Performance α :=
  (p.counted run.generation run.position).onRun id (·.withStatus (.ended outcome))

theorem closed_generation (p : Performance α) (id : Nat) (run : Run α) (outcome : Outcome α) :
    (p.closed id run outcome).session.generation = p.session.generation := by
  simp only [closed, onRun, counted, Session.runFinished, Session.notify]
  split <;> rfl

theorem closed_playing (p : Performance α) (id : Nat) (run : Run α) (outcome : Outcome α) :
    (p.closed id run outcome).session.playing = p.session.playing := by
  simp only [closed, onRun, counted, Session.runFinished, Session.notify]
  split <;> rfl

theorem runFrom_close {p : Performance α} {id : Nat} {run : Run α} (found : p.runs[id]? = some run)
    (outcome : Outcome α) : runFrom (close id outcome) p = (.ok (), p.closed id run outcome) := by
  simp only [close, runFrom_get_bind, found]
  rw [runFrom_bind_ok (runFrom_countFinish ..)]
  rfl

/-- What the outcome of a command leaves of a run. -/
def entered (p : Performance α) (id : Nat) : Except Fault (Status α) → Performance α
  | .ok status => p.onRun id (·.withStatus status)
  | .error f => match p.runs[id]? with
    | some run => p.closed id run (.failed f)
    | none => p

theorem runFrom_settleStatus (p : Performance α) (id : Nat) (act : PerformM α (Status α)) :
    runFrom (settleStatus id act) p = (.ok (), (runFrom act p).2.entered id (runFrom act p).1) := by
  rcases ran : runFrom act p with ⟨result, q⟩
  rw [settleStatus, runFrom_tryCatch]
  cases result with
  | ok status =>
    rw [runFrom_bind_ok ran]
    rfl
  | error f =>
    rw [runFrom_bind_error ran]
    dsimp only [entered]
    cases found : q.runs[id]? with
    | some run => exact runFrom_close found _
    | none => simp [close, found]

/-- A step of a run: it ends, passes over a line, or dispatches a command. -/
theorem exec_step {p : Performance α} {id : Nat} {run : Run α} (found : p.runs[id]? = some run)
    (time : α) : exec (step time id) p = match run.next? p.session with
      | none => p.closed id run (.finished run.position)
      | some line => match Command.parse? line with
        | none => p.onRun id Run.advance
        | some c =>
          let result := runFrom (dispatch time id run.advance c) (p.onRun id Run.advance)
          result.2.entered id result.1 := by
  have advanced : p.onRun id (fun _ => run.advance) = p.onRun id Run.advance := onRun_congr found rfl
  change (runFrom (step time id) p).2 = _
  have finished : (runFrom (finish id run) p).2 = p.closed id run (.finished run.position) := by
    rw [finish, runFrom_close found]
  simp only [step, runFrom_get_bind, found, Run.next?]
  cases read : run.lines[run.cursor]? with
  | none => simpa using finished
  | some line =>
    cases playing : p.session.playing with
    | false => simpa using finished
    | true =>
      cases current : run.generation == p.session.generation with
      | false => simpa [bne, current] using finished
      | true =>
        simp only [bne, current, Bool.not_true, Bool.or_false, Bool.false_eq_true, if_false,
          Bool.and_true, if_true]
        rw [← advanced]
        simp only [setRun, runFrom_modify_bind]
        cases Command.parse? line with
        | none => rfl
        | some c =>
          dsimp only
          rw [runFrom_settleStatus]
          rfl

/-- A run that reads a command to wait for the session asks whether it has settled. -/
theorem exec_step_settle {p : Performance α} {id : Nat} {run : Run α} {line : String} {c : Command}
    (found : p.runs[id]? = some run) (time : α) (next : run.next? p.session = some line)
    (parsed : Command.parse? line = some c)
    (deed : c.deed p.session.bpm p.engine.hasSample run.name run.position = .settle) :
    ∃ outcome q, Settled time (time + p.config.finishTimeout) id (p.onRun id Run.advance) outcome q ∧
      exec (step time id) p = q.entered id outcome := by
  have taken := exec_step found time
  simp only [next, parsed] at taken
  have done : Done _ _ _ _ _ _ (c.deed p.session.bpm p.engine.hasSample run.name run.position) :=
    dispatch_done time id run.advance c (p.onRun id Run.advance)
  rw [deed] at done
  exact ⟨_, _, done, taken⟩

section wake

variable {p : Performance α} {id : Nat} {run : Run α} (found : p.runs[id]? = some run) (time : α)
include found

theorem exec_wake_unborn (created : run.status = .created) :
    exec (wake time id .cancel) p = p.onRun id (·.withStatus (.ended .cancelled)) := by
  change (runFrom (wake time id .cancel) p).2 = _
  rw [wake, runFrom_get_bind, found]
  dsimp only
  rw [created]
  rfl

theorem exec_wake_cancel (begun : run.status ≠ .created) :
    exec (wake time id .cancel) p = p.closed id run .cancelled := by
  change (runFrom (wake time id .cancel) p).2 = _
  simp only [wake, runFrom_get_bind, found]
  cases status : run.status with
  | created => exact absurd status begun
  | _ => exact congrArg Prod.snd (runFrom_close found _)

theorem exec_wake_created (created : run.status = .created) :
    exec (wake time id .go) p = p.onRun id (·.withStatus .running) := by
  change (runFrom (wake time id .go) p).2 = _
  rw [wake, runFrom_get_bind, found]
  dsimp only
  rw [created]
  rfl

/-- A run whose pause is over goes on at the position the clock gives it. -/
theorem exec_wake_waiting {seconds : α} {beats : Option α} (waiting : run.status = .waiting seconds beats) :
    (({ p with clock := (p.clock.arrive time run.position seconds).2 } : Performance α).onRun id fun r =>
      { r with position := (p.clock.arrive time run.position seconds).1, status := .running }).Aside []
      (exec (wake time id .go) p) := by
  change Aside _ _ (runFrom (wake time id .go) p).2
  rw [wake, runFrom_get_bind, found]
  dsimp only
  rw [waiting]
  cases beats with
  | none => exact .refl _
  | some b => exact (log_aside (E := fun _ => True) _ _ _).1

theorem exec_wake_timeout {deadline : α} (settling : run.status = .settling deadline) :
    (p.onRun id (·.withStatus .running)).Aside [] (exec (wake time id .timeout) p) := by
  change Aside _ _ (runFrom (wake time id .timeout) p).2
  rw [wake, runFrom_get_bind, found]
  dsimp only
  rw [settling]
  exact (log_aside (E := fun _ => True) _ _ p).1.onRun id (·.withStatus .running)

theorem exec_wake_settling {deadline : α} (settling : run.status = .settling deadline) :
    ∃ outcome q, Settled time deadline id p outcome q ∧ exec (wake time id .go) p = q.entered id outcome := by
  refine ⟨_, _, settle_settled time deadline id p, ?_⟩
  change (runFrom (wake time id .go) p).2 = _
  rw [wake, runFrom_get_bind, found]
  dsimp only
  rw [settling]
  exact congrArg Prod.snd (runFrom_settleStatus ..)

theorem exec_wake_fail {children : List Nat} (playing : run.status = .playing children) (f : Fault) :
    exec (wake time id (.fail f)) p = p.closed id run (.failed f) := by
  change (runFrom (wake time id (.fail f)) p).2 = _
  rw [wake, runFrom_get_bind, found]
  dsimp only
  rw [playing]
  exact congrArg Prod.snd (runFrom_close found _)

/-- A run whose children have ended goes on where the last of them did. -/
theorem exec_wake_playing {children : List Nat} (playing : run.status = .playing children) :
    exec (wake time id .go) p = p.onRun id fun r => { r with
      position := p.clock.settle time r.position (p.finishedAt children), status := .running } := by
  change (runFrom (wake time id .go) p).2 = _
  rw [wake, runFrom_get_bind, found]
  dsimp only
  rw [playing]
  rfl

/-- There is nothing to take a run out of that is running or has ended. -/
theorem exec_wake_spent (spent : run.status = .running ∨ ∃ outcome, run.status = .ended outcome) :
    exec (wake time id .go) p = p := by
  change (runFrom (wake time id .go) p).2 = p
  rw [wake, runFrom_get_bind, found]
  dsimp only
  rcases spent with running | ⟨outcome, ended⟩
  · rw [running]
    rfl
  · rw [ended]
    rfl

omit [Scalar α] found in
/-- What a run makes of a wake: one that does not fit what it waits for lets it go on. -/
def heeded (status : Status α) : Wake → Wake
  | .cancel => .cancel
  | .timeout => match status with
    | .settling _ => .timeout
    | _ => .go
  | .fail f => match status with
    | .playing _ => .fail f
    | _ => .go
  | .go => .go

theorem exec_wake_heeded (w : Wake) :
    exec (wake time id w) p = exec (wake time id (heeded run.status w)) p := by
  change (runFrom (wake time id w) p).2 = (runFrom (wake time id _) p).2
  rw [wake, wake, runFrom_get_bind, runFrom_get_bind, found]
  dsimp only
  cases run.status <;> cases w <;> dsimp only [heeded]

end wake

/-- What a wake comes to, whether it fits what a run waits for or not. -/
inductive Woken (time : α) (id : Nat) (w : Wake) (run : Run α) (p : Performance α) : Performance α → Prop
  | vanishes (created : run.status = .created) (why : w = .cancel) :
      Woken time id w run p (p.onRun id (·.withStatus (.ended .cancelled)))
  | closes {outcome : Outcome α} (begun : run.status ≠ .created)
      (why : w = .cancel ∧ outcome = .cancelled ∨ ∃ f, w = .fail f ∧ outcome = .failed f) :
      Woken time id w run p (p.closed id run outcome)
  | ignores (spent : run.status = .running ∨ ∃ outcome, run.status = .ended outcome) : Woken time id w run p p
  | resumes {q : Performance α} (clock : Clock α) (position : Run α → α)
      (still : (({ p with clock } : Performance α).onRun id fun r =>
        { r with position := position r, status := .running }).Aside [] q)
      (live : run.isLive = true) (heeds : ∀ children, run.status = .playing children → w = .go ∨ w = .timeout) :
      Woken time id w run p q
  | settles {q : Performance α} {deadline : α} {outcome : Except Fault (Status α)}
      (waits : run.status = .settling deadline) (settled : Settled time deadline id p outcome q) :
      Woken time id w run p (q.entered id outcome)

theorem wake_woken {id : Nat} {run : Run α} {p : Performance α} (found : p.runs[id]? = some run) (time : α) (w : Wake) :
    Woken time id w run p (exec (wake time id w) p) := by
  have cancelled (begun : run.status ≠ .created) : Woken time id .cancel run p (exec (wake time id .cancel) p) :=
    exec_wake_cancel found time begun ▸ .closes begun (.inl ⟨rfl, rfl⟩)
  have ignored (spent : run.status = .running ∨ ∃ outcome, run.status = .ended outcome) :
      Woken time id w run p (exec (wake time id .go) p) := by
    rw [exec_wake_spent found time spent]
    exact .ignores spent
  rw [exec_wake_heeded found]
  cases status : run.status with
  | created =>
    have resumed : Woken time id w run p (exec (wake time id .go) p) :=
      exec_wake_created found time status ▸
        .resumes p.clock Run.position (.refl _) (by simp [Run.isLive, status]) (by simp [status])
    cases w with
    | cancel => exact exec_wake_unborn found time status ▸ .vanishes status rfl
    | _ => exact resumed
  | running =>
    cases w with
    | cancel => exact cancelled (by simp [status])
    | _ => exact ignored (.inl status)
  | waiting seconds beats =>
    have resumed : Woken time id w run p (exec (wake time id .go) p) :=
      .resumes _ _ (exec_wake_waiting found time status) (by simp [Run.isLive, status]) (by simp [status])
    cases w with
    | cancel => exact cancelled (by simp [status])
    | _ => exact resumed
  | settling deadline =>
    have settles : Woken time id w run p (exec (wake time id .go) p) := by
      obtain ⟨outcome, q, settled, same⟩ := exec_wake_settling found time status
      exact same ▸ .settles status settled
    cases w with
    | cancel => exact cancelled (by simp [status])
    | timeout =>
      exact .resumes p.clock Run.position (exec_wake_timeout found time status) (by simp [Run.isLive, status])
        (by simp [status])
    | _ => exact settles
  | playing children =>
    have resumed (heeds : w = .go ∨ w = .timeout) : Woken time id w run p (exec (wake time id .go) p) :=
      exec_wake_playing found time status ▸
        .resumes p.clock (fun r => p.clock.settle time r.position (p.finishedAt children)) (.refl _)
          (by simp [Run.isLive, status]) fun _ _ => heeds
    cases w with
    | cancel => exact cancelled (by simp [status])
    | fail f => exact exec_wake_fail found time status f ▸ .closes (by simp [status]) (.inr ⟨f, rfl, rfl⟩)
    | _ => exact resumed (by simp)
  | ended outcome =>
    cases w with
    | cancel => exact cancelled (by simp [status])
    | _ => exact ignored (.inr ⟨outcome, status⟩)

def stopped (p : Performance α) : Performance α :=
  { p with session := p.session.stop, outbox := p.outbox.push .changed }

theorem stop_aside (p : Performance α) : p.stopped.Aside [] (runFrom stop p).2 := by
  have rest : Still (fun _ => True) (do
      onInstruments Instrument.release
      stopSamples
      log .info "Playback stopped (allowing delay/reverb tails to complete)" : PerformM α Unit) :=
    (onInstruments_aside Instrument.release_aside).bind fun _ => stopSamples_aside.bind fun _ => log_aside _ _
  exact (rest _).1

def dismissed (p : Performance α) : Performance α :=
  { p with outbox := p.outbox ++ (((List.range p.runs.size).filter fun id =>
      (p.runs[id]?.map (·.isLive)).getD false).map Request.cancel).toArray }

def cleared (p : Performance α) : Performance α :=
  { p.dismissed with session := p.session.reset, outbox := p.dismissed.outbox.push .changed }

omit [Scalar α] in
theorem runFrom_ask_all (ids : List Nat) (live : Nat → Bool) (p : Performance α) :
    runFrom (forIn ids PUnit.unit fun id _ =>
        if live id then do
          ask (.cancel id)
          pure (ForInStep.yield PUnit.unit)
        else pure (ForInStep.yield PUnit.unit) : PerformM α PUnit) p =
      (.ok ⟨⟩, { p with outbox := p.outbox ++ ((ids.filter live).map Request.cancel).toArray }) := by
  induction ids generalizing p with
  | nil => simp
  | cons id rest ih =>
    rw [List.forIn_cons]
    cases asked : live id with
    | false =>
      simp only [Bool.false_eq_true, if_false, pure_bind, List.filter_cons, asked]
      exact ih p
    | true =>
      simp only [if_true, bind_assoc, pure_bind, List.filter_cons, asked]
      exact (ih { p with outbox := p.outbox.push (.cancel id) }).trans (by simp)

omit [Scalar α] in
theorem runFrom_dismiss {β : Type} (p : Performance α) (next : PerformM α β) :
    runFrom (do
        for id in List.range p.runs.size do
          if (p.runs[id]?.map (·.isLive)).getD false then ask (.cancel id)
        next) p = runFrom next p.dismissed :=
  runFrom_bind_ok (runFrom_ask_all _ _ p)

/-- Ending everything at once: the runs are asked to end, and unless the engine is
at fault the session is reset. -/
theorem forceStop_cases (p : Performance α) :
    (∃ q, runFrom forceStop p = (.ok (), q) ∧ p.cleared.Aside [] q) ∨
    ∃ f q, runFrom forceStop p = (.error f, q) ∧ p.dismissed.Aside [] q := by
  have silenced : Still (fun _ => True) (do
      onInstruments Instrument.silence
      stopSamples : PerformM α Unit) :=
    (onInstruments_aside Instrument.silence_aside).bind fun _ => stopSamples_aside
  have still := (silenced p.dismissed).1
  have split : runFrom forceStop p = runFrom (do
      (do
        onInstruments Instrument.silence
        stopSamples)
      announce Session.reset) p.dismissed := by
    rw [bind_assoc]
    exact runFrom_dismiss p _
  rcases ran : runFrom (do
      onInstruments Instrument.silence
      stopSamples : PerformM α Unit) p.dismissed with ⟨result, q⟩
  rw [ran] at still
  cases result with
  | error f =>
    rw [runFrom_bind_error ran] at split
    exact .inr ⟨f, q, split, still⟩
  | ok =>
    rw [runFrom_bind_ok ran] at split
    refine .inl ⟨_, split, ?_⟩
    exact { still with
      session := congrArg Session.reset still.session
      outbox := congrArg (·.push Request.changed) still.outbox }

def opened (p : Performance α) (time : α) : Performance α :=
  { p with session := p.session.start, clock := p.clock.start time }

theorem runFrom_begin (p : Performance α) (time : α) :
    runFrom (begin time) p = runFrom (spawn Score.mainName 0) (p.opened time) := rfl

/-- Starting the main run never asks for an instrument. -/
theorem begin_cases (p : Performance α) (time : α) :
    (∃ q, p.blocks.lines? mainName = none ∧ runFrom (begin time) p = (.ok none, q) ∧
      (p.opened time).Aside [] q) ∨
    ∃ lines q, p.blocks.lines? mainName = some lines ∧
      runFrom (begin time) p = (.ok (some p.runs.size), q) ∧
      ((p.opened time).addRun 0 (mainName, lines)).Aside [] q := by
  rw [runFrom_begin]
  cases found : p.blocks.lines? mainName with
  | none =>
    obtain ⟨q, ran, still⟩ := spawn_missing 0 (p := p.opened time) found
    exact .inl ⟨q, rfl, ran, still⟩
  | some lines =>
    rcases spawn_existing 0 (p := p.opened time) found with ⟨_, _, _, _, _, other⟩ | ⟨q, ran, added, -⟩
    · exact absurd rfl other
    · exact .inr ⟨lines, q, rfl, ran, added⟩

/-- Playing again: a performance that goes on is ended first, and the instruments
are brought in line before the main block starts. Each of these may fail. -/
theorem replay_cases (p : Performance α) (time : α) :
    (p.session.playing = true ∧ (∃ f, (runFrom forceStop p).1 = .error f) ∧
      (runFrom (replay time) p).2 = (runFrom forceStop p).2) ∨
    ∃ r s, (if p.session.playing then runFrom forceStop p = (.ok (), r) else r = p) ∧ r.Aside [] s ∧
      ((runFrom (replay time) p).2 = s ∨ (runFrom (replay time) p).2 = (runFrom (begin time) s).2) := by
  have rest (r : Performance α) : ∃ s, r.Aside [] s ∧
      ((runFrom (do normalizeVolumes; begin time) r).2 = s ∨
        (runFrom (do normalizeVolumes; begin time) r).2 = (runFrom (begin time) s).2) := by
    have still := (normalizeVolumes_aside r).1
    rcases ran : runFrom normalizeVolumes r with ⟨result, s⟩
    rw [ran] at still
    cases result with
    | error f => exact ⟨s, still, .inl (by rw [runFrom_bind_error ran])⟩
    | ok => exact ⟨s, still, .inr (by rw [runFrom_bind_ok ran])⟩
  cases playing : p.session.playing with
  | false =>
    have skipped : runFrom (replay time) p = runFrom (do normalizeVolumes; begin time) p := by
      simp only [replay, runFrom_get_bind, playing, Bool.false_eq_true, if_false]
    rw [skipped]
    obtain ⟨s, still, outcome⟩ := rest p
    exact .inr ⟨p, s, by simp, still, outcome⟩
  | true =>
    have stopped : runFrom (replay time) p = runFrom (do forceStop; normalizeVolumes; begin time) p := by
      simp only [replay, runFrom_get_bind, playing, if_true]
    rw [stopped]
    rcases ran : runFrom forceStop p with ⟨result, r⟩
    cases result with
    | error f =>
      rw [runFrom_bind_error ran]
      exact .inl ⟨rfl, ⟨f, rfl⟩, rfl⟩
    | ok =>
      rw [runFrom_bind_ok ran]
      obtain ⟨s, still, outcome⟩ := rest r
      exact .inr ⟨r, s, by simp, still, outcome⟩

end Performance

end Partita
