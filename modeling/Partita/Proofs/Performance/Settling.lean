import Partita.Proofs.Performance.Accounting
import Partita.Proofs.Performance.Attendance

/-! Runs that wait for the session, while nothing else goes wrong. `Proceeds` adds to the
turns of a run those in which it asks whether the session has settled. Only the main run
ever learns that it has: while another run is live, so is the main run. -/
namespace Partita

open Score

variable {α : Type} [Scalar α]

theorem Session.active_le (s : Session α) {baseline : Int} {deadline now : α} (playing : s.playing = true)
    (settled : s.verdict baseline deadline now = .settled) : (s.active : Int) ≤ baseline := by
  unfold Session.verdict at settled
  split at settled
  · rename_i done
    simpa [Session.settled, playing] using done
  · split at settled <;> simp at settled

namespace Performance

/-- A run that asks, at a place in its block, whether the session has settled. -/
inductive Asks (p : Performance α) (run : Run α) : Run α → Prop where
  | reads {line : String} (running : run.status = .running) (next : run.next? p.session = some line)
      (deed : p.piece.deed run.name run.position line = .settle) : Asks p run (run.read line)
  | again {deadline : α} (settling : run.status = .settling deadline) : Asks p run run

/-- The turns of a run when nothing goes wrong and the tempo stays: what the run becomes and
the runs that it starts. Who asks whether the session has settled waits, gives up, or goes
on from the latest end after a pause. -/
inductive Proceeds (p : Performance α) (run : Run α) : Run α → List (Run α) → Prop where
  | advances {run' : Run α} {started : List (Run α)} {events : List (Event α)}
      (advances : Advances p run run' started events) : Proceeds p run run' started
  | waits {place : Run α} (asks : Asks p run place) (deadline : α) :
      Proceeds p run (place.withStatus (.settling deadline)) []
  | passes {place : Run α} (asks : Asks p run place) : Proceeds p run (place.withStatus .running) []
  | settles {place : Run α} (asks : Asks p run place) (quiet : p.session.active ≤ 1) :
      Proceeds p run { place with
        position := Scalar.max place.position p.session.latestFinish
        status := .waiting p.config.finishGrace none } []

variable {p : Performance α} {id : Nat} {run run' : Run α} {started : List (Run α)}

theorem Settled.proceeds {place : Run α} {q r : Performance α} {time deadline : α}
    {outcome : Except Fault (Status α)} (settled : Settled time deadline id q outcome r)
    (untroubled : p.Untroubled) (asks : Asks p run place) (keeps : p.Keeps [] q)
    (runs : Succeeds id place [] p.runs q.runs) (session : q.session = p.session)
    (config : q.config = p.config) (clock : q.clock = p.clock) :
    ∃ run', Proceeds p run run' [] ∧ Advance id run' [] [] p (r.entered id outcome) := by
  have entered {s : Performance α} {moved : Run α} {status : Status α} (kept : p.Keeps [] s)
      (succeeds : Succeeds id moved [] p.runs s.runs) :
      Advance id (moved.withStatus status) [] [] p (s.entered id (.ok status)) :=
    { kept.onRun id _ with runs := succeeds.modify (·.withStatus status), voiced := by simp }
  obtain ⟨horizon, virtual⟩ := untroubled.clock
  unfold Settled at settled
  rw [session, config, clock, virtual, untroubled.playing] at settled
  split at settled
  · obtain ⟨rfl, still⟩ := settled
    exact ⟨_, .waits asks deadline, entered (keeps.aside still) (still.runs ▸ runs)⟩
  · obtain ⟨rfl, still⟩ := settled
    exact ⟨_, .passes asks, entered (keeps.aside still) (still.runs ▸ runs)⟩
  · rename_i verdict
    rw [if_pos rfl] at settled
    obtain ⟨rfl, still⟩ := settled
    have quiet : p.session.active ≤ 1 := by
      exact_mod_cast p.session.active_le untroubled.playing verdict
    have jumped : Succeeds id { place with position := Scalar.max place.position p.session.latestFinish } []
        p.runs r.runs := by
      rw [still.runs]
      exact runs.modify fun r => { r with
        position := (Clock.virtual horizon).settle time r.position [p.session.latestFinish] }
    exact ⟨_, .settles asks quiet, entered ((keeps.onRun id _).aside still) jumped⟩

/-- A run that reads a line to wait for the session proceeds. -/
theorem step_asks {line : String} (untroubled : p.Untroubled) (found : p.runs[id]? = some run)
    (running : run.status = .running) (next : run.next? p.session = some line)
    (deed : p.piece.deed run.name run.position line = .settle) (time : α) :
    ∃ run', Proceeds p run run' [] ∧ Advance id run' [] [] p (exec (step time id) p) := by
  cases parsed : Command.parse? line with
  | none => simp [Piece.deed_none parsed] at deed
  | some c =>
    have here : run.read line = run.advance := by
      rw [run.read_command parsed p.piece.bpm p.piece.has run.name run.position, ← Piece.deed_some parsed, deed]
      rfl
    obtain ⟨outcome, q, settled, taken⟩ :=
      exec_step_settle found time next parsed ((Piece.deed_some parsed).symm.trans deed)
    rw [taken]
    exact settled.proceeds untroubled (here ▸ Asks.reads running next deed)
      ((Keeps.refl p).onRun id Run.advance) ((Succeeds.refl found).modify Run.advance) rfl rfl rfl

theorem step_proceeds (untroubled : p.Untroubled) (found : p.runs[id]? = some run)
    (running : run.status = .running) (tempo : ∀ line, run.next? p.session = some line →
      ∀ bpm, p.piece.deed run.name run.position line ≠ .tempo bpm) (time : α) :
    ∃ run' started sounds, Proceeds p run run' started ∧
      Advance id run' started sounds p (exec (step time id) p) := by
  by_cases asks : ∃ line, run.next? p.session = some line ∧ p.piece.deed run.name run.position line = .settle
  · obtain ⟨line, next, deed⟩ := asks
    obtain ⟨run', proceeds, advance⟩ := step_asks untroubled found running next deed time
    exact ⟨run', [], [], proceeds, advance⟩
  · have steady (line : String) (next : run.next? p.session = some line) :
        (p.piece.deed run.name run.position line).isSteady = true := by
      cases deed : p.piece.deed run.name run.position line with
      | settle => exact absurd ⟨line, next, deed⟩ asks
      | tempo bpm => exact absurd deed (tempo line next bpm)
      | _ => rfl
    obtain ⟨run', started, events, advances, taken⟩ := step_advances untroubled.virtually found running steady time
    exact ⟨run', started, _, .advances advances, taken p.engine.recorder p.journal⟩

theorem wake_proceeds {w : Wake} (untroubled : p.Untroubled) (found : p.runs[id]? = some run)
    (woken : p.wakes id run.status w = true) (time : α) :
    ∃ run', Proceeds p run run' [] ∧ Advance id run' [] [] p (exec (wake time id w) p) := by
  by_cases settling : ∃ deadline, run.status = .settling deadline
  · obtain ⟨deadline, settling⟩ := settling
    have keeps := Keeps.refl p
    have succeeds := Succeeds.refl found
    obtain rfl | ⟨rfl, -⟩ := untroubled.heeds woken
    · obtain ⟨outcome, q, settled, entered⟩ := exec_wake_settling found time settling
      rw [entered]
      exact settled.proceeds untroubled (.again settling) keeps succeeds rfl rfl rfl
    · have still := exec_wake_timeout found time settling
      exact ⟨_, .passes (.again settling), { (keeps.onRun id _).aside still with
        runs := still.runs ▸ succeeds.modify (·.withStatus .running), voiced := by simp }⟩
  · obtain ⟨run', advances, taken⟩ :=
      wake_advances untroubled.virtually found (fun deadline at_ => settling ⟨deadline, at_⟩) woken
        (untroubled.inTime run time)
    exact ⟨run', .advances advances, taken p.engine.recorder p.journal⟩

/-- While nothing goes wrong and the tempo stays, every act that is a run's turn is one of
these. -/
theorem take_proceeds {m : Moment α} (untroubled : p.Untroubled)
    (tempo : ∀ (r : Run α) (line : String), p.runs[id]? = some r → r.next? p.session = some line →
      ∀ bpm, p.piece.deed r.name r.position line ≠ .tempo bpm)
    (turn : m.act.actor? = some id) (ready : p.enabled m.act = true) :
    ∃ run run' started sounds, p.runs[id]? = some run ∧ Proceeds p run run' started ∧
      Advance id run' started sounds p (p.take m) := by
  obtain ⟨run, found, prompt⟩ := exists_prompt turn ready
  cases prompt with
  | step time running =>
    obtain ⟨run', started, sounds, proceeds, advance⟩ :=
      step_proceeds untroubled found running (fun line => tempo run line found) time
    exact ⟨run, run', started, sounds, found, proceeds, advance⟩
  | wake time w woken =>
    obtain ⟨run', proceeds, advance⟩ := wake_proceeds untroubled found woken time
    exact ⟨run, run', [], [], found, proceeds, advance⟩

theorem Asks.live {place : Run α} (asks : Asks p run place) : run.isLive = true := by
  cases asks <;> simp [Run.isLive, *]

theorem Asks.kept {place : Run α} (asks : Asks p run place) (calm : run.Calm p)
    (aligned : run.Aligned fun line => [line]) (position : α) {status : Status α} (untouched : status.isCalm = true)
    (alone : ∀ children, status ≠ .playing children) :
    Kept p run { place with position := position, status := status } [] := by
  have live := asks.live
  cases asks with
  | @reads line running next deed =>
    exact ⟨live, by simp [running], run.read_name line, run.read_lines line,
      run.read_generation line, (ahead_next calm aligned next).2, untouched, fun _ playing => absurd playing (alone _),
      by simp, by simp⟩
  | again settling =>
    exact .of_resting live (by simp [settling]) aligned position untouched alone

theorem Proceeds.kept (proceeds : Proceeds p run run' started) (calm : run.Calm p)
    (aligned : run.Aligned fun line => [line]) : Kept p run run' started := by
  cases proceeds with
  | advances advances => exact advances.kept calm aligned
  | waits asks deadline => exact asks.kept calm aligned _ rfl (by simp)
  | passes asks => exact asks.kept calm aligned _ rfl (by simp)
  | settles asks quiet => exact asks.kept calm aligned _ rfl (by simp)

omit [Scalar α] in
/-- While a run other than the main one is live, at least two are active. -/
theorem Accounted.two_le_active (books : p.Accounted) (untroubled : p.Untroubled) (attended : p.Attended)
    (found : p.runs[id]? = some run) (live : run.isLive = true) (other : id ≠ 0) : 2 ≤ p.session.active := by
  have present := (Array.getElem?_eq_some_iff.mp found).1
  have first : p.runs[0]? = some p.runs[0] := Array.getElem?_eq_getElem (by omega)
  have main : p.runs[0].isLive = true := by
    by_contra spent
    rw [attended.past first (by simpa using spent) id run found] at live
    contradiction
  exact books.two_le found first other live main (untroubled.runs id run found).generation
    (untroubled.runs 0 _ first).generation

end Performance

end Partita
