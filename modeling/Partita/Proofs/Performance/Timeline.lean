import Partita.Proofs.Performance.Budget
import Partita.Proofs.Performance.Punctual

/-! The timeline of a performance on a virtual clock, while nothing goes wrong. Runs only
move onwards, what they play sounds where they have come to, and the clock shows how far
any of them has come. One that has come that far is the main run or is waited for, so that
it is the main run in the end. -/
namespace Partita

open Score

variable {α : Type}

def Event.time? : Event α → Option α
  | .call _ (.trigger _ _ time) | .playSample _ _ time => some time
  | _ => none

/-- Whether an event sounds on the timeline up to a position. -/
def Event.LiesWithin (e : Event ℚ) (finish : ℚ) : Prop := ∃ time, e.time? = some time ∧ 0 ≤ time ∧ time ≤ finish

theorem Event.LiesWithin.mono {e : Event ℚ} {a b : ℚ} (lies : e.LiesWithin a) (later : a ≤ b) : e.LiesWithin b := by
  obtain ⟨time, sounds, nonneg, bound⟩ := lies
  exact ⟨time, sounds, nonneg, bound.trans later⟩

variable [Scalar α]

/-- What a command plays sounds where the run is that reads it. -/
theorem Score.Command.time_of_deed {c : Command} {bpm position : α} {has : String → Bool} {block : String}
    {event : Event α} (deed : c.deed bpm has block position = .sound event) : event.time? = some position := by
  unfold Command.deed at deed
  split at deed
  all_goals
    repeat' split at deed
    all_goals cases deed
    all_goals rfl

/-- How far a run will have come when it goes on, apart from what it waits for. -/
def Run.arrival (r : Run α) : α := match r.status with
  | .waiting seconds _ => r.position + Scalar.max 0 seconds
  | _ => r.position

theorem Run.position_le_arrival (r : Run ℚ) : r.position ≤ r.arrival := by
  unfold Run.arrival
  split
  · rw [Scalar.max_eq]
    exact le_add_of_nonneg_right (le_max_left ..)
  · exact le_refl _

namespace Performance

def retimed (p : Performance α) (bpm : α) : Performance α := { p with session := p.session.setBpm bpm }

/-- The turns of a run when nothing goes wrong. -/
inductive Elapses (p : Performance α) (run : Run α) : Run α → List (Run α) → Prop where
  | proceeds {run' : Run α} {started : List (Run α)} (proceeds : Proceeds p run run' started) :
      Elapses p run run' started
  | retimes {line : String} {bpm : α} (running : run.status = .running) (next : run.next? p.session = some line)
      (deed : p.piece.deed run.name run.position line = .tempo bpm) :
      Elapses p run ((run.read line).withStatus .running) []

section turn

variable {p : Performance α} {id : Nat} {run run' : Run α} {started : List (Run α)}

theorem Advances.heard_at {events : List (Event α)} (advances : Advances p run run' started events) {e : Event α}
    (member : e ∈ events) : e.time? = some run.position := by
  cases advances with
  | @reads line d running next deed =>
    cases d with
    | sound event =>
      obtain rfl := List.mem_singleton.mp member
      cases parsed : Command.parse? line with
      | none => simp [Piece.deed_none parsed] at deed
      | some c => exact Command.time_of_deed ((Piece.deed_some parsed).symm.trans deed)
    | _ => cases member
  | _ => cases member

theorem step_retimes {line : String} {bpm : α} (found : p.runs[id]? = some run)
    (next : run.next? p.session = some line) (deed : p.piece.deed run.name run.position line = .tempo bpm) (time : α) :
    Advance id ((run.read line).withStatus .running) [] [] (p.retimed bpm) (exec (step time id) p) := by
  have taken := exec_step found time
  cases parsed : Command.parse? line with
  | none => simp [Piece.deed_none parsed] at deed
  | some c =>
    rw [Piece.deed_some parsed] at deed
    have here : run.read line = run.advance := by
      rw [run.read_command parsed p.piece.bpm p.piece.has run.name run.position, deed]
      rfl
    simp only [next, parsed] at taken
    have done : Done _ _ _ _ _ _ (c.deed p.session.bpm p.engine.hasSample run.name run.position) :=
      dispatch_done time id run.advance c (p.onRun id Run.advance)
    rw [show c.deed p.session.bpm p.engine.hasSample run.name run.position = .tempo bpm from deed] at done
    obtain ⟨running, still⟩ := done
    rw [taken, running, here]
    have succeeds : Succeeds id run.advance [] p.runs (runFrom (dispatch time id run.advance c)
        (p.onRun id Run.advance)).2.runs := still.runs ▸ (Succeeds.refl found).modify Run.advance
    exact { (((Keeps.refl (p.retimed bpm)).onRun id Run.advance).aside still).onRun id (·.withStatus .running) with
      runs := succeeds.modify (·.withStatus .running), voiced := by simp }

theorem step_elapses (untroubled : p.Untroubled) (found : p.runs[id]? = some run) (running : run.status = .running)
    (time : α) : ∃ run' started sounds bpm, Elapses p run run' started ∧
      (∀ e ∈ sounds, e.time? = some run.position) ∧
      Advance id run' started sounds (p.retimed bpm) (exec (step time id) p) := by
  have steady (quiet : ∀ line, run.next? p.session = some line →
      (p.piece.deed run.name run.position line).isSteady = true) : ∃ run' started sounds bpm,
        Elapses p run run' started ∧ (∀ e ∈ sounds, e.time? = some run.position) ∧
        Advance id run' started sounds (p.retimed bpm) (exec (step time id) p) := by
    obtain ⟨run', started, events, advances, taken⟩ := step_advances untroubled.virtually found running quiet time
    refine ⟨run', started, _, p.session.bpm, .proceeds (.advances advances), fun e member => ?_,
      taken p.engine.recorder p.journal⟩
    unfold Engine.recorded at member
    split at member
    · exact advances.heard_at member
    · contradiction
  cases next : run.next? p.session with
  | none => exact steady (by simp [next])
  | some line =>
    cases deed : p.piece.deed run.name run.position line with
    | settle =>
      obtain ⟨run', proceeds, advance⟩ := step_asks untroubled found running next deed time
      exact ⟨run', [], [], p.session.bpm, .proceeds proceeds, by simp, advance⟩
    | tempo bpm => exact ⟨_, [], [], bpm, .retimes running next deed, by simp, step_retimes found next deed time⟩
    | _ => exact steady fun other same => by cases next.symm.trans same; rw [deed]; rfl

/-- While nothing goes wrong, every act that is a run's turn is one of these, and what is
played in it sounds where the run is. -/
theorem take_elapses {m : Moment α} (untroubled : p.Untroubled) (found : p.runs[id]? = some run)
    (prompt : Prompt p id run m) : ∃ run' started sounds bpm, Elapses p run run' started ∧
      (∀ e ∈ sounds, e.time? = some run.position) ∧ Advance id run' started sounds (p.retimed bpm) (p.take m) := by
  cases prompt with
  | step time running => exact step_elapses untroubled found running time
  | wake time w woken =>
    obtain ⟨run', proceeds, advance⟩ := wake_proceeds untroubled found woken time
    exact ⟨run', [], [], p.session.bpm, .proceeds proceeds, by simp, advance⟩

theorem Elapses.kept (elapses : Elapses p run run' started) (calm : run.Calm p)
    (aligned : run.Aligned fun line => [line]) : Kept p run run' started := by
  cases elapses with
  | proceeds proceeds => exact proceeds.kept calm aligned
  | retimes running next deed => exact .of_reading calm aligned running next deed

end turn

section clock

variable {p q r : Performance α} {time : α} {id : Nat}

theorem Settled.clock {deadline : α} {outcome : Except Fault (Status α)}
    (settled : Settled time deadline id p outcome q) : q.clock = p.clock := by
  unfold Settled at settled
  split at settled
  · exact settled.2.clock
  · exact settled.2.clock
  · split at settled
    · exact settled.2.clock
    · exact settled.2.clock

theorem Done.clock {run : Run α} {outcome : Except Fault (Status α)} {d : Deed α}
    (done : Done time id run p outcome q d) : q.clock = p.clock := by
  cases d with
  | sound event =>
    obtain ⟨-, sounds, still, -⟩ := done
    exact still.clock
  | play names =>
    obtain ⟨started, -, still, -⟩ := done
    obtain ⟨_, _, added, -⟩ := addRuns_eq run.position p started
    rw [still.clock, added]
  | settle => exact Settled.clock done
  | _ => exact done.2.clock

theorem entered_clock (p : Performance α) (id : Nat) (outcome : Except Fault (Status α)) :
    (p.entered id outcome).clock = p.clock := by
  cases outcome with
  | ok status => rfl
  | error f =>
    dsimp only [entered]
    split <;> rfl

variable {run : Run α}

/-- Only a pause takes the clock further. -/
theorem exec_step_clock (found : p.runs[id]? = some run) (time : α) : (exec (step time id) p).clock = p.clock := by
  rw [exec_step found]
  cases run.next? p.session with
  | none => rfl
  | some line =>
    dsimp only
    cases Command.parse? line with
    | none => rfl
    | some c => exact (entered_clock ..).trans (dispatch_done time id run.advance c (p.onRun id Run.advance)).clock

theorem exec_wake_clock {w : Wake} (untroubled : p.Untroubled) (found : p.runs[id]? = some run)
    (woken : p.wakes id run.status w = true) (time : α) : (exec (wake time id w) p).clock = match run.status with
      | .waiting seconds _ => (p.clock.arrive time run.position seconds).2
      | _ => p.clock := by
  obtain rfl | ⟨rfl, deadline, settling⟩ := untroubled.heeds woken
  · cases status : run.status with
    | created => rw [exec_wake_created found time status]; rfl
    | running => simp [wakes, status] at woken
    | waiting seconds beats => rw [(exec_wake_waiting found time status).clock]; rfl
    | settling deadline =>
      obtain ⟨outcome, q, settled, entered⟩ := exec_wake_settling found time status
      rw [entered, entered_clock, settled.clock]
    | playing children => rw [exec_wake_playing found time status]; rfl
    | ended outcome => simp [wakes, status] at woken
  · rw [(exec_wake_timeout found time settling).clock, settling]
    rfl

end clock

end Performance

namespace Performance

variable {p q : Performance ℚ} {id : Nat} {run run' : Run ℚ} {started : List (Run ℚ)}

def horizon (p : Performance ℚ) : ℚ := p.clock.now 0

theorem Untroubled.now (untroubled : p.Untroubled) (time : ℚ) : p.clock.now time = p.horizon := by
  obtain ⟨horizon, clock⟩ := untroubled.clock
  rw [Performance.horizon, clock]
  rfl

/-- The clock shows how far a run has come that pauses, and else stands still. -/
theorem take_horizon {m : Moment ℚ} (untroubled : p.Untroubled) (found : p.runs[id]? = some run)
    (prompt : Prompt p id run m) (within : run.position ≤ p.horizon) :
    (p.take m).horizon = max p.horizon run.arrival := by
  have standing (alone : run.arrival = run.position) (same : (p.take m).clock = p.clock) :
      (p.take m).horizon = max p.horizon run.arrival := by
    rw [alone, max_eq_left within, horizon, same, horizon]
  cases prompt with
  | step time running => exact standing (by rw [Run.arrival, running]) (exec_step_clock found time)
  | wake time w woken =>
    have clock : (p.take ⟨time, .wake id w⟩).clock = _ := exec_wake_clock untroubled found woken time
    cases status : run.status with
    | waiting seconds beats =>
      obtain ⟨horizon, virtual⟩ := untroubled.clock
      rw [Performance.horizon, clock, Performance.horizon, Run.arrival, status, virtual]
      exact Scalar.max_eq ..
    | _ => exact standing (by rw [Run.arrival, status]) (by rw [clock, status])

def Awaited (p : Performance α) (i : Nat) : Prop :=
  i = 0 ∨ ∃ (j : Nat) (parent : Run α) (children : List Nat),
    p.runs[j]? = some parent ∧ parent.status = .playing children ∧ i ∈ children

/-- A performance in which nothing goes wrong and the clock shows how far the runs have
come. -/
structure Charted (p : Performance ℚ) : Prop where
  untroubled : p.Untroubled
  attended : p.Attended
  aligned : ∀ (i : Nat) (r : Run ℚ), p.runs[i]? = some r → r.Aligned fun line => [line]
  within : ∀ (i : Nat) (r : Run ℚ), p.runs[i]? = some r → 0 ≤ r.position ∧ r.position ≤ p.horizon
  rests : ∀ (i : Nat) (r : Run ℚ) (finish : ℚ), p.runs[i]? = some r → r.status = .ended (.finished finish) →
    finish = r.position
  latest : p.session.latestFinish ≤ p.horizon
  top : ∃ (i : Nat) (r : Run ℚ), p.runs[i]? = some r ∧ p.horizon ≤ r.position ∧ p.Awaited i
  sounds : ∀ e ∈ p.sounding, e.LiesWithin p.horizon

/-- What a turn does to the position of a run, given how far the clock has come: it goes on
from where it was, to where those have ended that it waits for, and starts runs there. -/
structure Lapse (p : Performance ℚ) (run run' : Run ℚ) (started : List (Run ℚ)) : Prop where
  arrives : run.arrival ≤ run'.position
  reach : run'.position ≤ max p.horizon run.arrival
  here : ∀ r ∈ started, r.position = run'.position ∧ r.position = run.position
  joins : ∀ children, run.status = .playing children → ∀ x ∈ p.finishedAt children, x ≤ run'.position
  rests : ∀ finish, run'.status = .ended (.finished finish) → finish = run'.position

theorem Asks.standing {place : Run ℚ} (asks : Asks p run place) :
    run.arrival = run.position ∧ (∀ children, run.status ≠ .playing children) ∧ place.position = run.position := by
  cases asks with
  | @reads line running next deed => exact ⟨by rw [Run.arrival, running], by simp [running], run.read_position line⟩
  | again settling => exact ⟨by rw [Run.arrival, settling], by simp [settling], rfl⟩

section lapse

variable (charted : p.Charted) (found : p.runs[id]? = some run)
include charted found

theorem Lapse.of_standing (arrival : run.arrival = run.position) (alone : ∀ children, run.status ≠ .playing children)
    (position : run'.position = run.position) (here : ∀ r ∈ started, r.position = run.position)
    (rests : ∀ finish, run'.status = .ended (.finished finish) → finish = run'.position) :
    Lapse p run run' started := by
  constructor
  · rw [arrival, position]
  · rw [position]
    exact (charted.within id run found).2.trans (le_max_left ..)
  · intro r member
    rw [position, here r member]
    exact ⟨rfl, rfl⟩
  · intro children playing
    exact absurd playing (alone children)
  · exact rests

omit found in
theorem Charted.finishedAt_le {children : List Nat} {x : ℚ} (member : x ∈ p.finishedAt children) : x ≤ p.horizon := by
  obtain ⟨c, -, ended⟩ := mem_finishedAt.mp member
  obtain ⟨r, there, status⟩ := outcome?_eq_some.mp ended
  rw [charted.rests c r x there status]
  exact (charted.within c r there).2

theorem Advances.lapse {events : List (Event ℚ)} (advances : Advances p run run' started events) :
    Lapse p run run' started := by
  have here (r : Run ℚ) (member : r ∈ started) := (advances.started_at member).2
  have rests (finish : ℚ) (ended : run'.status = .ended (.finished finish)) := advances.ended_at ended
  cases advances with
  | starts created => exact .of_standing charted found (by rw [Run.arrival, created]) (by simp [created]) rfl here rests
  | @resumes seconds beats waiting =>
    have arrival : run.arrival = run.position + Scalar.max 0 seconds := by rw [Run.arrival, waiting]
    exact ⟨le_of_eq arrival, by rw [arrival]; exact le_max_right .., by simp, by simp [waiting], rests⟩
  | @rejoins children playing all =>
    have arrival : run.arrival = run.position := by rw [Run.arrival, playing]
    obtain ⟨least, joined⟩ := Scalar.maximum_le_iff.mp (le_refl (Scalar.maximum run.position (p.finishedAt children)))
    refine ⟨arrival ▸ least, ?_, by simp, fun others waits x member => ?_, rests⟩
    · refine le_max_of_le_left (Scalar.maximum_le_iff.mpr ⟨(charted.within id run found).2, fun x member => ?_⟩)
      exact charted.finishedAt_le member
    · cases playing.symm.trans waits
      exact joined x member
  | @reads line d running next deed =>
    have position : (run.read line).position = run.position := run.read_position line
    exact .of_standing charted found (by rw [Run.arrival, running]) (by simp [running]) position
      (fun r member => (here r member).trans position) rests
  | ends running spent =>
    exact .of_standing charted found (by rw [Run.arrival, running]) (by simp [running]) rfl here rests

theorem Elapses.lapse (elapses : Elapses p run run' started) : Lapse p run run' started := by
  -- Asking whether the session has settled takes no time.
  have asking {place : Run ℚ} (asks : Asks p run place) {status : Status ℚ}
      (live : ∀ finish, status ≠ .ended (.finished finish)) : Lapse p run (place.withStatus status) [] := by
    obtain ⟨arrival, alone, position⟩ := asks.standing
    exact .of_standing charted found arrival alone position (by simp) fun finish ended => absurd ended (live finish)
  cases elapses with
  | proceeds proceeds =>
    cases proceeds with
    | advances advances => exact advances.lapse charted found
    | waits asks deadline => exact asking asks (by simp)
    | passes asks => exact asking asks (by simp)
    | @settles place asks quiet =>
      obtain ⟨arrival, alone, position⟩ := asks.standing
      refine ⟨?_, ?_, by simp, fun children playing => absurd playing (alone children), by simp⟩
      · rw [arrival, Scalar.max_eq, position]
        exact le_max_left ..
      · rw [Scalar.max_eq, position]
        exact le_max_of_le_left (max_le (charted.within id run found).2 charted.latest)
  | @retimes line bpm running next deed =>
    exact .of_standing charted found (by rw [Run.arrival, running]) (by simp [running]) (run.read_position line)
      (by simp) (by simp [Run.withStatus])

end lapse

theorem Attended.awaited (attended : p.Attended) (found : p.runs[id]? = some run) (live : run.isLive = true)
    (runs : Succeeds id run' started p.runs q.runs) : q.Awaited id := by
  by_cases main : id = 0
  · exact .inl main
  · obtain ⟨j, parent, children, above, playing, member⟩ := attended.waited id run found live main
    have earlier := (attended.children j parent above children playing id member).1
    exact .inr ⟨j, parent, children, runs.other (Nat.ne_of_lt earlier) above, playing, member⟩

/-- After a turn somebody waits for those still who were waited for, if it was not the turn
of who did. -/
theorem Awaited.turn {i : Nat} (awaited : p.Awaited i) (found : p.runs[id]? = some run)
    (runs : Succeeds id run' started p.runs q.runs) :
    q.Awaited i ∨ ∃ children, run.status = .playing children ∧ i ∈ children := by
  obtain main | ⟨j, parent, children, above, playing, member⟩ := awaited
  · exact .inl (.inl main)
  · by_cases own : j = id
    · subst own
      obtain rfl := Option.some.inj (found.symm.trans above)
      exact .inr ⟨children, playing, member⟩
    · exact .inl (.inr ⟨j, parent, children, runs.other own above, playing, member⟩)

/-- A turn in which no run moves back, and in which a run waits for those that it starts and
starts them where it is. -/
structure Onward (p : Performance ℚ) (m : Moment ℚ) : Prop where
  moves : ∀ (i : Nat) (r : Run ℚ), p.runs[i]? = some r → ∃ s, (p.take m).runs[i]? = some s ∧ r.position ≤ s.position
  starts : ∀ (i : Nat) (child : Run ℚ), p.runs.size ≤ i → (p.take m).runs[i]? = some child →
    ∃ (id : Nat) (run parent : Run ℚ) (children : List Nat), m.act.actor? = some id ∧ p.runs[id]? = some run ∧
      (p.take m).runs[id]? = some parent ∧ parent.status = .playing children ∧ i ∈ children ∧
      child.position = run.position ∧ child.position = parent.position

/-- A turn of a run on the timeline. -/
structure Elapsed (p : Performance ℚ) (m : Moment ℚ) (id : Nat) (run run' : Run ℚ) (started : List (Run ℚ)) :
    Prop where
  turn : m.act.actor? = some id
  found : p.runs[id]? = some run
  kept : Kept p run run' started
  lapse : Lapse p run run' started
  runs : Succeeds id run' started p.runs (p.take m).runs
  horizon : (p.take m).horizon = max p.horizon run.arrival
  untroubled : (p.take m).Untroubled
  latest : (p.take m).session.latestFinish ≤ max p.session.latestFinish run'.position
  sounding : ∃ sounds, (p.take m).sounding = p.sounding ++ sounds ∧ ∀ e ∈ sounds, e.time? = some run.position

theorem Charted.elapsed {m : Moment ℚ} (charted : p.Charted) (turn : m.act.actor?.isSome = true)
    (ready : p.enabled m.act = true) : ∃ id run run' started, Elapsed p m id run run' started := by
  obtain ⟨id, turn⟩ := Option.isSome_iff_exists.mp turn
  obtain ⟨run, found, prompt⟩ := exists_prompt turn ready
  obtain ⟨run', started, sounds, bpm, elapses, heard, advance⟩ := take_elapses charted.untroubled found prompt
  obtain ⟨_, _, _, turned⟩ := take_turn turn ready
  have kept := elapses.kept (charted.untroubled.runs id run found) (charted.aligned id run found)
  have retimed : (p.retimed bpm).Untroubled :=
    { charted.untroubled with runs := fun i r there => { charted.untroubled.runs i r there with } }
  exact ⟨id, run, run', started, {
    turn := turn
    found := found
    kept := kept
    lapse := elapses.lapse charted found
    runs := advance.runs
    horizon := take_horizon charted.untroubled found prompt (charted.within id run found).2
    untroubled := advance.untroubled retimed found { kept with }
    latest := (turned.latest_le advance.runs.found).2
    sounding := ⟨sounds, advance.sounding, heard⟩ }⟩

namespace Elapsed

variable {m : Moment ℚ} (elapsed : Elapsed p m id run run' started)
include elapsed

theorem forward : run.position ≤ run'.position := run.position_le_arrival.trans elapsed.lapse.arrives

theorem later : p.horizon ≤ (p.take m).horizon := by
  rw [elapsed.horizon]
  exact le_max_left ..

theorem onward : Onward p m := by
  constructor
  · intro i r there
    by_cases own : i = id
    · subst own
      obtain rfl := Option.some.inj (elapsed.found.symm.trans there)
      exact ⟨run', elapsed.runs.found, elapsed.forward⟩
    · exact ⟨r, elapsed.runs.other own there, le_refl _⟩
  · intro i child new there
    obtain ⟨rfl, -⟩ | ⟨-, old⟩ | ⟨-, listed⟩ := elapsed.runs.origin there
    · have present := (Array.getElem?_eq_some_iff.mp elapsed.found).1
      omega
    · have present := (Array.getElem?_eq_some_iff.mp old).1
      omega
    · have bound := (List.getElem?_eq_some_iff.mp listed).1
      obtain ⟨children, playing⟩ := elapsed.kept.waited (List.ne_nil_of_length_pos (by omega))
      obtain ⟨same, here⟩ := elapsed.lapse.here child (List.mem_of_getElem? listed)
      refine ⟨id, run, run', children, elapsed.turn, elapsed.found, elapsed.runs.found, playing, ?_, here, same⟩
      rw [elapsed.kept.waits children playing, List.mem_range'_1]
      omega

variable (charted : p.Charted)
include charted

theorem within {i : Nat} {r : Run ℚ} (there : (p.take m).runs[i]? = some r) :
    0 ≤ r.position ∧ r.position ≤ (p.take m).horizon := by
  have own := charted.within id run elapsed.found
  obtain ⟨rfl, rfl⟩ | ⟨-, old⟩ | ⟨-, listed⟩ := elapsed.runs.origin there
  · rw [elapsed.horizon]
    exact ⟨own.1.trans elapsed.forward, elapsed.lapse.reach⟩
  · have before := charted.within i r old
    exact ⟨before.1, before.2.trans elapsed.later⟩
  · rw [(elapsed.lapse.here r (List.mem_of_getElem? listed)).2]
    exact ⟨own.1, own.2.trans elapsed.later⟩

theorem charts {i : Nat} {r : Run ℚ} (there : (p.take m).runs[i]? = some r) : (r.Aligned fun line => [line]) ∧
    ∀ finish, r.status = .ended (.finished finish) → finish = r.position := by
  obtain ⟨rfl, rfl⟩ | ⟨-, old⟩ | ⟨-, listed⟩ := elapsed.runs.origin there
  · exact ⟨elapsed.kept.aligned, elapsed.lapse.rests⟩
  · exact ⟨charted.aligned i r old, fun finish => charted.rests i r finish old⟩
  · obtain ⟨position, block, rfl, -⟩ := elapsed.kept.plays r (List.mem_of_getElem? listed)
    exact ⟨(newRun_ahead ..).2, fun finish ended => by cases ended⟩

/-- The furthest run stays where it is until whoever waits for it has come there too. -/
theorem top : ∃ (i : Nat) (r : Run ℚ), (p.take m).runs[i]? = some r ∧ (p.take m).horizon ≤ r.position ∧
    (p.take m).Awaited i := by
  have arrives := elapsed.lapse.arrives
  rw [elapsed.horizon]
  by_cases furthest : p.horizon ≤ run'.position
  · refine ⟨id, run', elapsed.runs.found, max_le furthest arrives, ?_⟩
    exact charted.attended.awaited elapsed.found elapsed.kept.live elapsed.runs
  · have behind : run'.position < p.horizon := not_le.mp furthest
    obtain ⟨i, r, there, ahead, awaited⟩ := charted.top
    have beyond : max p.horizon run.arrival ≤ r.position := max_le ahead (arrives.trans (behind.le.trans ahead))
    have other : i ≠ id := by
      rintro rfl
      obtain rfl := Option.some.inj (elapsed.found.symm.trans there)
      exact furthest (ahead.trans elapsed.forward)
    obtain still | ⟨children, playing, member⟩ := awaited.turn elapsed.found elapsed.runs
    · exact ⟨i, r, elapsed.runs.other other there, beyond, still⟩
    · -- Whoever waits for it goes on only when it has finished, and from there.
      have all := elapsed.kept.joined children playing
      obtain ⟨x, status⟩ := finished_of_hasFinished there (List.all_eq_true.mp all i member)
      have ended := outcome?_eq_some.mpr ⟨r, there, status⟩
      have joined := elapsed.lapse.joins children playing x (mem_finishedAt.mpr ⟨i, member, ended⟩)
      rw [charted.rests i r x there status] at joined
      exact absurd (ahead.trans joined) furthest

theorem lies {e : Event ℚ} (member : e ∈ (p.take m).sounding) : e.LiesWithin (p.take m).horizon := by
  have own := charted.within id run elapsed.found
  obtain ⟨sounds, sounding, heard⟩ := elapsed.sounding
  rw [sounding] at member
  obtain old | new := List.mem_append.mp member
  · exact (charted.sounds e old).mono elapsed.later
  · exact ⟨run.position, heard e new, own.1, own.2.trans elapsed.later⟩

/-- Every turn keeps the clock where the furthest run has come. -/
theorem charted_take : (p.take m).Charted where
  untroubled := elapsed.untroubled
  attended := charted.attended.turn elapsed.found elapsed.kept elapsed.runs
  aligned i r there := (elapsed.charts charted there).1
  within i r there := elapsed.within charted there
  rests i r finish there := (elapsed.charts charted there).2 finish
  latest := by
    apply elapsed.latest.trans
    exact max_le (charted.latest.trans elapsed.later) (elapsed.within charted elapsed.runs.found).2
  top := elapsed.top charted
  sounds e member := elapsed.lies charted member

end Elapsed

theorem Charted.uttered {m : Moment ℚ} (charted : p.Charted) (turn : m.act.actor?.isSome = true)
    (ready : p.enabled m.act = true) {e : Event ℚ} (member : e ∈ p.uttered m) : e.LiesWithin p.horizon := by
  obtain ⟨id, turn⟩ := Option.isSome_iff_exists.mp turn
  have untroubled : (p.taped true #[]).Untroubled := { charted.untroubled with
    faultless := { charted.untroubled.faultless with }
    runs := fun i r there => { charted.untroubled.runs i r there with } }
  obtain ⟨run, found, prompt⟩ := exists_prompt (p := p.taped true #[]) turn ready
  obtain ⟨run', started, sounds, bpm, -, heard, advance⟩ := take_elapses untroubled found prompt
  have own := charted.within id run found
  have silent : ((p.taped true #[]).retimed bpm).sounding = [] := rfl
  rw [Performance.uttered, advance.sounding, silent, List.nil_append] at member
  exact ⟨run.position, heard e member, own⟩

theorem Execution.charted {ms : List (Moment ℚ)} (charted : p.Charted) (ran : Execution p ms)
    (turns : ∀ m ∈ ms, m.act.actor?.isSome = true) : (p.after ms).Charted ∧ Along Onward p ms ∧
      p.horizon ≤ (p.after ms).horizon ∧ ∀ e ∈ p.heard ms, e.2.LiesWithin (p.after ms).horizon := by
  induction ms generalizing p with
  | nil => exact ⟨charted, trivial, le_refl _, by simp [heard]⟩
  | cons m rest ih =>
    obtain ⟨now, others⟩ := List.forall_mem_cons.mp turns
    obtain ⟨id, run, run', started, elapsed⟩ := charted.elapsed now ran.1
    obtain ⟨final, along, last, sounds⟩ := ih (elapsed.charted_take charted) ran.2 others
    refine ⟨final, ⟨elapsed.onward, along⟩, elapsed.later.trans last, ?_⟩
    intro e member
    obtain first | after := List.mem_append.mp member
    · obtain ⟨run, -, played⟩ := List.mem_flatMap.mp first
      obtain ⟨event, uttered, rfl⟩ := List.mem_map.mp played
      exact (charted.uttered now ran.1 uttered).mono (elapsed.later.trans last)
    · exact sounds e after

/-- The clock shows where the main run ends. -/
theorem Charted.finish {finish : ℚ} (charted : p.Charted) (ended : p.outcome? 0 = some (.finished finish)) :
    p.horizon = finish := by
  obtain ⟨main, first, status⟩ := outcome?_eq_some.mp ended
  have dead : main.isLive = false := by simp [Run.isLive, status]
  obtain ⟨i, r, there, ahead, rfl | ⟨j, parent, children, above, playing, -⟩⟩ := charted.top
  · obtain rfl := Option.some.inj (first.symm.trans there)
    rw [charted.rests 0 main finish first status]
    exact le_antisymm ahead (charted.within 0 main first).2
  · have past := charted.attended.past first dead j parent above
    simp [Run.isLive, playing] at past

theorem Prepared.begin_now (prepared : p.Prepared) (time now : ℚ) : (p.take ⟨time, .begin⟩).clock.now now = 0 := by
  obtain ⟨-, -, -, -, -, started⟩ := prepared.fresh.begin prepared.faultless time
  obtain ⟨horizon, clock⟩ := Clock.eq_virtual prepared.virtual
  rw [started, clock]
  rfl

theorem Prepared.charted {lines : List String} (prepared : p.Prepared) (time : ℚ)
    (main : p.blocks.lines? mainName = some lines) : (p.take ⟨time, .begin⟩).Charted := by
  obtain ⟨untroubled, -, silent, -, listed⟩ := prepared.begin time
  have zero : (p.take ⟨time, .begin⟩).horizon = 0 := prepared.begin_now time 0
  have cast : p.blocks.cast [mainName] = [(mainName, lines)] := by simp [Blocks.cast, main]
  have first : (p.take ⟨time, .begin⟩).runs[0]? = some (newRun p.session.generation 0 (mainName, lines)) := by
    rw [← Array.getElem?_toList, listed, cast]
    rfl
  have only {i : Nat} {r : Run ℚ} (there : (p.take ⟨time, .begin⟩).runs[i]? = some r) :
      r = newRun p.session.generation 0 (mainName, lines) := by
    obtain ⟨rfl, -⟩ := prepared.fresh.only time there
    exact Option.some.inj (there.symm.trans first)
  constructor
  · exact untroubled
  · exact prepared.fresh.attended time
  · intro i r there
    rw [only there]
    exact (newRun_ahead ..).2
  · intro i r there
    rw [only there, zero]
    exact ⟨le_refl 0, le_refl 0⟩
  · intro i r finish there ended
    rw [only there] at ended
    cases ended
  · rw [(begin_unfinished p time).2, zero]
  · rw [zero]
    exact ⟨0, _, first, le_refl 0, .inl rfl⟩
  · intro e member
    simp [silent] at member

/-- Without a main block there is no turn to take. -/
theorem Prepared.idle {time : ℚ} {ms : List (Moment ℚ)} (prepared : p.Prepared)
    (missing : p.blocks.lines? mainName = none) (ran : Execution (p.take ⟨time, .begin⟩) ms)
    (turns : ∀ m ∈ ms, m.act.actor?.isSome = true) : ms = [] := by
  cases ms with
  | nil => rfl
  | cons m rest =>
    obtain ⟨id, turn⟩ := Option.isSome_iff_exists.mp (turns m (List.mem_cons_self ..))
    obtain ⟨run, found, -⟩ := exists_prompt turn ran.1
    obtain ⟨-, block, cast, -⟩ := prepared.fresh.only time found
    simp [Blocks.cast, missing] at cast

/-- The position that the main block returns is the end of the timeline, in whatever order
the runs take their turns. No run ever moves back, and each is started where the run is that
waits for it. When the main block returns, the clock shows the position that it returns, no
run has come further, and all that was played sounds between the start and there. -/
theorem returned_position_is_the_end {time : ℚ} {ms : List (Moment ℚ)} (prepared : p.Prepared)
    (ran : Execution (p.take ⟨time, .begin⟩) ms) (turns : ∀ m ∈ ms, m.act.actor?.isSome = true) :
    let q := p.take ⟨time, .begin⟩
    Along Onward q ms ∧ ∀ outcome, p.returned? time ms = some outcome → ∃ finish, outcome = .finished finish ∧
      (∀ now, (q.after ms).clock.now now = finish) ∧
      (∀ (i : Nat) (r : Run ℚ), (q.after ms).runs[i]? = some r → 0 ≤ r.position ∧ r.position ≤ finish) ∧
      (∀ e ∈ q.heard ms, e.2.LiesWithin finish) ∧ ∀ e ∈ (q.after ms).sounding, e.LiesWithin finish := by
  intro q
  rw [prepared.fresh.returned]
  cases main : p.blocks.lines? mainName with
  | none =>
    obtain rfl := prepared.idle main ran turns
    obtain ⟨-, -, silent, -, listed⟩ := prepared.begin time
    constructor
    · trivial
    · intro outcome returned
      refine ⟨0, (Option.some.inj returned).symm, prepared.begin_now time, ?_, by simp [heard],
        by simp [after, q, silent]⟩
      intro i r there
      obtain ⟨-, block, cast, -⟩ := prepared.fresh.only time there
      simp [Blocks.cast, main] at cast
  | some lines =>
    obtain ⟨charted, onward, -, heard⟩ := ran.charted (prepared.charted time main) turns
    constructor
    · exact onward
    · intro outcome returned
      obtain ⟨finish, rfl⟩ := charted.untroubled.finished returned
      have here := charted.finish returned
      rw [here] at heard
      exact ⟨finish, rfl, fun now => (charted.untroubled.now now).trans here, here ▸ charted.within, heard,
        here ▸ charted.sounds⟩

def accelerando : Performance ℚ :=
  initial [("main", ["bpm 60", "play together lead bass", "waitforfinish", "sample bell"]),
    ("lead", ["tone a5 1", "wait 2"]), ("bass", ["tempo 120", "play lead"])] default (.virtual 0)
    { samples := [("bell", default)], recorder := true }

def overtaken : List (Moment ℚ) :=
  [.wake 0 .go, .step 0, .step 0, .wake 1 .go, .step 1, .step 1, .wake 2 .go, .step 2, .step 2, .wake 3 .go, .step 3,
    .step 3, .wake 3 .go, .step 3, .wake 2 .go, .step 2, .wake 1 .go, .step 1, .wake 0 .go, .step 0, .wake 0 .go,
    .step 0, .step 0].map (⟨0, ·⟩)

theorem returned_position_is_the_end_accelerando :
    accelerando.Prepared ∧ Execution (accelerando.take ⟨0, .begin⟩) overtaken ∧
      ∃ outcome, accelerando.returned? 0 overtaken = some outcome ∧ outcome = .finished (5 / 2) ∧
        ((accelerando.take ⟨0, .begin⟩).heard overtaken).length = 3 ∧
        ∀ e ∈ (accelerando.take ⟨0, .begin⟩).heard overtaken, e.2.LiesWithin (5 / 2) := by
  have prepared : accelerando.Prepared := ⟨⟨_, _, _, _, rfl⟩, rfl, .of_settings rfl rfl rfl⟩
  obtain ⟨ran, ends, late, played⟩ : Execution (accelerando.take ⟨0, .begin⟩) overtaken ∧
      (accelerando.returned? 0 overtaken).isSome = true ∧
      ((accelerando.take ⟨0, .begin⟩).after overtaken).clock.now 0 = 5 / 2 ∧
      ((accelerando.take ⟨0, .begin⟩).heard overtaken).length = 3 := by
    decide +kernel
  obtain ⟨outcome, returned⟩ := Option.isSome_iff_exists.mp ends
  obtain ⟨finish, finished, now, -, heard, -⟩ :=
    (returned_position_is_the_end prepared ran (by decide +kernel)).2 outcome returned
  obtain rfl := (now 0).symm.trans late
  exact ⟨prepared, ran, outcome, returned, finished, played, heard⟩

end Performance

end Partita
