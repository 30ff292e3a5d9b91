import Partita.Proofs.Performance.Denotation
import Partita.Proofs.Performance.Turn

/-! What a turn comes to exactly while nothing goes wrong: the engine carries out
every call, the clock takes runs to where a virtual one would, and no run is asked to
end. `Advances` lists the turns that are left then; each of them is carried out in the
same way whether the engine records or not. -/
namespace Partita

open Score

variable {α : Type}

def Clock.isVirtual : Clock α → Bool
  | .virtual _ => true
  | .realtime _ => false

def Clock.origin? : Clock α → Option (Option α)
  | .virtual _ => none
  | .realtime origin => some origin

theorem Clock.isVirtual_eq (clock : Clock α) : clock.isVirtual = clock.origin?.isNone := by
  cases clock <;> rfl

theorem Clock.eq_virtual {clock : Clock α} (virtual : clock.isVirtual = true) :
    ∃ horizon, clock = .virtual horizon := by
  cases clock with
  | virtual horizon => exact ⟨horizon, rfl⟩
  | realtime origin => contradiction

theorem Clock.start_isVirtual [Scalar α] (time : α) (clock : Clock α) :
    (clock.start time).isVirtual = clock.isVirtual := by
  cases clock <;> rfl

theorem Clock.arrive_origin? [Scalar α] (time position seconds : α) (clock : Clock α) :
    (clock.arrive time position seconds).2.origin? = clock.origin? := by
  cases clock <;> rfl

/-- What is entered in the journal of some notes and samples. -/
def Engine.recorded (e : Engine α) (events : List (Event α)) : List (Event α) :=
  if e.recorder then events else []

@[simp] theorem Engine.recorded_nil (e : Engine α) : e.recorded [] = [] := ite_self _

namespace Deed

def events : Deed α → List (Event α)
  | .sound event => [event]
  | _ => []

def started (blocks : Blocks) (generation : Nat) (position : α) : Deed α → List (Run α)
  | .play names => (blocks.cast names).map (Performance.newRun generation position)
  | _ => []

/-- What a run does after a deed that starts runs from a number on. -/
def status (blocks : Blocks) (first : Nat) : Deed α → Status α
  | .pause seconds beats => .waiting seconds beats
  | .play names =>
    if blocks.cast names = [] then .running else .playing (List.range' first (blocks.cast names).length)
  | _ => .running

/-- Whether a deed leaves the tempo alone and does not wait for the session. -/
def isSteady : Deed α → Bool
  | .settle | .tempo _ => false
  | _ => true

end Deed

theorem Score.Command.deed_isSteady [Scalar α] {c : Command} (steady : c.isUnsteady = false) (bpm : α)
    (has : String → Bool) (block : String) (position : α) :
    (c.deed bpm has block position).isSteady = true := by
  have other {verb : String} (listed : verb ∈ ["bpm", "tempo", "waitforfinish"]) : c.verb ≠ verb := by
    rintro rfl
    simp [Command.isUnsteady] at steady
    simp [steady] at listed
  unfold Command.deed
  split
  case h_3 => exact absurd ‹_› (other (by decide))
  case h_8 => exact absurd ‹_› (other (by decide))
  case h_9 => exact absurd ‹_› (other (by decide))
  all_goals
    repeat' split
    all_goals rfl

theorem Piece.deed_isSteady [Scalar α] (piece : Piece α) {block line : String} {lines : List String}
    (steady : piece.blocks.isSteady = true) (defined : piece.blocks.lines? block = some lines)
    (member : line ∈ lines) (position : α) : (piece.deed block position line).isSteady = true := by
  cases parsed : Command.parse? line with
  | none => rw [deed_none parsed]; rfl
  | some c =>
    rw [deed_some parsed]
    apply Command.deed_isSteady
    have each := List.all_eq_true.mp (List.all_eq_true.mp steady _ (Blocks.mem_of_lines? defined)) line member
    simpa [parsed] using each

def Status.isCalm : Status α → Bool
  | .ended (.failed _) | .ended .cancelled => false
  | _ => true

/-- A run of a block that goes on as it should. -/
structure Run.Calm (r : Run α) (p : Performance α) : Prop where
  block : ∃ lines, p.blocks.lines? r.name = some lines ∧ r.lines = lines.toArray
  generation : r.generation = p.session.generation
  voiced : r.name ≠ mainName → (p.voices.lookup r.name).isSome
  status : r.status.isCalm = true

/-- The line that a run reads is one of its block. -/
theorem Run.Calm.mem_lines {p : Performance α} {run : Run α} (calm : run.Calm p) {line : String}
    (next : run.next? p.session = some line) :
    run.lines[run.cursor]? = some line ∧ ∃ lines, p.blocks.lines? run.name = some lines ∧ line ∈ lines := by
  obtain ⟨lines, defined, same⟩ := calm.block
  have there := Run.getElem?_of_next? next
  refine ⟨there, lines, defined, ?_⟩
  rw [same] at there
  simpa using Array.mem_of_getElem? there

namespace Performance

def piece (p : Performance α) : Piece α := ⟨p.blocks, p.session.bpm, p.engine.hasSample⟩

def sounding (p : Performance α) : List (Event α) := p.journal.toList.filter Event.isSounding

/-- What a turn keeps beside the runs, while some notes and samples are played. -/
structure Keeps (sounds : List (Event α)) (p q : Performance α) : Prop where
  blocks : q.blocks = p.blocks
  bpm : q.session.bpm = p.session.bpm
  playing : q.session.playing = p.session.playing
  generation : q.session.generation = p.session.generation
  asked : ∀ id, q.isAsked id = p.isAsked id
  origin : q.clock.origin? = p.clock.origin?
  engine : p.engine.Alike q.engine
  voices : ∀ name, (p.voices.lookup name).isSome → (q.voices.lookup name).isSome
  sounding : q.sounding = p.sounding ++ sounds

namespace Keeps

variable {p q r : Performance α} {a b : List (Event α)}

theorem refl (p : Performance α) : p.Keeps [] p :=
  ⟨rfl, rfl, rfl, rfl, fun _ => rfl, rfl, .refl _, fun _ => id, by simp⟩

theorem trans (first : p.Keeps a q) (second : q.Keeps b r) : p.Keeps (a ++ b) r where
  blocks := second.blocks.trans first.blocks
  bpm := second.bpm.trans first.bpm
  playing := second.playing.trans first.playing
  generation := second.generation.trans first.generation
  asked id := (second.asked id).trans (first.asked id)
  origin := second.origin.trans first.origin
  engine := first.engine.trans second.engine
  voices name held := second.voices name (first.voices name held)
  sounding := by rw [second.sounding, first.sounding, List.append_assoc]

theorem virtual (keeps : p.Keeps a q) : q.clock.isVirtual = p.clock.isVirtual := by
  rw [Clock.isVirtual_eq, keeps.origin, Clock.isVirtual_eq]

theorem piece (keeps : p.Keeps a q) : q.piece = p.piece := by
  have samples : q.engine.hasSample = p.engine.hasSample := by
    funext name
    simp only [Engine.hasSample, keeps.engine.samples]
  rw [Performance.piece, keeps.blocks, keeps.bpm, samples]
  rfl

theorem aside (keeps : p.Keeps a q) (still : q.Aside b r) : p.Keeps (a ++ b) r := by
  refine keeps.trans ⟨still.blocks, ?_, ?_, ?_, ?_, ?_, still.engine, still.voices, ?_⟩
  · rw [still.session]
  · rw [still.session]
  · rw [still.session]
  · intro id
    rw [isAsked, still.outbox]
    rfl
  · rw [still.clock]
  · obtain ⟨entries, grown, sounds, -⟩ := still.journal
    rw [Performance.sounding, grown, List.filter_append, sounds]
    rfl

theorem onRun (keeps : p.Keeps a q) (id : Nat) (f : Run α → Run α) : p.Keeps a (q.onRun id f) :=
  { keeps with }

theorem addRuns (keeps : p.Keeps a q) (position : α) (blocks : List (String × List String)) :
    p.Keeps a (q.addRuns position blocks) := by
  obtain ⟨_, _, added, asked⟩ := addRuns_eq position q blocks
  rw [added]
  exact { keeps with asked := fun id => (asked id).trans (keeps.asked id) }

theorem setClock (keeps : p.Keeps a q) {clock : Clock α} (origin : clock.origin? = q.clock.origin?) :
    p.Keeps a { q with clock := clock } :=
  { keeps with origin := origin.trans keeps.origin }

end Keeps

/-- A turn after which a run is `run`, some runs are started with their instruments
in use, and some notes and samples have been played. -/
structure Advance (id : Nat) (run : Run α) (started : List (Run α)) (sounds : List (Event α))
    (p q : Performance α) : Prop extends p.Keeps sounds q where
  runs : Succeeds id run started p.runs q.runs
  voiced : ∀ r ∈ started, r.name ≠ mainName → (q.voices.lookup r.name).isSome

/-- A performance in which nothing goes wrong. -/
structure Untroubled (p : Performance α) : Prop where
  virtual : p.clock.isVirtual = true
  playing : p.session.playing = true
  faultless : p.engine.Faultless
  asked : ∀ id, p.isAsked id = false
  runs : ∀ (i : Nat) (r : Run α), p.runs[i]? = some r → r.Calm p

/-- One in which, besides, no line changes the tempo and no run waits for the session. -/
structure Calm (p : Performance α) : Prop extends p.Untroubled where
  steady : p.blocks.isSteady = true
  unsettled : ∀ (i : Nat) (r : Run α), p.runs[i]? = some r → ∀ deadline, r.status ≠ .settling deadline

theorem Untroubled.clock {p : Performance α} (untroubled : p.Untroubled) : ∃ horizon, p.clock = .virtual horizon :=
  Clock.eq_virtual untroubled.virtual

/-- Runs only end where they should. -/
theorem Untroubled.finished {p : Performance α} (untroubled : p.Untroubled) {i : Nat} {outcome : Outcome α}
    (ended : p.outcome? i = some outcome) : ∃ position, outcome = .finished position := by
  obtain ⟨r, there, spent⟩ := outcome?_eq_some.mp ended
  have calm := (untroubled.runs i r there).status
  rw [spent] at calm
  cases outcome with
  | finished position => exact ⟨position, rfl⟩
  | _ => contradiction

/-- Runs go on when they can, and otherwise only give up waiting for the session. -/
theorem Untroubled.heeds {p : Performance α} (untroubled : p.Untroubled) {id : Nat} {status : Status α} {w : Wake}
    (woken : p.wakes id status w = true) : w = .go ∨ w = .timeout ∧ ∃ deadline, status = .settling deadline := by
  cases w with
  | go => exact .inl rfl
  | timeout =>
    cases status with
    | settling deadline => exact .inr ⟨rfl, deadline, rfl⟩
    | _ => simp [wakes] at woken
  | fail f =>
    cases status with
    | playing children =>
      obtain ⟨i, -, failed⟩ := List.any_eq_true.mp (by simpa only [wakes] using woken)
      unfold hasFailed at failed
      split at failed
      · obtain ⟨_, ⟨⟩⟩ := untroubled.finished ‹_›
      · contradiction
    | _ => simp [wakes] at woken
  | cancel =>
    cases status with
    | playing children =>
      simp only [wakes, untroubled.asked, Bool.false_or] at woken
      obtain ⟨i, -, cancelled⟩ := List.any_eq_true.mp woken
      unfold wasCancelled at cancelled
      split at cancelled
      · obtain ⟨_, ⟨⟩⟩ := untroubled.finished ‹_›
      · contradiction
    | _ => simp [wakes, untroubled.asked] at woken

variable [Scalar α]

section advance

variable {p : Performance α} {id : Nat} {run : Run α} (found : p.runs[id]? = some run)
include found

/-- The end of a run is counted, and may leave a record of the session. -/
theorem closed_advance (outcome : Outcome α) :
    Advance id (run.withStatus (.ended outcome)) [] [] p (p.closed id run outcome) where
  blocks := rfl
  bpm := by
    simp only [closed, onRun, counted, Session.runFinished, Session.notify]
    split <;> rfl
  playing := closed_playing ..
  generation := closed_generation ..
  asked := closed_isAsked p id run outcome
  origin := rfl
  engine := .refl _
  voices _ held := held
  sounding := by
    simp only [sounding, closed, onRun, counted]
    split <;> simp [Event.isSounding]
  runs := (Succeeds.refl found).modify (·.withStatus (.ended outcome))
  voiced := by simp

/-- A run that reads a command with a steady deed does what the deed says. -/
theorem dispatch_advance (time : α) {q : Performance α} {outcome : Except Fault (Status α)} {d : Deed α}
    (faultless : p.engine.Faultless)
    (voiced : run.name ≠ mainName → (p.voices.lookup run.name).isSome) (steady : d.isSteady = true)
    (done : Done time id run.advance (p.onRun id Run.advance) outcome q d) :
    Advance id ((d.place run.advance).withStatus (d.status p.blocks p.runs.size))
      (d.started p.blocks p.session.generation run.position) (p.engine.recorded d.events)
      p (q.entered id outcome) := by
  have going : Going id p (p.onRun id Run.advance) run.advance [] := (Going.refl found).onRun _
  have keeps : p.Keeps [] (p.onRun id Run.advance) := (Keeps.refl p).onRun _ _
  have entered {r : Performance α} {run' : Run α} {started : List (Run α)} {sounds : List (Event α)}
      {status : Status α} (gone : Going id p r run' started) (kept : p.Keeps sounds r)
      (held : ∀ s ∈ started, s.name ≠ mainName → (r.voices.lookup s.name).isSome) :
      Advance id (run'.withStatus status) started sounds p (r.entered id (.ok status)) :=
    { kept.onRun id _ with runs := (gone.onRun (·.withStatus status)).runs, voiced := held }
  cases d with
  | nothing =>
    obtain ⟨rfl, still⟩ := done
    simp only [Deed.events, Engine.recorded_nil]
    exact entered (going.aside still) (keeps.aside still) (by simp [Deed.started])
  | adjust =>
    obtain ⟨persists, still⟩ := done
    obtain rfl := persists.running faultless
    simp only [Deed.events, Engine.recorded_nil]
    exact entered (going.aside still) (keeps.aside still) (by simp [Deed.started])
  | pause seconds beats =>
    obtain ⟨rfl, still⟩ := done
    simp only [Deed.events, Engine.recorded_nil]
    exact entered (going.aside still) (keeps.aside still) (by simp [Deed.started])
  | sound event =>
    obtain ⟨persists, sounds, still, heard⟩ := done
    obtain rfl := persists.running faultless
    obtain rfl := heard faultless voiced
    exact entered (going.aside still) (keeps.aside still) (by simp [Deed.started])
  | play names =>
    obtain ⟨started, within, added, held, ended⟩ := done
    rcases ended with ⟨faulty, -⟩ | ⟨rfl, rfl⟩
    · exact absurd faultless faulty
    · have spawned := (going.addRuns run.position within).aside added
      have kept := (keeps.addRuns run.position _).aside added
      have size : (p.onRun id Run.advance).runs.size = p.runs.size := Array.size_modify
      simp only [Deed.events, Engine.recorded_nil, size]
      refine entered spawned kept ?_
      intro r member other
      obtain ⟨block, listed, rfl⟩ := List.mem_map.mp member
      exact held block listed other
  | openLoop passes =>
    obtain ⟨rfl, still⟩ := done
    simp only [Deed.events, Engine.recorded_nil]
    exact entered ((going.onRun (·.openLoop passes)).aside still) ((keeps.onRun id _).aside still)
      (by simp [Deed.started])
  | closeLoop =>
    obtain ⟨rfl, still⟩ := done
    simp only [Deed.events, Engine.recorded_nil]
    exact entered ((going.onRun Run.closeLoop).aside still) ((keeps.onRun id _).aside still)
      (by simp [Deed.started])
  | settle => contradiction
  | tempo bpm => contradiction

theorem read_advance {line : String} {d : Deed α} (time : α) (running : run.status = .running)
    (next : run.next? p.session = some line) (deed : p.piece.deed run.name run.position line = d)
    (faultless : p.engine.Faultless) (voiced : run.name ≠ mainName → (p.voices.lookup run.name).isSome)
    (steady : d.isSteady = true) :
    Advance id ((run.read line).withStatus (d.status p.blocks p.runs.size))
      (d.started p.blocks p.session.generation run.position) (p.engine.recorded d.events) p
      (exec (step time id) p) := by
  rw [exec_step found, next]
  dsimp only
  cases parsed : Command.parse? line with
  | none =>
    have here : run.read line = run.advance := by simp [Run.read, bracketOf, parsed]
    have unchanged : run.advance.withStatus .running = run.advance := by
      rw [← running]
      rfl
    rw [Piece.deed_none parsed] at deed
    subst deed
    simp only [Deed.events, Engine.recorded_nil, Deed.status, here, unchanged]
    exact { (Keeps.refl p).onRun id Run.advance with
      runs := (Succeeds.refl found).modify Run.advance, voiced := by simp [Deed.started] }
  | some c =>
    rw [Piece.deed_some parsed] at deed
    have here := run.read_command parsed p.piece.bpm p.piece.has run.name run.position
    rw [here, deed]
    refine dispatch_advance found time faultless voiced steady ?_
    rw [← deed]
    exact dispatch_done time id run.advance c (p.onRun id Run.advance)

end advance

/-- The turns of a run when nothing goes wrong: what the run becomes, the runs that
it starts and what sounds. -/
inductive Advances (p : Performance α) (run : Run α) : Run α → List (Run α) → List (Event α) → Prop where
  | starts (created : run.status = .created) : Advances p run (run.withStatus .running) [] []
  | resumes {seconds : α} {beats : Option α} (waiting : run.status = .waiting seconds beats) :
      Advances p run { run with position := run.position + Scalar.max 0 seconds, status := .running } [] []
  | rejoins {children : List Nat} (playing : run.status = .playing children)
      (all : children.all p.hasFinished = true) :
      Advances p run { run with
        position := Scalar.maximum run.position (p.finishedAt children), status := .running } [] []
  | reads {line : String} {d : Deed α} (running : run.status = .running)
      (next : run.next? p.session = some line) (deed : p.piece.deed run.name run.position line = d) :
      Advances p run ((run.read line).withStatus (d.status p.blocks p.runs.size))
        (d.started p.blocks p.session.generation run.position) d.events
  | ends (running : run.status = .running) (spent : run.next? p.session = none) :
      Advances p run (run.withStatus (.ended (.finished run.position))) [] []

/-- The same performance with a recorder or without, and with another journal. -/
def taped (p : Performance α) (recorder : Bool) (journal : Array (Event α)) : Performance α :=
  { p with engine := { p.engine with recorder := recorder }, journal := journal }

def virtually (p : Performance α) : Performance α := { p with clock := .virtual 0 }

/-- The clock takes a run that has waited to where a virtual clock would. -/
structure InTime (p : Performance α) (run : Run α) (time : α) : Prop where
  arrives : ∀ seconds beats, run.status = .waiting seconds beats →
    (p.clock.arrive time run.position seconds).1 = run.position + Scalar.max 0 seconds
  joins : ∀ children, run.status = .playing children → children.all p.hasFinished = true →
    p.clock.settle time run.position (p.finishedAt children) =
      Scalar.maximum run.position (p.finishedAt children)

theorem Untroubled.virtually {p : Performance α} (untroubled : p.Untroubled) : p.virtually.Untroubled where
  virtual := rfl
  playing := untroubled.playing
  faultless := untroubled.faultless
  asked := untroubled.asked
  runs i r there := { untroubled.runs i r there with }

theorem Untroubled.of_virtually {p : Performance α} (untroubled : p.virtually.Untroubled)
    (virtual : p.clock.isVirtual = true) : p.Untroubled where
  virtual := virtual
  playing := untroubled.playing
  faultless := untroubled.faultless
  asked := untroubled.asked
  runs i r there := { untroubled.runs i r there with }

theorem Calm.virtually {p : Performance α} (calm : p.Calm) : p.virtually.Calm :=
  ⟨calm.toUntroubled.virtually, calm.steady, calm.unsettled⟩

theorem Untroubled.inTime {p : Performance α} (untroubled : p.Untroubled) (run : Run α) (time : α) :
    p.InTime run time := by
  obtain ⟨horizon, clock⟩ := untroubled.clock
  constructor
  · intro seconds beats _
    rw [clock]
    rfl
  · intro children _ _
    rw [clock]
    rfl

theorem step_advances {p : Performance α} {id : Nat} {run : Run α} (untroubled : p.virtually.Untroubled)
    (found : p.runs[id]? = some run) (running : run.status = .running)
    (steady : ∀ line, run.next? p.session = some line →
      (p.piece.deed run.name run.position line).isSteady = true) (time : α) :
    ∃ run' started events, Advances p run run' started events ∧ ∀ recorder journal,
      Advance id run' started ((p.taped recorder journal).engine.recorded events) (p.taped recorder journal)
        (exec (step time id) (p.taped recorder journal)) := by
  cases next : run.next? p.session with
  | none =>
    refine ⟨_, _, _, .ends running next, fun recorder journal => ?_⟩
    have found : (p.taped recorder journal).runs[id]? = some run := found
    have next : run.next? (p.taped recorder journal).session = none := next
    rw [exec_step found, next, Engine.recorded_nil]
    exact closed_advance found _
  | some line =>
    refine ⟨_, _, _, .reads running next rfl, fun recorder journal => ?_⟩
    have found : (p.taped recorder journal).runs[id]? = some run := found
    have next' : run.next? (p.taped recorder journal).session = some line := next
    exact read_advance found time running next' rfl { untroubled.faultless with }
      (untroubled.runs id run found).voiced (steady line next)

theorem wake_advances {p : Performance α} {id : Nat} {run : Run α} {w : Wake} {time : α}
    (untroubled : p.virtually.Untroubled) (found : p.runs[id]? = some run)
    (unsettled : ∀ deadline, run.status ≠ .settling deadline) (woken : p.wakes id run.status w = true)
    (timed : p.InTime run time) :
    ∃ run', Advances p run run' [] [] ∧ ∀ recorder journal,
      Advance id run' [] [] (p.taped recorder journal) (exec (wake time id w) (p.taped recorder journal)) := by
  have keeps (recorder : Bool) (journal : Array (Event α)) := Keeps.refl (p.taped recorder journal)
  have succeeds := Succeeds.refl found
  obtain rfl | ⟨rfl, deadline, settling⟩ := untroubled.heeds woken
  · cases status : run.status with
    | running => simp [wakes, status] at woken
    | ended outcome => simp [wakes, status] at woken
    | settling deadline => exact absurd status (unsettled deadline)
    | created =>
      refine ⟨_, .starts status, fun recorder journal => ?_⟩
      rw [exec_wake_created (p := p.taped recorder journal) found time status]
      exact { (keeps recorder journal).onRun id _ with
        runs := succeeds.modify (·.withStatus .running)
        voiced := by simp }
    | waiting seconds beats =>
      refine ⟨_, .resumes status, fun recorder journal => ?_⟩
      have still := exec_wake_waiting (p := p.taped recorder journal) found time status
      rw [show ((p.taped recorder journal).clock.arrive time run.position seconds).1 = _ from
        timed.arrives seconds beats status] at still
      have origin : ((p.taped recorder journal).clock.arrive time run.position seconds).2.origin? =
          (p.taped recorder journal).clock.origin? := Clock.arrive_origin? ..
      exact { (((keeps recorder journal).setClock origin).onRun id _).aside still with
        runs := still.runs ▸ succeeds.modify fun r => { r with
          position := run.position + Scalar.max 0 seconds, status := .running }
        voiced := by simp }
    | playing children =>
      have all : children.all p.hasFinished = true := by simpa only [wakes, status] using woken
      refine ⟨_, .rejoins status all, fun recorder journal => ?_⟩
      rw [exec_wake_playing (p := p.taped recorder journal) found time status]
      exact { (keeps recorder journal).onRun id _ with
        runs := by
          rw [← timed.joins children status all]
          exact succeeds.modify fun r => { r with
            position := p.clock.settle time r.position (p.finishedAt children), status := .running }
        voiced := by simp }
  · exact absurd settling (unsettled deadline)

/-- While nothing goes wrong, every act that is a run's turn is one of its turns, and
what sounds in it does not depend on whether it is recorded. -/
theorem take_advances {p : Performance α} {m : Moment α} {id : Nat} (calm : p.virtually.Calm)
    (timed : ∀ run, p.runs[id]? = some run → p.InTime run m.time) (turn : m.act.actor? = some id)
    (ready : p.enabled m.act = true) :
    ∃ run run' started events, p.runs[id]? = some run ∧ Advances p run run' started events ∧
      ∀ recorder journal, Advance id run' started ((p.taped recorder journal).engine.recorded events)
        (p.taped recorder journal) ((p.taped recorder journal).take m) := by
  obtain ⟨run, found, prompt⟩ := exists_prompt turn ready
  cases prompt with
  | step time running =>
    have steady (line : String) (next : run.next? p.session = some line) :
        (p.piece.deed run.name run.position line).isSteady = true := by
      obtain ⟨-, lines, defined, member⟩ := (calm.runs _ _ found).mem_lines next
      exact Piece.deed_isSteady p.piece calm.steady defined member run.position
    obtain ⟨run', started, events, advances, taken⟩ := step_advances calm.toUntroubled found running steady time
    exact ⟨run, run', started, events, found, advances, taken⟩
  | wake time w woken =>
    obtain ⟨run', advances, taken⟩ :=
      wake_advances calm.toUntroubled found (calm.unsettled _ _ found) woken (timed run found)
    refine ⟨run, run', [], [], found, advances, fun recorder journal => ?_⟩
    rw [Engine.recorded_nil]
    exact taken recorder journal

end Performance

end Partita
