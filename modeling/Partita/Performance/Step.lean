import Partita.Performance.Dispatch

/-! The steps of a run. `wake` takes a run out of what it waited for and `step`
reads one line; between two waits a run takes steps without a break. -/
namespace Partita.Performance

open Score

variable {α : Type} [Scalar α]

/-- Counts the end of a run at a position. -/
def countFinish (generation : Nat) (position : α) : PerformM α Unit := do
  let session := (← get).session
  match session.strayFinish? generation with
  | some r => record (.log r)
  | none => pure ()
  if generation == session.generation then announce (·.runFinished generation position)

def close (id : Nat) (outcome : Outcome α) : PerformM α Unit := do
  match (← get).runs[id]? with
  | none => pure ()
  | some run =>
    countFinish run.generation run.position
    setRun id fun r => { r with status := .ended outcome }

def finish (id : Nat) (run : Run α) : PerformM α Unit := close id (.finished run.position)

/-- Enters a status, or ends a run whose command failed for good. -/
def settleStatus (id : Nat) (act : PerformM α (Status α)) : PerformM α Unit := do
  try
    let status ← act
    setRun id ({ · with status })
  catch f => close id (.failed f)

/-- A running run reads its next line, or ends when there is none or the
performance does not go on for it. -/
def step (time : α) (id : Nat) : PerformM α Unit := do
  let p ← get
  match p.runs[id]? with
  | none => pure ()
  | some run =>
    match run.lines[run.cursor]? with
    | none => finish id run
    | some line =>
      if !p.session.playing || run.generation != p.session.generation then finish id run
      else
        let run := { run with cursor := run.cursor + 1 }
        setRun id fun _ => run
        match Command.parse? line with
        | none => pure ()
        | some c => settleStatus id (dispatch time id run c)

def finishedAt (p : Performance α) (ids : List Nat) : List α :=
  ids.filterMap fun id => p.runs[id]?.bind fun run =>
    match run.status with
    | .ended (.finished position) => some position
    | _ => none

/-- Takes a run out of what it waited for. A run that is cancelled before its
first step ends without being counted out. -/
def wake (time : α) (id : Nat) (wake : Wake) : PerformM α Unit := do
  let p ← get
  match p.runs[id]? with
  | none => pure ()
  | some run =>
    match run.status, wake with
    | .created, .cancel => setRun id fun r => { r with status := .ended .cancelled }
    | _, .cancel => close id .cancelled
    | .created, _ => setRun id fun r => { r with status := .running }
    | .waiting seconds beats, _ =>
      let (position, clock) := p.clock.arrive time run.position seconds
      set { p with clock }
      setRun id fun r => { r with position, status := .running }
      match beats with
      | some b =>
        log .debug s!"Waited {Scalar.text b} beats ({Scalar.fixed 2 seconds}s at {Scalar.text p.session.bpm} BPM)"
      | none => pure ()
    | .settling _, .timeout =>
      log .warning s!"waitforfinish timed out after {Scalar.text p.config.finishTimeout} seconds, continuing execution"
      setRun id fun r => { r with status := .running }
    | .settling deadline, _ => settleStatus id (settle time deadline id)
    | .playing _, .fail f => close id (.failed f)
    | .playing children, _ =>
      setRun id fun r => { r with
        position := p.clock.settle time r.position (p.finishedAt children), status := .running }
    | .running, _ | .ended _, _ => pure ()

/-- Runs an operation that cannot fail. -/
def exec (act : PerformM α Unit) (p : Performance α) : Performance α := (act.run.run p).2

/-- The outcome of a performance whose main run is over. A reset turns a
cancelled run into an ordinary end. -/
def conclude (time : α) (generation : Nat) (outcome : Outcome α) : PerformM α (Outcome α) := do
  match outcome with
  | .cancelled =>
    let p ← get
    if p.session.generation != generation then
      log .info "Playback force stopped"
      return .finished (p.clock.now time)
    else return .cancelled
  | outcome => return outcome

end Partita.Performance
