import Partita.Stage.Basic

/-! The conductor, and the run of a stage. A stage takes one small step at a
time: a task leaves or enters a call, or the loop runs a callback. -/
namespace Partita.Stage

variable {α : Type} [Scalar α]

def sessionAct (cue : SessionCue α) : PerformM α (Value α) := do
  match cue with
  | .start => Performance.setSession Session.start
  | .runStarted =>
    Performance.announce Session.runStarted
    return .count (← get).session.generation
  | .runFinished (.ofNat generation) position => Performance.countFinish generation position
  | .runFinished (.negSucc _) _ => pure ()
  | .stop => Performance.announce Session.stop
  | .reset => Performance.announce Session.reset
  | .setBpm bpm => Performance.setSession (·.setBpm bpm)
  return .nothing

/-- The event that announces a change is replaced when it is set. -/
def changedAct (cue : SessionCue α) : PerformM α (Value α) := do
  let before := (← get).session.changes
  discard (sessionAct cue)
  let after := (← get).session.changes
  return .flags [before < after, before == after, false]

/-- Carries out a cue on the first performance inside the calls `frames`. -/
def carryOut (s : Stage α) (task : Nat) (frames : List (Frame α)) (cue : Cue α) : Stage α :=
  let proceed (s : Stage α) (v : Reply (Value α)) : Stage α := s.onLoop (·.proceed task frames v)
  let finish {β : Type} (f : β → Value α) : Except Fault β × Stage α → Stage α
    | (.ok b, s) => proceed s (.value (f b))
    | (.error e, s) => proceed s (.raised (.fault e))
  match cue with
  | .perform replay => s.openMain task frames 0 replay
  | .start replay =>
    let (cell, loop) := s.loop.newTask [.open_ 0 replay]
    proceed { s with loop, background := some cell } (.value .nothing)
  | .spawn name position =>
    match s.onPart 0 (Performance.spawn name position) with
    | (.error e, s) => proceed s (.raised (.fault e))
    | (.ok none, s) => proceed s (.value .nothing)
    | (.ok (some run), s) =>
      match s.parts[0]?.bind (·.cells[run]?) with
      | some cell => s.onLoop (·.await task frames cell)
      | none => proceed s (.value .nothing)
  | .join =>
    match s.background with
    | some cell => s.onLoop (·.await task frames cell)
    | none => proceed s (.value .nothing)
  | .cancel =>
    let s := match s.background with
      | some cell => s.onLoop (·.cancel cell)
      | none => s
    proceed s (.value .nothing)
  | .ticks 0 => proceed s (.value .nothing)
  | .ticks (n + 1) => s.onLoop (·.yield task (.ticks n :: frames))
  | .sleep seconds => s.sleep task frames seconds
  | .stop => finish (fun _ => .nothing) (s.onPart 0 Performance.stop)
  | .forceStop => finish (fun _ => .nothing) (s.onPart 0 Performance.forceStop)
  | .normalize => finish (fun _ => .nothing) (s.onPart 0 Performance.normalizeVolumes)
  | .session cue => finish id (s.onPart 0 (sessionAct cue))
  | .changed cue => finish id (s.onPart 0 (changedAct cue))
  | .wait baseline timeout =>
    let (cell, loop) := s.loop.newTask [.settle 0 baseline timeout none]
    proceed { s with loop, waits := s.waits.push cell } (.value .nothing)
  | .joinWaits => s.onLoop (·.proceed task (.joining s.waits.toList :: frames) (.value .nothing))

def report (s : Stage α) (outcome : Reply (Value α)) : Stage α :=
  let performance? := s.parts[0]?.map (·.performance)
  { s with
    journal := #[]
    reports := s.reports.push
      { outcome
        journal := s.journal
        time := s.loop.time
        session := performance?.map (·.session)
        now := (performance?.map (·.clock.now s.loop.time)).getD 0
        waits := s.waits.toList.map s.loop.result? } }

def deliver (s : Stage α) (task : Nat) (signal : Reply (Value α)) : Stage α :=
  match s.loop.frames task with
  | [] => s.onLoop (·.leave task [] signal)
  | frame :: frames =>
    match frame with
    | .run part run => s.deliverRun task frames part run signal
    | .within inner waiter timer => s.deliverWithin task frames inner waiter timer signal
    | .ending inner timer timedOut => s.deliverEnding task frames inner timer timedOut signal
    | .sleeping timer => s.onLoop fun l => (l.cancelTimer timer).leave task frames signal
    | .listen part epoch => s.deliverListen task frames part epoch signal
    | .settle part baseline timeout deadline =>
      s.deliverSettle task frames part baseline timeout deadline signal
    | .open_ part replay =>
      match signal with
      | .raised x => s.onLoop (·.leave task frames (.raised x))
      | .value _ => s.openMain task frames part replay
    | .main part generation => s.closeMain task frames part generation signal
    | .ticks count =>
      match signal, count with
      | .value _, n + 1 => s.onLoop (·.yield task (.ticks n :: frames))
      | signal, _ => s.onLoop (·.leave task frames signal)
    | .joining cells =>
      match signal, cells with
      | .value _, cell :: rest => s.onLoop (·.await task (.joining rest :: frames) cell)
      | .value _, [] => s.onLoop (·.leave task frames (.value .nothing))
      | signal, _ => s.onLoop (·.leave task frames signal)
    | .conductor cues busy =>
      let s := if busy then s.report signal else s
      match cues with
      | [] => s.onLoop (·.leave task frames (.value .nothing))
      | cue :: rest => s.carryOut task (.conductor rest true :: frames) cue
    | .studio _ => s.onLoop (·.leave task frames signal)

def step? (s : Stage α) : Option (Stage α) :=
  match s.loop.active with
  | some (task, signal) => some (s.deliver task signal)
  | none =>
    match s.loop.round with
    | c :: rest => some (s.onLoop fun l => { l with round := rest }.run .nothing c)
    | [] => s.loop.nextRound?.map fun loop => { s with loop }

/-- Takes small steps until a cell has its result. -/
def runUntil (cell : Nat) : (fuel : Nat) → Stage α → Stage α
  | 0, s => s
  | fuel + 1, s =>
    if s.loop.isDone cell then s
    else match s.step? with
      | some s => runUntil cell fuel s
      | none => s

def initial : Stage α := ⟨Loop.initial, #[], #[], #[], [], none, #[], #[]⟩

/-- The number of small steps after which a stage is given up. -/
def patience : Nat := 1000000000000

def conduct (p : Performance α) (engine : Engine α) (cues : List (Cue α)) : Stage α :=
  let s : Stage α := { initial with engines := #[engine] }
  let (_, s) := s.addPart p 0
  let (cell, loop) := s.loop.newTask [.conductor cues false]
  runUntil cell patience { s with loop }

end Partita.Stage
