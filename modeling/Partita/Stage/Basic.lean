import Partita.Config.Reading
import Partita.Mix.Buffer
import Partita.Mix.Plan
import Partita.Performance.Step
import Partita.Stage.Loop
import Partita.Wave.Encode

/-! A stage: performances and whoever conducts them, as tasks of one event loop.
A task is suspended inside calls, which are kept as data. -/
namespace Partita

variable {α : Type} [Scalar α]

inductive Value (α : Type) where
  | nothing
  | number (x : α)
  | flag (b : Bool)
  | count (n : Nat)
  | flags (bs : List Bool)
  | buffer (b : Buffer α)
  | file (path : String) (f : Wave.File α)
  /-- Settings that were refused. -/
  | refused (violations : List Violation)

/-- Operations on the session of a performance. -/
inductive SessionCue (α : Type) where
  | start
  | runStarted
  | runFinished (generation : Int) (position : α)
  | stop
  | reset
  | setBpm (bpm : α)

/-- What a conductor does, one after the other. -/
inductive Cue (α : Type) where
  /-- Performs the main block and waits for its end. -/
  | perform (replay : Bool)
  /-- Does so in the background. -/
  | start (replay : Bool)
  /-- Plays a block at a position and waits for its end. -/
  | spawn (name : String) (position : α)
  /-- Waits for the end of what was started last. -/
  | join
  /-- Cancels what was started last. -/
  | cancel
  | ticks (count : Nat)
  | sleep (seconds : α)
  | stop
  | forceStop
  | normalize
  | session (cue : SessionCue α)
  /-- Does so, and tells whether the event that announces changes was set,
  whether it is still the current one, and whether the current one is set. -/
  | changed (cue : SessionCue α)
  /-- Waits, in the background, for the session to settle. -/
  | wait (baseline : Int) (timeout : α)
  /-- Waits for the end of all such waits. -/
  | joinWaits

/-- What a director does, one after the other. -/
inductive StudioCue (α : Type) where
  | parse (code : String)
  | estimate
  | addSample (name : String) (audio : Audio α) (rate : Int)
  | loadSamples (folder : String)
  | setCompressor (values : List (Setting α))
  | setLimiter (values : List (Setting α))
  /-- Renders the script and waits for it. -/
  | render
  /-- Plays the script on an engine and waits for its end. -/
  | playLive (engine : Nat) (clock : Clock α)
  /-- Do so in the background. -/
  | beginRender
  | beginLive (engine : Nat) (clock : Clock α)
  /-- Waits for the end of what was begun last. -/
  | join
  | ticks (count : Nat)
  | sleep (seconds : α)
  | playRendered
  /-- Waits for the device. -/
  | waitPlayback
  /-- Parses, renders and plays a script. -/
  | perform (code : String)
  | stop
  | forceStop
  | exportWave (path : String) (float : Bool)

/-- The calls of a studio. -/
inductive StudioFrame (α : Type) where
  /-- Is about to render. -/
  | openRender
  /-- Waits for the performance that is rendered. -/
  | rendering (part : Nat) (plan : MixPlan α)
  /-- Is about to play live. -/
  | openLive (engine : Nat) (clock : Clock α)
  | live
  /-- Waits for a render that is to be played. -/
  | performing
  /-- Has some cues left; `busy` while the one before them is under way. -/
  | director (cues : List (StudioCue α)) (busy : Bool)

/-- A call a task is suspended in. -/
inductive Frame (α : Type) where
  /-- A run of a performance. -/
  | run (part run : Nat)
  /-- Waits for a task or a timer, whichever comes first; both resolve `waiter`. -/
  | within (inner waiter timer : Nat)
  /-- Waits for the end of a task it has cancelled. -/
  | ending (inner timer : Nat) (timedOut : Bool)
  | sleeping (timer : Nat)
  /-- Waits for a change of the session. -/
  | listen (part epoch : Nat)
  /-- Waits for the session to settle; the deadline is set at the first step. -/
  | settle (part : Nat) (baseline : Int) (timeout : α) (deadline : Option α)
  /-- Is about to perform the main block. -/
  | open_ (part : Nat) (replay : Bool)
  /-- Waits for the end of the main block. -/
  | main (part generation : Nat)
  | ticks (count : Nat)
  /-- Waits for some tasks, one after the other. -/
  | joining (cells : List Nat)
  /-- Has some cues left; `busy` while the one before them is under way. -/
  | conductor (cues : List (Cue α)) (busy : Bool)
  | studio (frame : StudioFrame α)

structure Part (α : Type) where
  performance : Performance α
  engine : Nat
  cells : Array Nat

/-- A task that waits for the change after `epoch` changes of a session. -/
structure Listener where
  part : Nat
  epoch : Nat
  cell : Nat

structure Report (α : Type) where
  outcome : Reply (Value α)
  journal : Array (Event α)
  time : α
  session : Option (Session α)
  now : α
  waits : List (Option (Reply (Value α)))

structure Stage (α : Type) where
  loop : Loop α (Value α) (Frame α)
  parts : Array (Part α)
  engines : Array (Engine α)
  journal : Array (Event α)
  listeners : List Listener
  background : Option Nat
  waits : Array Nat
  reports : Array (Report α)

namespace Stage

def onLoop (s : Stage α) (f : Loop α (Value α) (Frame α) → Loop α (Value α) (Frame α)) : Stage α :=
  { s with loop := f s.loop }

/-- Carries out what a performance asked of its scheduler. -/
def serve (s : Stage α) (part : Nat) : Request → Stage α
  | .changed =>
    let changes := (s.parts[part]?.map (·.performance.session.changes)).getD 0
    let hears (l : Listener) : Bool := l.part == part && l.epoch < changes
    { s with
      loop := (s.listeners.filter hears).foldl (fun l x => l.complete x.cell (.value .nothing)) s.loop
      listeners := s.listeners.filter (!hears ·) }
  | .spawned run =>
    let (cell, loop) := s.loop.newTask [.run part run]
    { s with loop, parts := s.parts.modify part fun x => { x with cells := x.cells.push cell } }
  | .cancel run =>
    match s.parts[part]?.bind (·.cells[run]?) with
    | some cell => s.onLoop (·.cancel cell)
    | none => s

/-- Operates on a performance and carries out what it asks for. -/
def onPart {β : Type} (s : Stage α) (part : Nat) (act : PerformM α β) : Except Fault β × Stage α :=
  match s.parts[part]? with
  | none => (.error (.noRoute ""), s)
  | some x =>
    let engine := s.engines.getD x.engine {}
    let (result, p) := act.run.run { x.performance with engine, journal := #[], outbox := #[] }
    let s := { s with
      parts := s.parts.set! part { x with performance := { p with engine := {}, journal := #[], outbox := #[] } }
      engines := s.engines.set! x.engine p.engine
      journal := s.journal ++ p.journal }
    (result, p.outbox.foldl (fun s r => s.serve part r) s)

def execPart (s : Stage α) (part : Nat) (act : PerformM α Unit) : Stage α := (s.onPart part act).2

/-- Puts a performance on the stage. -/
def addPart (s : Stage α) (p : Performance α) (engine : Nat) : Nat × Stage α :=
  (s.parts.size, { s with parts := s.parts.push ⟨{ p with engine := {} }, engine, #[]⟩ })

/-- A task waits for another one, but not longer than some seconds. -/
def waitWithin (s : Stage α) (task : Nat) (frames : List (Frame α)) (inner : Frame α) (seconds : α) :
    Stage α :=
  let (waiter, l) := s.loop.newCell .plain
  let (timer, l) := l.callLater seconds (.resolve waiter)
  let (cell, l) := l.newTask [inner]
  let l := l.onDone cell (.resolve waiter)
  { s with loop := l.await task (.within cell waiter timer :: frames) waiter }

def sleep (s : Stage α) (task : Nat) (frames : List (Frame α)) (seconds : α) : Stage α :=
  if seconds ≤ 0 then s.onLoop (·.yield task frames)
  else
    let (cell, l) := s.loop.newCell .plain
    let (timer, l) := l.callLater seconds (.resolve cell)
    { s with loop := l.await task (.sleeping timer :: frames) cell }

/-- A task cancels another one and waits for its end. -/
def endInner (s : Stage α) (task : Nat) (frames : List (Frame α)) (inner waiter timer : Nat)
    (timedOut : Bool) : Stage α :=
  let l := s.loop.forget inner (.resolve waiter)
  let (again, l) := l.newCell .plain
  let l := l.onDone inner (.resolve again)
  let l := l.cancel inner
  { s with loop := l.await task (.ending inner timer timedOut :: frames) again }

/-- Goes on with a run according to its status. -/
def followRun (s : Stage α) (task : Nat) (frames : List (Frame α)) (part run : Nat) : Stage α :=
  let leave (x : Reply (Value α)) : Stage α := s.onLoop (·.leave task frames x)
  let here := Frame.run part run :: frames
  match s.parts[part]? with
  | none => leave (.raised .cancelled)
  | some x =>
    match x.performance.runs[run]? with
    | none => leave (.raised .cancelled)
    | some r =>
      match r.status with
      | .ended (.finished position) => leave (.value (.number position))
      | .ended (.failed f) => leave (.raised (.fault f))
      | .ended .cancelled => leave (.raised .cancelled)
      | .created | .running => s.onLoop (·.proceed task here (.value .nothing))
      | .waiting seconds _ =>
        match x.performance.clock.pause seconds with
        | .yield => s.onLoop (·.yield task here)
        | .sleep d => s.sleep task here d
      | .settling deadline =>
        s.waitWithin task here (.listen part x.performance.session.changes) (deadline - s.loop.time)
      | .playing children =>
        let (group, l) := s.loop.newGroup (children.filterMap (x.cells[·]?))
        { s with loop := l.await task here group }

def wakeOf : Reply (Value α) → Wake
  | .value _ => .go
  | .raised .timeout => .timeout
  | .raised .cancelled => .cancel
  | .raised (.fault f) => .fail f

/-- A run takes a step, or is taken out of what it waited for. -/
def deliverRun (s : Stage α) (task : Nat) (frames : List (Frame α)) (part run : Nat)
    (signal : Reply (Value α)) : Stage α :=
  let running := match s.parts[part]?.bind (·.performance.runs[run]?) with
    | some r => match r.status with
      | .running => true
      | _ => false
    | none => false
  let act := if running then Performance.step s.loop.time run
    else Performance.wake s.loop.time run (wakeOf signal)
  (s.execPart part act).followRun task frames part run

/-- Starts a performance inside a task, which then waits for its end. -/
def openMain (s : Stage α) (task : Nat) (frames : List (Frame α)) (part : Nat) (replay : Bool) :
    Stage α :=
  let act := do
    let p ← get
    if replay then
      if p.session.playing then Performance.forceStop
      Performance.normalizeVolumes
    let generation := (← get).session.generation
    let run ← Performance.begin s.loop.time
    return (run, generation)
  match s.onPart part act with
  | (.error f, s) => s.onLoop (·.leave task frames (.raised (.fault f)))
  | (.ok (none, _), s) => s.onLoop (·.leave task frames (.value (.number 0)))
  | (.ok (some run, generation), s) =>
    match s.parts[part]?.bind (·.cells[run]?) with
    | some cell => s.onLoop (·.await task (.main part generation :: frames) cell)
    | none => s.onLoop (·.leave task frames (.value (.number 0)))

/-- Passes on the end of the main block. -/
def closeMain (s : Stage α) (task : Nat) (frames : List (Frame α)) (part generation : Nat)
    (signal : Reply (Value α)) : Stage α :=
  match signal with
  | .raised .cancelled =>
    match s.onPart part (Performance.conclude s.loop.time generation .cancelled) with
    | (.ok (.finished position), s) => s.onLoop (·.leave task frames (.value (.number position)))
    | (_, s) => s.onLoop (·.leave task frames (.raised .cancelled))
  | signal => s.onLoop (·.leave task frames signal)

def deliverSettle (s : Stage α) (task : Nat) (frames : List (Frame α)) (part : Nat) (baseline : Int)
    (timeout : α) (deadline : Option α) (signal : Reply (Value α)) : Stage α :=
  let leave (x : Reply (Value α)) : Stage α := s.onLoop (·.leave task frames x)
  match signal with
  | .raised .timeout => leave (.value (.flag false))
  | .raised x => leave (.raised x)
  | .value _ =>
    let deadline := deadline.getD (s.loop.time + timeout)
    match s.parts[part]?.map (·.performance.session) with
    | none => leave (.value (.flag true))
    | some session =>
      match session.verdict baseline deadline s.loop.time with
      | .settled => leave (.value (.flag true))
      | .expired => leave (.value (.flag false))
      | .wait =>
        s.waitWithin task (.settle part baseline timeout (some deadline) :: frames)
          (.listen part session.changes) (deadline - s.loop.time)

def deliverListen (s : Stage α) (task : Nat) (frames : List (Frame α)) (part epoch : Nat)
    (signal : Reply (Value α)) : Stage α :=
  match signal with
  | .raised x => s.onLoop (·.leave task frames (.raised x))
  | .value _ =>
    let changes := (s.parts[part]?.map (·.performance.session.changes)).getD 0
    if epoch < changes then s.onLoop (·.leave task frames (.value .nothing))
    else
      let (cell, l) := s.loop.newCell .plain
      { s with
        loop := l.await task (.listen part epoch :: frames) cell
        listeners := s.listeners ++ [⟨part, epoch, cell⟩] }

/-- The task or the timer has come, or the waiting task is cancelled. A result
that is already there is not given up for a cancellation. -/
def deliverWithin (s : Stage α) (task : Nat) (frames : List (Frame α)) (inner waiter timer : Nat)
    (signal : Reply (Value α)) : Stage α :=
  match s.loop.result? inner with
  | some result => s.onLoop fun l => (l.cancelTimer timer).leave task frames result
  | none =>
    let timedOut := match signal with
      | .value _ => true
      | .raised _ => false
    s.endInner task frames inner waiter timer timedOut

def deliverEnding (s : Stage α) (task : Nat) (frames : List (Frame α)) (inner timer : Nat)
    (timedOut : Bool) (signal : Reply (Value α)) : Stage α :=
  let result : Reply (Value α) := match signal with
    | .raised x => .raised x
    | .value _ =>
      if timedOut then
        match s.loop.result? inner with
        | some (.value v) => .value v
        | _ => .raised .timeout
      else .raised .cancelled
  s.onLoop fun l => (l.cancelTimer timer).leave task frames result

end Stage

end Partita
