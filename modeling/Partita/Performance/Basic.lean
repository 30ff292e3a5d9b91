import Partita.Config
import Partita.Performance.Clock
import Partita.Performance.Run
import Partita.Performance.Session
import Partita.Score.Blocks
import Partita.Voice.Instrument

/-! A performance of a block map: the session, the runs, the instruments and the
engine. Who takes the next step is not its business. It puts what concerns the
scheduling of its runs in an outbox, in the order in which it happens. -/
namespace Partita

open Score (Blocks)

variable {α : Type} [Scalar α]

/-- What a performance asks of whoever schedules its runs. -/
inductive Request where
  /-- Wake whoever waits for the session to change. -/
  | changed
  /-- A run has been created. -/
  | spawned (run : Nat)
  /-- A run is to be cancelled. -/
  | cancel (run : Nat)
  deriving DecidableEq, Repr

structure Performance (α : Type) where
  blocks : Blocks
  config : Config α
  session : Session α
  clock : Clock α
  /-- The parameters of every instrument asked for, in the order of asking. -/
  params : List (String × Parameters α)
  /-- The voices of the instruments that are in use, in the order of their
  completion. -/
  voices : List (String × Nat)
  engine : Engine α
  runs : Array (Run α)
  journal : Array (Event α)
  outbox : Array Request

/-- Operations of a performance. What was done before a fault stays done. -/
abbrev PerformM (α : Type) := ExceptT Fault (StateM (Performance α))

namespace Performance

def initial (blocks : Blocks) (config : Config α) (clock : Clock α) (engine : Engine α) :
    Performance α :=
  { blocks, config, clock, engine
    session := Session.initial config.bpm
    params := [], voices := [], runs := #[], journal := #[], outbox := #[] }

def record (event : Event α) : PerformM α Unit :=
  modify fun p => { p with journal := p.journal.push event }

def log (severity : Severity) (text : String) : PerformM α Unit :=
  record (.log ⟨severity, "scheduler", text⟩)

def ask (request : Request) : PerformM α Unit :=
  modify fun p => { p with outbox := p.outbox.push request }

def setSession (f : Session α → Session α) : PerformM α Unit :=
  modify fun p => { p with session := f p.session }

def announce (f : Session α → Session α) : PerformM α Unit := do
  setSession f
  ask .changed

def setRun (id : Nat) (f : Run α → Run α) : PerformM α Unit :=
  modify fun p => { p with runs := p.runs.modify id f }

def onDesk {β : Type} (name : String) (voice : Nat) (act : DeskM α β) : PerformM α β := do
  let p ← get
  let params := (p.params.lookup name).getD Parameters.initial
  let (result, desk) := act.run.run ⟨⟨name, voice, params⟩, p.engine, p.journal⟩
  set { p with
    params := assign name desk.instrument.params p.params
    engine := desk.engine
    journal := desk.journal }
  liftExcept result
where
  liftExcept : Except Fault β → PerformM α β
    | .ok b => pure b
    | .error f => throw f

/-- Operates on the instrument of a name, if it is in use. -/
def onInstrument (name : String) (act : DeskM α Unit) : PerformM α Unit := do
  match (← get).voices.lookup name with
  | some voice => onDesk name voice act
  | none => pure ()

def onInstruments (act : DeskM α Unit) : PerformM α Unit := do
  for (name, voice) in (← get).voices do onDesk name voice act

/-- Builds a voice by the first of some routes that can be built. -/
def createVoice (name : String) : List Mode → PerformM α Nat
  | [] => throw (.noRoute name)
  | mode :: rest => do
    let p ← get
    match p.engine.createVoice name mode with
    | .error f =>
      log .error s!"Error connecting {mode.name} audio for {name}: {f.message}"
      createVoice name rest
    | .ok (id, engine) =>
      set { p with engine }
      if engine.recorder then record (.createVoice name mode)
      unless mode == .full do log .warning s!"Using {mode.name} connection for {name} (fallback)"
      return id

/-- Sees to it that the instrument of a block is in use. The main block has
none. -/
def ensureInstrument (name : String) : PerformM α Unit := do
  let p ← get
  if name != Score.mainName && (p.voices.lookup name).isNone then
    if (p.params.lookup name).isNone then
      set { p with params := p.params ++ [(name, Parameters.initial)] }
    let voice ← createVoice name Mode.all
    onDesk name voice Instrument.sync
    modify fun p => { p with voices := p.voices ++ [(name, voice)] }
    log .info s!"Created synth for block: {name}"

/-- Starts a run of a block at a position. The run is counted at once. -/
def spawn (name : String) (position : α) : PerformM α (Option Nat) := do
  match (← get).blocks.lines? name with
  | none =>
    log .error s!"Block {name} not found"
    return none
  | some lines =>
    ensureInstrument name
    announce Session.runStarted
    let p ← get
    let id := p.runs.size
    set { p with
      runs := p.runs.push
        ⟨name, lines.toArray, p.session.generation, position, 0, [], .created⟩ }
    log .info s!"Executing block: {name}"
    ask (.spawned id)
    return some id

/-- Starts a performance: the main block runs from the beginning. -/
def begin (time : α) : PerformM α (Option Nat) := do
  setSession Session.start
  modify fun p => { p with clock := p.clock.start time }
  spawn Score.mainName 0

def stopSamples : PerformM α Unit := do
  modify fun p => { p with engine := p.engine.stopSamples }
  if (← get).engine.recorder then record .stopSamples

def stop : PerformM α Unit := do
  announce Session.stop
  onInstruments Instrument.release
  stopSamples
  log .info "Playback stopped (allowing delay/reverb tails to complete)"

/-- Cancels every run and silences every voice. -/
def forceStop : PerformM α Unit := do
  let p ← get
  for id in List.range p.runs.size do
    if (p.runs[id]?.map (·.isLive)).getD false then ask (.cancel id)
  onInstruments Instrument.silence
  stopSamples
  announce Session.reset

/-- Brings all instruments in line for a replay. -/
def normalizeVolumes : PerformM α Unit := do
  onInstruments Instrument.normalize
  let percent ← liftFault (Scalar.toNearest ((← get).config.masterVolume * 100))
  log .info s!"Master volume set to {percent}% with adaptive normalization"
where
  liftFault : Except Fault Int → PerformM α Int
    | .ok n => pure n
    | .error f => throw f

/-- Starts the main block again on the instruments built so far. -/
def replay (time : α) : PerformM α (Option Nat) := do
  if (← get).session.playing then forceStop
  normalizeVolumes
  begin time

end Performance

end Partita
