import Partita.Stage.Conductor
import Partita.Studio.Basic

/-! A hall: a studio and the stage of its performances. Renders and live
performances are tasks of the loop of the stage. -/
namespace Partita

variable {α : Type} [Scalar α]

/-- The performance that is kept for live playing, with the engine and the
script it was made for. -/
structure Live where
  part : Nat
  engine : Nat
  revision : Nat
  deriving DecidableEq, Repr

structure Hall.Report (α : Type) where
  outcome : Reply (Value α)
  journal : Array (Event α)
  active : Option (Session α)
  studio : Studio α

structure Hall (α : Type) where
  stage : Stage α
  studio : Studio α
  /-- The performance that is under way. -/
  active : Option Nat := none
  live : Option Live := none
  /-- How many estimates its calls can nest, if that is limited. -/
  room : Option Nat := none
  reports : Array (Hall.Report α) := #[]

namespace Hall

def onLoop (h : Hall α) (f : Loop α (Value α) (Frame α) → Loop α (Value α) (Frame α)) : Hall α :=
  { h with stage := h.stage.onLoop f }

def leave (h : Hall α) (task : Nat) (frames : List (Frame α)) (r : Reply (Value α)) : Hall α :=
  h.onLoop (·.leave task frames r)

/-- Operates on the studio; what it enters in its journal goes to that of the
stage. -/
def onStudio {β : Type} (h : Hall α) (act : StudioM α β) : Except Fault β × Hall α :=
  let (result, studio) := act.run.run { h.studio with journal := #[] }
  (result, { h with
    studio := { studio with journal := #[] }
    stage := { h.stage with journal := h.stage.journal ++ studio.journal } })

/-- A reply as a render passes it on. -/
def renderReply : Reply (Value α) → Reply (Value α)
  | .raised (.fault f) => .raised (.fault f.inRender)
  | r => r

/-- Nothing is under way any more, and the call is left. -/
def leaveIdle (h : Hall α) (task : Nat) (frames : List (Frame α)) (r : Reply (Value α)) : Hall α :=
  { h with active := none }.leave task frames r

/-- The clock of a render. -/
def renderClock (c : Config α) : Clock α := if c.realtimeRender then .realtime none else .virtual 0

/-- Puts a performance of the script on the stage, with an engine there. -/
def addPart (h : Hall α) (clock : Clock α) (engine : Nat) : Nat × Hall α :=
  let (part, stage) :=
    h.stage.addPart (Performance.initial h.studio.blocks h.studio.config clock {}) engine
  (part, { h with stage })

/-- Begins a render inside a task, which then waits for the performance. -/
def openRender (h : Hall α) (task : Nat) (frames : List (Frame α)) : Hall α :=
  match h.onStudio (Studio.renderSeconds h.room) with
  | (.error f, h) => h.leave task frames (.raised (.fault f))
  | (.ok seconds, h) =>
    match h.onStudio (Studio.prepare seconds) with
    | (.error f, h) => h.leaveIdle task frames (.raised (.fault f.inRender))
    | (.ok mix, h) =>
      let engine := h.stage.engines.size
      let h := { h with stage := { h.stage with engines := h.stage.engines.push mix.engine } }
      let (part, h) := h.addPart (renderClock h.studio.config) engine
      { h with
        active := some part
        stage := h.stage.openMain task (.studio (.rendering part mix.plan) :: frames) part false }

/-- The performance of a render has ended: it is mixed, or else silenced. -/
def closeRender (h : Hall α) (task : Nat) (frames : List (Frame α)) (part : Nat) (plan : MixPlan α)
    (r : Reply (Value α)) : Hall α :=
  match r with
  | .value (.number position) =>
    let engine := ((h.stage.parts[part]?.bind fun p => h.stage.engines[p.engine]?)).getD {}
    match h.onStudio (Studio.finishRender ⟨plan, engine⟩ position) with
    | (.ok buffer, h) => h.leaveIdle task frames (.value (.buffer buffer))
    | (.error f, h) => h.leaveIdle task frames (.raised (.fault f.inRender))
  | r =>
    { h with stage := h.stage.execPart part Performance.forceStop }.leaveIdle task frames (renderReply r)

/-- Begins a live performance inside a task, which then waits for its end. The
performance made last is taken up again if engine and script are the same. -/
def openLive (h : Hall α) (task : Nat) (frames : List (Frame α)) (engine : Nat) (clock : Clock α) :
    Hall α :=
  if !h.studio.blocks.contains Score.mainName then h.leave task frames (.raised (.fault .noMain))
  else
    let kept := h.live.filter fun l => l.engine == engine && l.revision == h.studio.revision
    let (part, h) := match kept with
      | some l => (l.part, h)
      | none => h.addPart clock engine
    { h with
      live := some ⟨part, engine, h.studio.revision⟩
      active := some part
      stage := h.stage.openMain task (.studio .live :: frames) part true }

/-- Operates on the performance that is under way, if there is one. -/
def onActive (h : Hall α) (act : PerformM α Unit) : Except Fault Unit × Hall α :=
  match h.active with
  | none => (.ok (), h)
  | some part =>
    let (result, stage) := h.stage.onPart part act
    (result, { h with stage })

/-- Stops the performance that is under way and then what is being played. -/
def halt (h : Hall α) (act : PerformM α Unit) (after : StudioM α Unit) : Except Fault Unit × Hall α :=
  match h.onActive act with
  | (.error f, h) => (.error f, h)
  | (.ok _, h) => h.onStudio (do Studio.stopPlayback; after)

def stop (h : Hall α) : Except Fault Unit × Hall α := h.halt Performance.stop (pure ())

def forceStop (h : Hall α) : Except Fault Unit × Hall α :=
  h.halt Performance.forceStop (Studio.log .info "Playback force stopped")

/-- A task that runs in the background. -/
def begin (h : Hall α) (frame : StudioFrame α) : Hall α :=
  let (cell, loop) := h.stage.loop.newTask [.studio frame]
  { h with stage := { h.stage with loop, background := some cell } }

/-- Carries out a cue inside the calls `frames`. -/
def carryOut (h : Hall α) (task : Nat) (frames : List (Frame α)) (cue : StudioCue α) : Hall α :=
  let proceed (h : Hall α) (v : Reply (Value α)) : Hall α := h.onLoop (·.proceed task frames v)
  let finish {β : Type} (f : β → Value α) : Except Fault β × Hall α → Hall α
    | (.ok b, h) => proceed h (.value (f b))
    | (.error e, h) => proceed h (.raised (.fault e))
  let nothing {β : Type} (_ : β) : Value α := .nothing
  let refusals : Except (List Violation) Unit → Value α
    | .ok _ => .nothing
    | .error vs => .refused vs
  match cue with
  | .parse code => finish nothing (h.onStudio (Studio.parse code))
  | .estimate => finish .number (h.onStudio (Studio.estimate h.room))
  | .addSample name audio rate => finish nothing (h.onStudio (Studio.addSample name audio rate))
  | .loadSamples folder => finish .count (h.onStudio (Studio.loadSamples folder))
  | .setCompressor values => finish refusals (h.onStudio (Studio.setCompressor values))
  | .setLimiter values => finish refusals (h.onStudio (Studio.setLimiter values))
  | .render => h.openRender task frames
  | .playLive engine clock => h.openLive task frames engine clock
  | .beginRender => proceed (h.begin .openRender) (.value .nothing)
  | .beginLive engine clock => proceed (h.begin (.openLive engine clock)) (.value .nothing)
  | .join =>
    match h.stage.background with
    | some cell => h.onLoop (·.await task frames cell)
    | none => proceed h (.value .nothing)
  | .ticks 0 => proceed h (.value .nothing)
  | .ticks (n + 1) => h.onLoop (·.yield task (.ticks n :: frames))
  | .sleep seconds => { h with stage := h.stage.sleep task frames seconds }
  | .playRendered =>
    finish (fun p => .number p.duration) (h.onStudio (Studio.playRendered h.stage.loop.time none))
  | .waitPlayback => finish nothing (h.onStudio Studio.waitPlayback)
  | .perform code =>
    (h.onStudio (Studio.parse code)).2.openRender task (.studio .performing :: frames)
  | .stop => finish nothing h.stop
  | .forceStop => finish nothing h.forceStop
  | .exportWave path float =>
    finish (.file (Files.Path.ofString path).text) (h.onStudio (Studio.exportWave path float))

def report (h : Hall α) (outcome : Reply (Value α)) : Hall α :=
  { h with
    stage := { h.stage with journal := #[] }
    reports := h.reports.push
      { outcome
        journal := h.stage.journal
        active := h.active.bind fun part => h.stage.parts[part]?.map (·.performance.session)
        studio := h.studio } }

def deliverStudio (h : Hall α) (task : Nat) (frames : List (Frame α)) (r : Reply (Value α)) :
    StudioFrame α → Hall α
  | .openRender =>
    match r with
    | .raised x => h.leave task frames (.raised x)
    | .value _ => h.openRender task frames
  | .rendering part plan => h.closeRender task frames part plan r
  | .openLive engine clock =>
    match r with
    | .raised x => h.leave task frames (.raised x)
    | .value _ => h.openLive task frames engine clock
  | .live => h.leaveIdle task frames r
  | .performing =>
    match r with
    | .raised x => h.leave task frames (.raised x)
    | .value _ =>
      match h.onStudio (Studio.playRendered h.stage.loop.time none) with
      | (.ok p, h) => h.leave task frames (.value (.number p.duration))
      | (.error f, h) => h.leave task frames (.raised (.fault f))
  | .director cues busy =>
    let h := if busy then h.report r else h
    match cues with
    | [] => h.leave task frames (.value .nothing)
    | cue :: rest => h.carryOut task (.studio (.director rest true) :: frames) cue

def deliver (h : Hall α) (task : Nat) (r : Reply (Value α)) : Hall α :=
  match h.stage.loop.frames task with
  | .studio frame :: frames => h.deliverStudio task frames r frame
  | _ => { h with stage := h.stage.deliver task r }

def step? (h : Hall α) : Option (Hall α) :=
  match h.stage.loop.active with
  | some (task, r) => some (h.deliver task r)
  | none => h.stage.step?.map fun stage => { h with stage }

/-- Takes small steps until a cell has its result. -/
def runUntil (cell : Nat) : (fuel : Nat) → Hall α → Hall α
  | 0, h => h
  | fuel + 1, h =>
    if h.stage.loop.isDone cell then h
    else match h.step? with
      | some h => runUntil cell fuel h
      | none => h

def ofStudio (studio : Studio α) (engines : List (Engine α)) (room : Option Nat := none) : Hall α :=
  { studio, room, stage := { Stage.initial with engines := engines.toArray } }

def direct (h : Hall α) (cues : List (StudioCue α)) : Hall α :=
  let (cell, loop) := h.stage.loop.newTask [.studio (.director cues false)]
  runUntil cell Stage.patience { h with stage := { h.stage with loop } }

end Hall

end Partita
