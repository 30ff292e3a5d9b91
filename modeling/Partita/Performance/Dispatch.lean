import Partita.Performance.Basic
import Partita.Score.Effect
import Partita.Score.Pitch
import Partita.Score.Tempo
import Partita.Text.Lower

/-! What each command does to the run that reads it. -/
namespace Partita.Performance

open Score

variable {α : Type} [Scalar α]

def lift {β : Type} : Except Fault β → PerformM α β
  | .ok b => pure b
  | .error f => throw f

def filterKinds : List String := ["lowpass", "highpass", "bandpass"]

/-- The frequency of a note. A token that is no note is a misuse. -/
def pitch (token : String) : PerformM α α :=
  match (Score.frequency token : Except Fault α) with
  | .ok hz => pure hz
  | .error f =>
    match f with
    | .invalidNote _ | .tooManyDigits _ => throw (.misuse (.note f.message))
    | f => throw f

/-- Waits until the session is settled, a deadline has passed or a tail has
rung out. -/
def settle (time deadline : α) (id : Nat) : PerformM α (Status α) := do
  let p ← get
  match p.session.verdict 1 deadline time with
  | .wait => return .settling deadline
  | .expired =>
    log .warning s!"waitforfinish timed out after {Scalar.text p.config.finishTimeout} seconds, continuing execution"
    return .running
  | .settled =>
    if !p.session.playing then return .running
    setRun id fun r => { r with
      position := p.clock.settle time r.position [p.session.latestFinish] }
    return .waiting p.config.finishGrace none

/-- Starts runs of blocks and waits for them. -/
def play (run : Run α) (names : List String) : PerformM α (Status α) := do
  let children ← names.filterMapM fun name => spawn name run.position
  return if children.isEmpty then .running else .playing children

def envelopeArg (token : Option String) (missing : α) : α :=
  match token with
  | some _ => numberOr token 0
  | none => missing

/-- The commands that set a parameter of an instrument. -/
def setParameter (bpm position : α) (c : Command) : PerformM α (DeskM α Unit) := do
  let number (i : Nat) (default : α) : α := numberOr (c.arg? i) default
  match c.verb with
  | "tone" =>
    match c.arg? 0 with
    | none => throw (.misuse .toneWithoutNote)
    | some note =>
      let hz ← pitch note
      let seconds ← lift (noteSeconds (c.arg? 1) bpm)
      return Instrument.trigger [hz] seconds position
  | "tones" =>
    match c.args.getLast? with
    | none => throw (.misuse .tonesTooShort)
    | some length =>
      if c.args.length < 2 then throw (.misuse .tonesTooShort)
      let chord ← c.args.dropLast.mapM pitch
      let seconds ← lift (noteSeconds (some length) bpm)
      return Instrument.trigger chord seconds position
  | "volume" =>
    return do
      Instrument.setVolume (number 0 80)
      if 3 ≤ c.args.length then
        Instrument.setAutovolume ⟨number 0 0 / 100, number 1 100 / 100, number 2 0⟩ position
  | "pan" => return Instrument.setPan (number 0 0)
  | "reverb" => return Instrument.setReverb ⟨number 0 0, number 1 1, number 2 1.5, number 3 0.01⟩
  | "delay" =>
    let pingpong ← lift (countOr (c.arg? 2) 0)
    return Instrument.setDelay (Delay.capped (number 0 0) (number 1 0) pingpong (number 3 0.5) (number 4 0))
  | "filter" =>
    let kind := Text.lower ((c.arg? 0).getD "lowpass")
    unless filterKinds.contains kind do throw (.misuse (.filterKind kind))
    return Instrument.setFilter ⟨kind, number 1 1000, number 2 1⟩
  | "distortion" => return Instrument.setDistortion (number 0 0)
  | "envelope" =>
    let base : Envelope α := default
    return Instrument.setEnvelope
      ⟨envelopeArg (c.arg? 0) base.attack, envelopeArg (c.arg? 1) base.decay,
       envelopeArg (c.arg? 2) base.sustain, envelopeArg (c.arg? 3) base.release⟩
  | "autopan" => return Instrument.setAutopan ⟨number 0 0, number 1 0⟩
  | "autovolume" =>
    return Instrument.setAutovolume ⟨number 0 0 / 100, number 1 0 / 100, number 2 0⟩ position
  | "begin" =>
    match c.arg? 0 with
    | some effect =>
      if (EffectKind.ofName? effect).isSome then return Instrument.begin effect
      else throw (.misuse (.effectKind (some effect)))
    | none => throw (.misuse (.effectKind none))
  | _ => return pure ()

def noteText? (bpm : α) (name : String) (c : Command) : Option String :=
  let seconds (token : Option String) : String :=
    match noteSeconds token bpm with
    | .ok s => Scalar.fixed 2 s
    | .error _ => ""
  match c.verb with
  | "tone" =>
    let pitch := (c.arg? 0).getD ""
    some s!"Playing {pitch} for {seconds (c.arg? 1)}s in {name}"
  | "tones" => some s!"Playing {c.args.length - 1} tones for {seconds c.args.getLast?}s in {name}"
  | _ => none

def sample (position : α) (c : Command) : PerformM α Unit := do
  match c.arg? 0 with
  | none => throw (.misuse .sampleWithoutName)
  | some name =>
    let engine := (← get).engine
    unless engine.hasSample name do throw (.misuse (.sampleNotFound name))
    let volume : α := numberOr (c.arg? 1) 1
    match engine.refusal? name "play_sample" with
    | some f => throw f
    | none =>
      let gain := linearToDb volume
      modify fun p => { p with engine.cues := p.engine.cues.push ⟨name, gain, position⟩ }
      if engine.recorder then record (.playSample name gain position)
      log .debug s!"Playing sample {name} at volume {Scalar.text volume}"

/-- Carries out a command. The verbs that set a parameter do nothing in the
main block, which has no instrument. -/
def perform (time : α) (id : Nat) (run : Run α) (c : Command) : PerformM α (Status α) := do
  let bpm := (← get).session.bpm
  match c.verb with
  | "wait" =>
    match ((c.arg? 0).bind number? : Option α) with
    | none => throw (.misuse (.waitDuration (c.arg? 0)))
    | some beats =>
      if beats < 0 then throw (.misuse (.waitDuration (c.arg? 0)))
      return .waiting (← lift (beatsToSeconds beats bpm)) (some beats)
  | "waitsec" =>
    match ((c.arg? 0).bind number? : Option α) with
    | none => throw (.misuse (.waitsecDuration (c.arg? 0)))
    | some seconds => return .waiting seconds none
  | "waitforfinish" => settle time (time + (← get).config.finishTimeout) id
  | "play" =>
    match c.args with
    | [] => throw (.misuse .playNothing)
    | "together" :: names => play run names
    | name :: _ => play run [name]
  | "loop" =>
    let passes ← lift (countOr (c.arg? 0) 1)
    setRun id (·.openLoop passes)
    return .running
  | "end" =>
    match c.args with
    | effect :: _ =>
      if c.isLoopEnd then setRun id Run.closeLoop
      else onInstrument run.name (Instrument.finish effect run.position)
    | [] => setRun id Run.closeLoop
    return .running
  | "sample" =>
    sample run.position c
    return .running
  | "bpm" =>
    match ((c.arg? 0).bind number? : Option α) with
    | none => throw (.misuse (.bpmValue (c.arg? 0)))
    | some value =>
      if value ≤ 0 then throw (.misuse (.bpmValue (c.arg? 0)))
      setSession (·.setBpm value)
      log .info s!"Tempo set to {Scalar.text value} BPM"
      return .running
  | "tempo" =>
    let value ← lift (countOr (c.arg? 0) 120)
    if value ≤ 0 then throw (.misuse (.tempoValue (c.arg? 0)))
    let tempo : α ← lift (Scalar.ofInt? value)
    setSession (·.setBpm tempo)
    log .info s!"Tempo set to {value}"
    return .running
  | _ =>
    if run.name == mainName then return .running
    let act ← setParameter bpm run.position c
    onInstrument run.name act
    match noteText? bpm run.name c with
    | some text => log .debug text
    | none => pure ()
    return .running

/-- What is logged of a fault that a run passes over. -/
def complaint (run : Run α) (c : Command) : Fault → String
  | .misuse m => s!"{run.name}: {m.message}"
  | f => s!"Error executing line {run.cursor} in {run.name}: {c.line} ({f.message})"

/-- Carries out a command and reports what goes wrong. Only the fault of an engine
that is not set up is passed on. -/
def dispatch (time : α) (id : Nat) (run : Run α) (c : Command) : PerformM α (Status α) := do
  if !c.known then
    log .error s!"Unknown command: {c.verb}"
    return .running
  try perform time id run c
  catch f =>
    if f.isSetup then throw f
    else
      log .error (complaint run c f)
      return .running

end Partita.Performance
