import Partita.Config.Reading
import Partita.Estimate
import Partita.Library
import Partita.Mix.Mixdown
import Partita.Voice.Call

/-! A studio: a script, the samples it may use, the settings of the master bus,
and what was rendered and played last. -/
namespace Partita

open Score (Blocks)

variable {α : Type}

/-- The signal processing a studio relies on. -/
structure Tools (α : Type) where
  /-- Makes an empty mix of a length. -/
  newMix : α → Config α → Except Fault (Mixdown α)
  render : Mixdown α → Except Fault (Mix.Rendered α) × Mixdown α
  resample : Audio α → Int → Int → Except Fault (Audio α)
  playable : Buffer α → Int → Except Fault (Audio α)
  loadFolder : Files.Tree → Files.Path → Int → List String → Except Fault Unit × Library.Loading α
  exportWave : Files.Tree → Files.Path → Buffer α → Bool →
    Except Fault (Wave.File α × Files.Tree × Record)

@[inline]
def Tools.standard [Acoustic α] [Wave.Interchange α] : Tools α where
  newMix := Mixdown.ofConfig
  render := Mixdown.render
  resample := Signal.resample
  playable := Buffer.atRate
  loadFolder := Library.loadFolder
  exportWave := Library.exportWave

variable [Scalar α]

structure Studio (α : Type) where
  config : Config α
  tools : Tools α
  /-- The name of the playback device, if there is one. -/
  device : Option String
  files : Files.Tree
  blocks : Blocks := []
  /-- How many scripts were parsed. -/
  revision : Nat := 0
  samples : List (String × Audio α) := []
  rendered : Option (Buffer α) := none
  telemetry : Telemetry α
  playback : Option (Playback α) := none
  journal : Array (Event α) := #[]

/-- Operations of a studio. What was done before a fault stays done. -/
abbrev StudioM (α : Type) := ExceptT Fault (StateM (Studio α))

namespace Studio

def initial (config : Config α) (tools : Tools α) (device : Option String) (files : Files.Tree) :
    Studio α :=
  { config, tools, device, files, telemetry := default }

def record (e : Event α) : StudioM α Unit := modify fun s => { s with journal := s.journal.push e }

def log (severity : Severity) (text : String) : StudioM α Unit :=
  record (.log ⟨severity, "orchestrator", text⟩)

def lift {β : Type} : Except Fault β → StudioM α β
  | .ok b => pure b
  | .error f => throw f

def parse (code : String) : StudioM α Unit := do
  let (blocks, notices) := Score.read code
  for n in notices do record (.log n.record)
  modify fun s => { s with blocks, revision := s.revision + 1 }

/-- How long the script will perform, estimated with so much room. -/
def estimate (room : Option Nat := none) : StudioM α α := do
  let s ← get
  let (result, records) := (Estimate.script s.blocks s.config.bpm room).run.run #[]
  for r in records do record (.log r)
  lift result

/-- Registers a sample at the rate of the renders. -/
def addSample (name : String) (audio : Audio α) (rate : Int) : StudioM α Unit := do
  let s ← get
  let audio ← lift (s.tools.resample audio rate s.config.renderRate)
  modify fun s => { s with samples := assign name audio s.samples }
  log .info s!"Sample '{name}' loaded"

/-- Registers the samples below a folder whose names are free, and counts them. -/
def loadSamples (folder : String) : StudioM α Nat := do
  let s ← get
  let (result, loading) :=
    s.tools.loadFolder s.files (.ofString folder) s.config.renderRate (s.samples.map Prod.fst)
  for r in loading.log do record (.log r)
  lift result
  modify fun s => { s with
    samples := loading.loaded.foldl (fun all (name, audio) => assign name audio all) s.samples }
  return loading.loaded.length

/-- Reads settings given one by one, the last of which may be missing. -/
def settings {β : Type} (names : List String) (values : List (Setting α))
    (read : Config.Table α → ReadingM β) : StudioM α (Except (List Violation) β) := do
  let (result, records) := Config.outcome (read (names.zip values))
  for r in records do record (.log r)
  return result

/-- A setting as given, the last one standing for a missing one. -/
def shownSetting (values : List (Setting α)) (i : Nat) : String := (values.getD i (.bool true)).shown

def setCompressor (values : List (Setting α)) : StudioM α (Except (List Violation) Unit) := do
  match ← settings ["threshold", "ratio", "attack", "release", "enabled"] values
    (Config.readCompressor []) with
  | .error vs => return .error vs
  | .ok compressor =>
    modify fun s => { s with config.compressor := compressor }
    let shown := shownSetting values
    log .info (s!"Compressor set: threshold={shown 0}dB, ratio={shown 1}:1, attack={shown 2}s, " ++
      s!"release={shown 3}s, enabled={shown 4}")
    return .ok ()

def setLimiter (values : List (Setting α)) : StudioM α (Except (List Violation) Unit) := do
  match ← settings ["threshold", "release", "enabled"] values (Config.readLimiter []) with
  | .error vs => return .error vs
  | .ok limiter =>
    modify fun s => { s with config.limiter := limiter }
    let shown := shownSetting values
    log .info s!"Limiter set: threshold={shown 0}dB, release={shown 1}s, enabled={shown 2}"
    return .ok ()

/-- The length of the render of the script, which must have a main block. -/
def renderSeconds (room : Option Nat := none) : StudioM α α := do
  unless (← get).blocks.contains Score.mainName do throw .noMain
  let seconds := Estimate.renderSeconds (← estimate room)
  log .info s!"Pre-rendering script to audio buffer ({Scalar.fixed 1 seconds}s)..."
  return seconds

/-- Puts samples into a mix. -/
def stock (m : Mixdown α) (samples : List (String × Audio α)) : Except Fault (Mixdown α) :=
  samples.foldlM (fun m (name, audio) => do
    return { m with engine := ← m.engine.addSample name audio }) m

/-- A mix of a length with all samples of the studio. -/
def prepare (seconds : α) : StudioM α (Mixdown α) := do
  let s ← get
  lift (do stock (← s.tools.newMix seconds s.config) s.samples)

/-- Mixes what was performed up to a position, and keeps it. -/
def finishRender (m : Mixdown α) (position : α) : StudioM α (Buffer α) := do
  if m.plan.duration < position then
    log .warning (s!"Performance ran {Scalar.fixed 1 position}s but the buffer holds " ++
      s!"{Scalar.fixed 1 m.plan.duration}s; the end is cut off")
  let rendered ← lift ((← get).tools.render m).1
  record (.log rendered.log)
  modify fun s => { s with rendered := some rendered.buffer, telemetry := rendered.telemetry }
  log .info s!"Rendering complete - {Scalar.fixed 1 rendered.buffer.duration}s audio generated"
  return rendered.buffer

def stopPlayback : StudioM α Unit := do
  match (← get).playback with
  | none => pure ()
  | some p =>
    let (p, calls) := p.stop
    for c in calls do record (.device c)
    modify fun s => { s with playback := some p }

def lastRendered : StudioM α (Buffer α) := do
  match (← get).rendered with
  | some b => return b
  | none => throw .nothingRendered

/-- Plays what was rendered last in place of what is being played. A device that
refuses to start is left alone. -/
def playRendered (now : α) (refusal : Option Fault) : StudioM α (Playback α) := do
  let buffer ← lastRendered
  stopPlayback
  let s ← get
  let rate := s.config.playbackRate
  let audio ← lift (s.tools.playable buffer rate)
  match s.device with
  | none => throw .noBackend
  | some device =>
    let p ← lift (Playback.make audio rate)
    match refusal with
    | some f => throw f
    | none =>
      let (p, call, r) := p.start now device
      record (.device call)
      record (.log r)
      modify fun s => { s with playback := some p }
      return p

def waitPlayback : StudioM α Unit := record (.device .wait)

def exportWave (path : String) (float : Bool) : StudioM α (Wave.File α) := do
  let buffer ← lastRendered
  let s ← get
  let (file, files, r) ← lift (s.tools.exportWave s.files (.ofString path) buffer float)
  modify fun s => { s with files }
  record (.log r)
  return file

end Studio

end Partita
