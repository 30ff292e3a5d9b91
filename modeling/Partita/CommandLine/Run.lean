import Partita.CommandLine.Logging
import Partita.CommandLine.Request
import Partita.Studio.Hall
import Partita.Text.Utf8

/-! A run of the program: arguments and files in, lines and files out. -/
namespace Partita.CommandLine

variable {α : Type} [Scalar α]

/-- The program while it carries out a command. -/
structure Terminal (α : Type) where
  hall : Hall α
  out : List String := []
  exported : Option (String × Wave.File α) := none
  journal : Array (Event α) := #[]

/-- Commands stop at the first failure; what was done before stays done. -/
abbrev CommandM (α : Type) := ExceptT Failure (StateM (Terminal α))

/-- Has the studio do something, and waits for it. -/
def direct (c : StudioCue α) : CommandM α (Value α) := do
  let t ← get
  let hall := { t.hall with reports := #[] }.direct [c]
  match hall.reports.back? with
  | none => throw ⟨"RuntimeError", ""⟩
  | some r =>
    set { t with hall, journal := t.journal ++ r.journal }
    match r.outcome with
    | .value v => return v
    | .raised (.fault f) => throw (.ofFault f)
    | .raised .cancelled => throw ⟨"CancelledError", ""⟩
    | .raised .timeout => throw ⟨"TimeoutError", ""⟩

def print (lines : List String) : CommandM α Unit := modify fun t => { t with out := t.out ++ lines }

def printText (text : String) : CommandM α Unit := print (Display.wrapped Display.screenWidth text)

def readScript (t : Files.Tree) (p : Files.Path) : Except Fault String := do
  Text.decode (← t.read p)

def prepare (r : Request α) : CommandM α Unit := do
  match readScript (← get).hall.studio.files r.script with
  | .error f => throw (.ofFault f)
  | .ok code =>
    discard (direct (.parse code))
    match r.samples with
    | some folder => discard (direct (.loadSamples folder.text))
    | none => pure ()

/-- Carries out a command; `interrupted` says that somebody breaks off the wait
for the end of the playback. -/
def carryOut (c : Command) (interrupted : Bool) : CommandM α Unit := do
  match c with
  | .blocks =>
    let blocks := (← get).hall.studio.blocks
    print (Display.table "Blocks" "Block" "Lines" (blocks.map fun (name, lines) => (name, lines.length)))
  | .estimate =>
    match ← direct .estimate with
    | .number seconds => printText s!"Estimated duration: {Scalar.fixed 2 seconds}s"
    | _ => pure ()
  | .render output float =>
    match ← direct .render, ← direct (.exportWave output.text float) with
    | .buffer b, .file path file =>
      modify fun t => { t with exported := some (path, file) }
      let telemetry := (← get).hall.studio.telemetry
      printText (s!"Wrote {Scalar.fixed 1 b.duration}s to {path} (sr={b.rate}, " ++
        s!"compressor -{Scalar.fixed 1 telemetry.peakCompressor}dB, " ++
        s!"limiter -{Scalar.fixed 1 telemetry.peakLimiter}dB)")
    | _, _ => pure ()
  | .play =>
    discard (direct .render)
    match ← direct .playRendered with
    | .number seconds =>
      printText s!"Playing {Scalar.fixed 1 seconds}s (Ctrl+C to stop)"
      discard (direct .waitPlayback)
      if interrupted then discard (direct .forceStop)
    | _ => pure ()

/-- What a run leaves behind. -/
structure Outcome (α : Type) where
  exit : Nat
  out : List String := []
  err : List String := []
  journal : Array (Event α) := #[]
  exported : Option (String × Wave.File α) := none
  /-- The file the failure was entered in. -/
  crashLog : Option Files.Path := none
  logging : Logging

/-- Hands the log records of a run to the handlers. -/
def Terminal.settle (t : Terminal α) (e : Environment) (l : Logging) : Logging :=
  t.journal.foldl (fun l event => match event with
    | .log r => l.emit e false r.severity.rank s!"{Logging.root}.{r.source}" r.text []
    | _ => l) { l with files := t.hall.studio.files }

/-- How the program calls itself in reports. -/
def contextName : String := s!"{programName} CLI"

def failed (e : Environment) (l : Logging) (t : Terminal α) (f : Failure) : Outcome α :=
  let report : Record := ⟨.warning, "cli", s!"{contextName} failed: {f.text}"⟩
  let l := (t.settle e l).emit e false report.severity.rank s!"{Logging.root}.{report.source}"
    report.text (if e.debug then [f.trace] else [])
  let (crashLog, logging) := l.crash e contextName f
  let logs := match e.logFile with
    | .ok p => p.text
    | .error _ => ""
  { exit := 1
    out := t.out
    err := f.report contextName logs false e.debug
    journal := t.journal.push (.log report)
    exported := t.exported
    crashLog
    logging }

def run (e : Environment) (tools : Tools α) (device : Option String) (interrupted : Bool)
    (logging : Logging) (arguments : List String) : Outcome α :=
  match Request.read arguments with
  | .error (.help g) => { exit := 0, out := g.helpPage, logging }
  | .error (.misuse g text) =>
    { exit := 2, err := g.usage ++ [s!"{g.program}: error: {text}"], logging }
  | .ok (r : Request α) =>
    let (config, records) :=
      Config.outcome (Config.read [("bpm", .real r.bpm), ("master_volume", .real r.masterVolume)])
    let studio := Studio.initial (config.toOption.getD default) tools device logging.files
    let t : Terminal α :=
      { hall := Hall.ofStudio studio [], journal := (records.map Event.log).toArray }
    match config with
    | .error vs => failed e logging t (.ofViolations vs)
    | .ok _ =>
      let act : CommandM α Unit := do
        prepare r
        carryOut r.command interrupted
      match act.run.run t with
      | (.error f, t) => failed e logging t f
      | (.ok _, t) =>
        { exit := 0, out := t.out, journal := t.journal, exported := t.exported
          logging := t.settle e logging }

end Partita.CommandLine
