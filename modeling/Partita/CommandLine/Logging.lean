import Partita.CommandLine.Failure
import Partita.Files.Tree
import Partita.Log

/-! Where log records go: to the console, each with a sign for its severity, and
to a file. -/
namespace Partita.CommandLine

open Files

/-- What the surroundings of the program say. -/
structure Environment where
  /-- Whether traces are asked for. -/
  debug : Bool
  logFolder : Option String
  home : String
  /-- The time as records show it. -/
  stamp : String

namespace Environment

/-- A path whose first part may stand for the home folder. -/
def expand (e : Environment) (p : Path) : Except Fault Path :=
  match p.parts with
  | part :: rest =>
    if p.root != "" || !part.startsWith "~" then .ok p
    else if part == "~" then .ok ((Path.ofString e.home).join ⟨"", rest⟩)
    else .error (.foreign "RuntimeError" "Could not determine home directory.")
  | [] => .ok p

def folder (e : Environment) : Except Fault Path :=
  match e.logFolder.filter (!·.isEmpty) with
  | some s => e.expand (.ofString s)
  | none => .ok ((Path.ofString e.home).join (.ofString ".cache/soundscript/logs"))

def logFile (e : Environment) : Except Fault Path := do
  return (← e.folder).join (.ofString "soundscript.log")

end Environment

def severitySign (rank : Nat) : String :=
  match rank with
  | 10 => "🐛"
  | 20 => "ℹ️"
  | 30 => "⚠️"
  | 40 => "❌"
  | 50 => "💥"
  | _ => ""

def severityName (rank : Nat) : String :=
  match [Severity.debug, .info, .warning, .error, .critical].find? (·.rank == rank) with
  | some s => s.name
  | none => s!"Level {rank}"

/-- Takes the records from a severity on. -/
inductive Handler where
  | console (least : Nat)
  | file (least : Nat) (path : Path)
  deriving DecidableEq, Repr

structure Logging where
  files : Tree
  handlers : List Handler := []
  /-- The lines written to the console. -/
  screen : Array String := #[]

namespace Logging

def root : String := "soundscript"

def appendFile (t : Tree) (p : Path) (text : String) : Except Fault Tree :=
  t.write p (((t.file? p).getD .empty) ++ text.toUTF8)

/-- Hands a record to a handler. `trace` stands below the text. -/
def hand (e : Environment) (rank : Nat) (logger text : String) (trace : List String) (l : Logging) :
    Handler → Logging
  | .console least =>
    if rank < least then l
    else { l with
      screen := l.screen ++ Text.lines s!"{severitySign rank} {logger}: {text}" ++ trace.toArray }
  | .file least path =>
    if rank < least then l
    else
      let line := s!"{e.stamp} [{severityName rank}] {logger}: {text}"
      let whole := String.join ((line :: trace).map (· ++ "\n"))
      match appendFile l.files path whole with
      | .ok files => { l with files }
      | .error _ => l

/-- Hands a record to all handlers. Where there are none, the text of a warning
and of what is worse still goes to the console; `elsewhere` says that others
listen. -/
def emit (e : Environment) (l : Logging) (elsewhere : Bool) (rank : Nat) (logger text : String)
    (trace : List String) : Logging :=
  let own := logger == root || logger.startsWith (root ++ ".")
  let handlers := if own then l.handlers else []
  if rank < Severity.debug.rank then l
  else if handlers.isEmpty then
    if Severity.warning.rank ≤ rank && !elsewhere then
      { l with screen := l.screen ++ Text.lines text ++ trace.toArray }
    else l
  else handlers.foldl (hand e rank logger text trace) l

/-- A warning of the log about itself. -/
def warn (e : Environment) (l : Logging) (elsewhere : Bool) (text : String) (f : Fault) : Logging :=
  l.emit e elsewhere Severity.warning.rank (root ++ ".logging") s!"{text}: {f.message}"
    [(Failure.ofFault f).trace]

def makeFolder (e : Environment) (t : Tree) : Except Fault (Path × Tree) := do
  return (← e.logFile, ← t.makeFolder (← e.folder))

/-- How logging is set up: not again, from scratch, beside what is there, or
where others listen. -/
inductive Setup where
  | keep
  | force
  | fresh
  | rooted
  deriving DecidableEq, Repr

/-- Sets up the handlers: the console, unless others listen, and the file. -/
def configure (e : Environment) (l : Logging) (setup : Setup) : Logging :=
  if setup == .keep then l
  else
    let l := if setup == .force then { l with handlers := [] } else l
    let least := if e.debug then Severity.debug.rank else Severity.info.rank
    let l := if setup == .rooted then l else { l with handlers := l.handlers ++ [.console least] }
    let opened := do
      let (path, t) ← makeFolder e l.files
      return (path, ← appendFile t path "")
    match opened with
    | .ok (path, files) =>
      { l with files, handlers := l.handlers ++ [.file Severity.debug.rank path] }
    | .error f => l.warn e (setup == .rooted) "Failed to configure file logging" f

/-- Enters a failure in the file of the log, and tells which one that is. -/
def crash (e : Environment) (l : Logging) (context : String) (f : Failure) : Option Path × Logging :=
  let entered := do
    let (path, t) ← makeFolder e l.files
    let entry := s!"[{e.stamp}] {context} failed: {f.kind}: {f.text}\n{f.trace}\n\n"
    return (path, ← appendFile t path entry)
  match entered with
  | .ok (path, files) => (some path, { l with files })
  | .error f => (none, l.warn e false "Failed to write log file" f)

end Logging

end Partita.CommandLine
