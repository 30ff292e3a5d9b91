import Partita.Config.Reading
import Partita.Display.Box

/-! Reports of failures: a line for a stream, a panel for a terminal, and on
request the name of the failure in full. -/
namespace Partita.CommandLine

structure Failure where
  kind : String
  text : String
  deriving DecidableEq, Repr

namespace Failure

def ofFault (f : Fault) : Failure := ⟨f.kind, f.message⟩

/-- A configuration that was refused. -/
def ofViolations (vs : List Violation) : Failure :=
  let ending := if vs.length == 1 then "" else "s"
  ⟨"ValidationError", s!"{vs.length} validation error{ending} for SessionConfig"⟩

/-- A failure with the message it was given; that of a missing key is quoted. -/
def given (kind message : String) : Failure :=
  ⟨kind, if kind == "KeyError" then Text.quoted message else message⟩

/-- The kinds of failure that are the program's own. -/
def ownKinds : List String :=
  ["SoundScriptError", "ScriptError", "CommandError", "EngineSetupError", "RenderError", "PlaybackError",
    "InvalidAudioError"]

/-- The name of the kind in full. -/
def fullKind (f : Failure) : String :=
  if ownKinds.contains f.kind then "soundscript.errors." ++ f.kind
  else if f.kind == "error" then "struct.error"
  else f.kind

def trace (f : Failure) : String := if f.text.isEmpty then f.fullKind else s!"{f.fullKind}: {f.text}"

def line (f : Failure) (context logs : String) : String :=
  s!"{context} failed: {f.kind}: {f.text} (logs: {logs})"

def body (f : Failure) (context logs : String) : String :=
  s!"SoundScript error while {context}:\n\n{f.kind}: {f.text}\nLogs: {logs}\n\n" ++
    "Set SOUNDSCRIPT_DEBUG=1 for console trace."

/-- The lines of a report, with the trace if it is asked for. -/
def report (f : Failure) (context logs : String) (terminal debug : Bool) : List String :=
  if terminal then
    Display.panel "Error" (f.body context logs) ++
      if debug then
        Display.wrapped Display.screenWidth (if f.text.isEmpty then f.kind else s!"{f.kind}: {f.text}")
      else []
  else Text.lines (f.line context logs) ++ if debug then Text.lines f.trace else []

end Failure

end Partita.CommandLine
