import Partita.Binary64.Tools
import Partita.CommandLine.Run
import Std.Time.Format
import Std.Time.Zoned

/-! The program: gathers the files that a request is about, runs it on them, and
writes what has changed. -/
namespace Partita.CommandLine

open Files

def surroundings : IO Environment := do
  let now ← Std.Time.PlainDateTime.now
  return {
    debug := !((← IO.getEnv "SOUNDSCRIPT_DEBUG").getD "").isEmpty
    logFolder := ← IO.getEnv "SOUNDSCRIPT_LOG_DIR"
    home := (← IO.getEnv "HOME").getD ""
    stamp := now.format "uuuu-MM-dd HH:mm:ss" }

/-- The paths that a request is about. -/
def mentioned (e : Environment) (arguments : List String) : List Path :=
  let log := (e.logFile.toOption.map fun p => [p.parent, p]).getD []
  match (Request.read arguments : Except Stop (Request Float)) with
  | .error _ => log
  | .ok r =>
    let output := match r.command with
      | .render p _ => [p.parent, p]
      | _ => []
    log ++ output ++ [r.script] ++ r.samples.toList

def systemPath (parts : List String) : String :=
  match parts with
  | "/" :: rest => "/" ++ "/".intercalate rest
  | parts => "/".intercalate parts

/-- Enters what stands at a path, and if it is the folder of the samples, what
is below it. -/
def gather (t : Tree) (samples : Option Path) (p : Path) : IO Tree := do
  match t.resolve? p with
  | none => return t
  | some parts =>
    let here ← IO.currentDir
    let place := here / systemPath parts
    if ← place.isDir then
      let t := { t with entries := (parts, .folder) :: t.entries }
      if samples == some p then
        let mut entries := t.entries
        for file in ← place.walkDir do
          unless ← file.isDir do
            let below := file.components.drop place.components.length
            entries := (parts ++ below, .file (← IO.FS.readBinFile file)) :: entries
        return { t with entries }
      else return t
    else if ← place.pathExists then
      return { t with entries := (parts, .file (← IO.FS.readBinFile place)) :: t.entries }
    else return t

/-- Writes the entries of a tree that are not in an earlier one. -/
def writeChanges (before after : Tree) : IO Unit := do
  for (parts, entry) in after.entries do
    match entry with
    | .folder => IO.FS.createDirAll (systemPath parts)
    | .file bytes =>
      unless before.fileAt? parts == some bytes do
        IO.FS.writeBinFile (systemPath parts) bytes

def perform (arguments : List String) : IO UInt32 := do
  let e ← surroundings
  let working := (Path.ofString (← IO.currentDir).toString).parts
  let samples := match (Request.read arguments : Except Stop (Request Float)) with
    | .error _ => none
    | .ok r => r.samples
  let before ← (mentioned e arguments).foldlM (gather · samples) { working := "/" :: working }
  let logging := Logging.configure e { files := before } .fresh
  let outcome := run e Binary64.tools none false logging arguments
  for line in outcome.logging.screen do IO.eprintln line
  for line in outcome.out do IO.println line
  for line in outcome.err do IO.eprintln line
  writeChanges before outcome.logging.files
  return outcome.exit.toUInt32

end Partita.CommandLine

def main (arguments : List String) : IO UInt32 := Partita.CommandLine.perform arguments
