import Partita.Files.Tree
import Partita.Log
import Partita.Signal.Resample
import Partita.Text.Lower
import Partita.Wave.Decode
import Partita.Wave.Encode

/-! The sample library: a script refers to a sample by the name of its file
without the extension. -/
namespace Partita.Library

open Files

variable {α : Type} [Scalar α]

def extensions : List String := [".wav", ".mp3", ".flac", ".ogg", ".aiff"]

/-- The name a script uses for a sample file. -/
def sampleName (p : Path) : String := p.stem

def sampleFiles (t : Tree) (folder : Path) : List Path :=
  (t.filesBelow folder).filter fun p => extensions.contains (Text.lower p.extension)

/-- Decodes a sample at a rate, of which two channels are kept at most. `path`
is how a report calls the file. -/
@[specialize]
def decode [Wave.Interchange α] (path : String) (bytes : Option ByteArray) (rate : Int) :
    Except Fault (Audio α) :=
  match bytes.bind fun b => Wave.decode? b.data.toList with
  | none => .error (.sampleUnreadable path)
  | some (b : Buffer α) =>
    let kept := b.audio.columns.extract 0 2
    Signal.resample (.ofColumns b.frames kept) b.rate rate

/-- What has been loaded from some files, and the log of it. -/
structure Loading (α : Type) where
  loaded : List (String × Audio α) := []
  log : Array Record := #[]

/-- Loading fails only on a fault other than that of an unreadable file. -/
abbrev LoadM (α : Type) := ExceptT Fault (StateM (Loading α))

def note (severity : Severity) (text : String) : LoadM α Unit :=
  modify fun l => { l with log := l.log.push ⟨severity, "samples", text⟩ }

/-- Loads one file more, unless its name is taken or it cannot be decoded. -/
def add (existing : List String) (total : Nat) (path : Path) (outcome : Except Fault (Audio α)) :
    LoadM α Unit := do
  let name := sampleName path
  let loaded := (← get).loaded
  if existing.contains name || (loaded.lookup name).isSome then
    note .info s!"Sample {name} already loaded"
  else
    match outcome with
    | .error (.sampleUnreadable file) => note .error (Fault.sampleUnreadable file).message
    | .error f => throw f
    | .ok audio =>
      modify fun l => { l with loaded := loaded ++ [(name, audio)] }
      note .info s!"Loaded sample: {name} ({loaded.length + 1}/{total})"

def load (existing : List String) (files : List (Path × Except Fault (Audio α))) : LoadM α Unit := do
  note .info s!"Found {files.length} samples to preload"
  for (path, outcome) in files do add existing files.length path outcome

@[specialize]
def loadFolder [Wave.Interchange α] (t : Tree) (folder : Path) (rate : Int) (existing : List String) :
    Except Fault Unit × Loading α :=
  (load existing ((sampleFiles t folder).map fun p => (p, decode p.text (t.file? p) rate))).run.run {}

@[specialize]
def exportWave [Wave.Interchange α] (t : Tree) (path : Path) (b : Buffer α) (float : Bool) :
    Except Fault (Wave.File α × Tree × Record) := do
  let file ← Wave.encode b.audio b.rate float
  let t ← t.write path ⟨file.bytes.toArray⟩
  return (file, t,
    ⟨.info, "wav", s!"Exported {Scalar.fixed 1 b.duration}s of audio to {path.text}"⟩)

end Partita.Library
