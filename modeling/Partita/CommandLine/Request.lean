import Partita.CommandLine.Arguments
import Partita.Estimate

/-! The commands of the program, and the pages that explain them. -/
namespace Partita.CommandLine

variable {α : Type} [Scalar α]

inductive Command where
  | render (output : Files.Path) (float : Bool)
  | play
  | estimate
  | blocks
  deriving DecidableEq, Repr

structure Request (α : Type) where
  command : Command
  script : Files.Path
  bpm : α
  masterVolume : α
  samples : Option Files.Path

def helpFlag : Flag := ⟨["-h", "--help"], .help, "", "show this help message and exit"⟩

def bpmFlag : Flag := ⟨["--bpm"], .number, "BPM", ""⟩

def outputFlag : Flag := ⟨["--output", "-o"], .text, "OUTPUT", ""⟩

def floatFlag : Flag := ⟨["--float32"], .switch, "", "Write 32-bit float samples."⟩

def samplesFlag : Flag := ⟨["--samples"], .text, "SAMPLES", "Directory of samples."⟩

def volumeFlag : Flag := ⟨["--master-volume"], .number, "MASTER_VOLUME", ""⟩

/-- The commands with their flags and what the help page says about them. -/
def commands : List (String × List Flag × String) :=
  [("render", [helpFlag, bpmFlag, outputFlag, floatFlag, samplesFlag, volumeFlag],
      "Render a script to a WAV file."),
    ("play", [helpFlag, bpmFlag, samplesFlag, volumeFlag], "Render a script and play it."),
    ("estimate", [helpFlag, bpmFlag], "Print the estimated performance length."),
    ("blocks", [helpFlag, bpmFlag], "List the blocks a script defines.")]

def programName : String := "soundscript"

def programGrammar : Grammar := ⟨programName, [helpFlag], "command", true⟩

def commandGrammar (name : String) (flags : List Flag) : Grammar :=
  ⟨s!"{programName} {name}", flags, "script", false⟩

def Request.read (arguments : List String) : Except Stop (Request α) := do
  let (plain, outer) ← programGrammar.parse arguments
  let name := plain.headD ""
  match commands.lookup name with
  | none =>
    let choices := ", ".intercalate (commands.map fun c => Text.quoted c.1)
    programGrammar.fail s!"argument command: invalid choice: {Text.quoted name} (choose from {choices})"
  | some (flags, _) =>
    let (script, p) ← (commandGrammar name flags).parse (plain.drop 1)
    let extras := outer.extras ++ p.extras
    unless extras.isEmpty do
      let unknown := " ".intercalate extras
      programGrammar.fail s!"unrecognized arguments: {unknown}"
    let value (f : Flag) : Option String := p.values.lookup f.key
    let number (f : Flag) (default : α) : α := ((value f).bind real?).getD default
    let command : Command := match name with
      | "render" =>
        .render (.ofString ((value outputFlag).getD "soundscript.wav")) (value floatFlag).isSome
      | "play" => .play
      | "estimate" => .estimate
      | _ => .blocks
    return {
      command
      script := .ofString (script.headD "")
      bpm := number bpmFlag Estimate.defaultBpm
      masterVolume := number volumeFlag 0.7
      samples := (value samplesFlag).map .ofString }

/-- How a usage line shows a flag. -/
def Flag.usage (f : Flag) : String :=
  if f.takesValue then s!"[{f.key} {f.value}]" else s!"[{f.key}]"

def commandChoices : String := "\x7b" ++ ",".intercalate (commands.map (·.1)) ++ "\x7d"

def Grammar.plainUsage (g : Grammar) : String := if g.greedy then commandChoices ++ " ..." else g.plain

def pageWidth : Nat := 78

/-- Fills lines with parts; the first line begins with `start` and the others are
indented as far. -/
def fillLines (indent : Nat) (line : String) : List String → List String
  | [] => [line]
  | part :: rest =>
    if line.length + 1 + part.length ≤ pageWidth then fillLines indent (line ++ " " ++ part) rest
    else line :: fillLines indent (String.ofList (List.replicate indent ' ') ++ part) rest

def Grammar.usage (g : Grammar) : List String :=
  let start := s!"usage: {g.program}"
  let flags := g.flags.map Flag.usage
  let whole := " ".intercalate (start :: flags ++ [g.plainUsage])
  if whole.length ≤ pageWidth then [whole]
  else
    let indent := start.length + 1
    fillLines indent start flags ++ [String.ofList (List.replicate indent ' ') ++ g.plainUsage]

/-- A line of a help page: a name, and from the twenty-fifth column on what is
said about it. -/
def helpLine (indent : Nat) (name text : String) : List String :=
  let blanks (n : Nat) : String := String.ofList (List.replicate n ' ')
  let line := blanks indent ++ name
  if text.isEmpty then [line]
  else if line.length ≤ 22 then [line ++ blanks (24 - line.length) ++ text]
  else [line, blanks 24 ++ text]

def Flag.helpName (f : Flag) : String :=
  ", ".intercalate (f.names.map fun n => if f.takesValue then s!"{n} {f.value}" else n)

def Grammar.helpPage (g : Grammar) : List String :=
  let plain := if g.greedy then
      helpLine 2 commandChoices "" ++ commands.flatMap fun (name, _, text) => helpLine 4 name text
    else helpLine 2 g.plain ""
  g.usage ++ ["", "positional arguments:"] ++ plain ++ ["", "options:"]
    ++ g.flags.flatMap fun f => helpLine 2 f.helpName f.help

end Partita.CommandLine
