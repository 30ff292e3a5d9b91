import Partita.Log
import Partita.Score.Blocks
import Partita.Score.Effect
import Partita.Score.Tempo

/-! How long a script will perform, read off its text. The estimate sizes a
render and errs long: the body of a loop counts once as it stands and again for
every pass, and each block adds an allowance for its tails. -/
namespace Partita.Estimate

open Score

variable {α : Type} [Scalar α]

/-- Estimating keeps log records and can fail on a token. -/
abbrev Estimating := ExceptT Fault (StateM (Array Record))

def report (severity : Severity) (text : String) : Estimating Unit :=
  modify (·.push ⟨severity, "estimator", text⟩)

def defaultBpm : α := 120

/-- The allowance for the tails of a block. -/
def tailSeconds : α := 1.5

def waitForFinishSeconds : α := 1

def unterminatedLoopSeconds : α := 2

def commandSeconds (bpm : α) (c : Command) : Except Fault α :=
  match c.verb with
  | "wait" => beatsToSeconds (numberOr c.args.head? 0) bpm
  | "waitsec" => .ok (numberOr c.args.head? 0)
  | "tone" | "tones" => noteSeconds c.args.getLast? bpm
  | _ => .ok 0

/-- The commands up to the end that matches a loop already opened, `depth` more
loops being open inside it. -/
def loopBody (depth : Nat) : List Command → Option (List Command)
  | [] => none
  | c :: rest =>
    if c.verb == "loop" then (loopBody (depth + 1) rest).map (c :: ·)
    else if c.isLoopEnd then
      match depth with
      | 0 => some []
      | d + 1 => (loopBody d rest).map (c :: ·)
    else (loopBody depth rest).map (c :: ·)

def bodySeconds (bpm : α) (body : List Command) : Except Fault α :=
  body.foldlM (fun total c => return total + (← commandSeconds bpm c)) 0

/-- The seconds a loop adds when the commands `rest` follow its opening line. -/
def loopSeconds (bpm : α) (c : Command) (rest : List Command) : Except Fault α := do
  let passes ← countOr c.args.head? 1
  match loopBody 0 rest with
  | none => return (← Scalar.ofInt? passes) * unterminatedLoopSeconds
  | some [] => return 0
  | some body => return (← bodySeconds bpm body) * (← Scalar.ofInt? passes)

/-- The seconds of the first command of a list, where `block` estimates the
blocks it plays. -/
def firstSeconds (bpm : α) (block : String → Estimating α) (c : Command) (rest : List Command) :
    Estimating α :=
  match c.verb, c.args with
  | "play", "together" :: names => do
    match ← names.mapM block with
    | [] => return 0
    | first :: others => return Scalar.maximum first others
  | "play", name :: _ => block name
  | "loop", _ => loopSeconds bpm c rest
  | "waitforfinish", _ => return waitForFinishSeconds
  | _, _ => commandSeconds bpm c

def totalSeconds (bpm : α) (block : String → Estimating α) (total : α) :
    List Command → Estimating α
  | [] => return total
  | c :: rest => do totalSeconds bpm block (total + (← firstSeconds bpm block c rest)) rest

/-- The seconds of one pass of a block while the blocks `busy` are being
estimated, which count nothing when played again. There is room for so many
estimates inside each other. Each one adds a name to `busy`, so that one more
than there are blocks is never used up. -/
def blockSeconds (blocks : Blocks) (bpm : α) : (room : Nat) → (busy : List String) → String →
    Estimating α
  | 0, _, _ => throw .nestingLimit
  | room + 1, busy, name => do
    if busy.contains name then
      report .debug s!"Block '{name}' re-entered during estimation; counted as 0"
      return 0
    match blocks.lines? name with
    | none => return 0
    | some lines =>
      let total ← totalSeconds bpm (blockSeconds blocks bpm room (name :: busy)) 0
        (lines.filterMap Command.parse?)
      return total + tailSeconds

/-- The tempo an estimate uses: the default one when the tempo is not positive. -/
def effectiveBpm (bpm : α) : α := if (0 : α) < bpm then bpm else defaultBpm

/-- The estimate of one block, by a caller that may have room for a limited number
of nested estimates. -/
def block (blocks : Blocks) (bpm : α) (name : String) (room : Option Nat := none) : Estimating α :=
  blockSeconds blocks (effectiveBpm bpm) (room.getD (blocks.length + 2)) [] name

def minSeconds : α := 10

def safetyMargin : α := 1.1

/-- The estimate of a script: that of its main block with a margin, and never
below the least one. -/
def script (blocks : Blocks) (bpm : α) (room : Option Nat := none) : Estimating α := do
  let total ←
    if blocks.contains mainName then block blocks bpm mainName room
    else do
      report .warning s!"No '{mainName}' block; duration estimate falls back to the floor"
      pure 0
  let seconds := Scalar.max minSeconds (total * safetyMargin)
  report .info s!"Estimated duration: {Scalar.fixed 1 seconds}s"
  return seconds

/-- The length of the render of a script with a given estimate. -/
def renderSeconds (estimate : α) : α := Scalar.max (estimate * 1.2 + 3) minSeconds

end Partita.Estimate
