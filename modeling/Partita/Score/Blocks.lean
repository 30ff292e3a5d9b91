import Partita.Text.Word
import Partita.Log
import Partita.Score.Command

/-! Block maps: the named blocks of a script in the order in which their names
were first completed, and the reading of a script into one. Reading never
fails. Text outside blocks is dropped, opening a block abandons the one that is
open, and a block left open at the end is not part of the map. -/
namespace Partita.Score

/-- The block a performance starts with. -/
def mainName : String := "main"

/-- Named lists of lines, each name once. -/
abbrev Blocks := List (String × List String)

namespace Blocks

def lines? (blocks : Blocks) (name : String) : Option (List String) := blocks.lookup name

def contains (blocks : Blocks) (name : String) : Bool := (blocks.lines? name).isSome

/-- Defines a block; a redefinition keeps the place of the first one. -/
def define (name : String) (lines : List String) : Blocks → Blocks
  | [] => [(name, lines)]
  | (n, ls) :: rest => if n == name then (name, lines) :: rest else (n, ls) :: define name lines rest

/-- A block map from pairs, later pairs redefining earlier ones. -/
def ofPairs (pairs : List (String × List String)) : Blocks :=
  pairs.foldl (fun blocks (name, lines) => blocks.define name lines) []

end Blocks

/-- The name a header line opens: a name directly followed by a colon. -/
def headerName? (line : String) : Option String :=
  let cs := line.toList
  let name := cs.takeWhile Text.isWord
  match name, cs.dropWhile Text.isWord with
  | [], _ => none
  | _, ':' :: _ => some (String.ofList name)
  | _, _ => none

/-- The name an end line closes: `end`, white space and a name. -/
def endName? (line : String) : Option String :=
  match line.toList with
  | 'e' :: 'n' :: 'd' :: c :: rest =>
    if Text.isBlank c then
      let name := (Text.skipBlank rest).takeWhile Text.isWord
      if name.isEmpty then none else some (String.ofList name)
    else none
  | _ => none

inductive Notice where
  /-- A header on line `number` opened a block while another one was open. -/
  | abandoned (name opened : String) (number : Nat)
  | redefined (name : String)
  | unterminated (name : String)
  | parsed (count : Nat)
  deriving DecidableEq, Repr

namespace Notice

def severity : Notice → Severity
  | abandoned .. | unterminated _ => .warning
  | redefined _ => .debug
  | parsed _ => .info

def text : Notice → String
  | abandoned name opened number =>
    s!"Block '{name}' abandoned: '{opened}' opened on line {number} before 'end {name}'"
  | redefined name => s!"Block '{name}' redefined; previous definition replaced"
  | unterminated name => s!"Block '{name}' has no matching 'end {name}'; ignored"
  | parsed count => s!"Parsed {count} blocks"

def record (n : Notice) : Record := ⟨n.severity, "parser", n.text⟩

end Notice

structure OpenBlock where
  name : String
  /-- Its lines so far, last one first. -/
  reversed : List String
  deriving DecidableEq, Repr

/-- The state of reading between two lines. -/
structure Reading where
  blocks : Blocks := []
  current : Option OpenBlock := none
  notices : List Notice := []
  deriving DecidableEq, Repr

namespace Reading

/-- Reads a significant line, which stands at a line number. -/
def line (r : Reading) (number : Nat) (text : String) : Reading :=
  match headerName? text with
  | some name =>
    let notices := match r.current with
      | some b => r.notices ++ [.abandoned b.name name number]
      | none => r.notices
    { r with current := some ⟨name, []⟩, notices }
  | none =>
    match r.current with
    | none => r
    | some b =>
      if endName? text == some b.name then
        { blocks := r.blocks.define b.name b.reversed.reverse
          current := none
          notices := if r.blocks.contains b.name then r.notices ++ [.redefined b.name] else r.notices }
      else { r with current := some { b with reversed := text :: b.reversed } }

/-- Reads the lines from a line number on; empty lines and comments count and
are passed over. -/
def lines (r : Reading) (number : Nat) : List String → Reading
  | [] => r
  | raw :: rest =>
    let text := Text.trim raw
    let next := if isBlankOrComment text then r else r.line number text
    next.lines (number + 1) rest

/-- The notices of a script that ends here. -/
def finish (r : Reading) : List Notice :=
  let open_ := match r.current with
    | some b => [Notice.unterminated b.name]
    | none => []
  r.notices ++ open_ ++ [.parsed r.blocks.length]

end Reading

/-- The blocks of a script and what reading it reports. -/
def read (code : String) : Blocks × List Notice :=
  let r := ({} : Reading).lines 1 (Text.lines code)
  (r.blocks, r.finish)

def blocksOf (code : String) : Blocks := (read code).1

end Partita.Score
