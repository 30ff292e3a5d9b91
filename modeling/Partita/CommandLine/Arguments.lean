import Partita.Config.Reading
import Partita.Files.Path
import Partita.Text.Quoted

/-! Arguments of a command line. A grammar has flags, which may be shortened, and
one plain argument; the plain argument of the program itself is a command, to
which all that follows belongs. -/
namespace Partita.CommandLine

/-- What a flag takes. -/
inductive Arity where
  | switch
  | text
  | number
  /-- A switch that shows the help page. -/
  | help
  deriving DecidableEq, Repr

structure Flag where
  /-- Its spellings, the first one being its name. -/
  names : List String
  arity : Arity
  /-- How the help page calls its value, and what it says about it. -/
  value : String := ""
  help : String := ""
  deriving DecidableEq, Repr

namespace Flag

def takesValue (f : Flag) : Bool := f.arity == .text || f.arity == .number

def key (f : Flag) : String := f.names.headD ""

def shown (f : Flag) : String := "/".intercalate f.names

end Flag

structure Grammar where
  program : String
  flags : List Flag
  /-- The name of the plain argument. -/
  plain : String
  /-- Whether all that follows the plain argument belongs to it. -/
  greedy : Bool

inductive Stop where
  | help (g : Grammar)
  | misuse (g : Grammar) (text : String)

namespace Grammar

def fail {β : Type} (g : Grammar) (text : String) : Except Stop β := .error (.misuse g text)

def failFlag {β : Type} (g : Grammar) (f : Flag) (text : String) : Except Stop β :=
  g.fail s!"argument {f.shown}: {text}"

def spellings (g : Grammar) : List (String × Flag) := g.flags.flatMap fun f => f.names.map (·, f)

def flag? (g : Grammar) (name : String) : Option Flag := g.spellings.lookup name

end Grammar

/-- A spelling found in an argument, with the value that is attached to it. -/
structure Found where
  flag : Flag
  name : String
  attached : Option String
  /-- Whether an equals sign attaches it. -/
  equals : Bool

/-- What an argument is taken for. -/
inductive Slot where
  | plain (text : String)
  /-- The dashes after which everything is plain. -/
  | dashes
  /-- A flag; none if the grammar does not know it. -/
  | flag (text : String) (found : Option Found)

def Slot.text : Slot → String
  | plain s => s
  | dashes => "--"
  | flag s _ => s

def splitEquals (cs : List Char) : List Char × Option (List Char) :=
  match cs.dropWhile (· != '=') with
  | '=' :: rest => (cs.takeWhile (· != '='), some rest)
  | _ => (cs, none)

def isNegativeNumber : List Char → Bool
  | '-' :: cs =>
    let whole := cs.takeWhile Text.isDigit
    match cs.dropWhile Text.isDigit with
    | [] => !whole.isEmpty
    | '.' :: fraction => !fraction.isEmpty && fraction.all Text.isDigit
    | _ => false
  | _ => false

/-- The spellings an argument may stand for: after two dashes one that it
begins, and after a single dash one of a letter with the value at its tail. -/
def candidates (g : Grammar) (cs : List Char) : List Found :=
  match cs with
  | '-' :: '-' :: _ =>
    let (start, attached) := splitEquals cs
    g.spellings.filterMap fun (name, flag) =>
      if start.isPrefixOf name.toList then
        some ⟨flag, name, attached.map String.ofList, attached.isSome⟩
      else none
  | _ =>
    g.spellings.filterMap fun (name, flag) =>
      if name.toList == cs.take 2 then some ⟨flag, name, some (String.ofList (cs.drop 2)), false⟩
      else if cs.isPrefixOf name.toList then some ⟨flag, name, none, false⟩
      else none

/-- What an argument before the dashes is taken for. -/
def classify (g : Grammar) (s : String) : Except Stop Slot :=
  match s.toList with
  | '-' :: rest =>
    let cs := '-' :: rest
    let (start, attached) := splitEquals cs
    match g.flag? s, g.flag? (String.ofList start), attached with
    | some f, _, _ => .ok (.flag s (some ⟨f, s, none, false⟩))
    | none, some f, some v =>
      .ok (.flag s (some ⟨f, String.ofList start, some (String.ofList v), true⟩))
    | none, _, _ =>
      if rest.isEmpty then .ok (.plain s)
      else
        match candidates g cs with
        | [found] => .ok (.flag s (some found))
        | [] =>
          if isNegativeNumber cs || rest.contains ' ' then .ok (.plain s) else .ok (.flag s none)
        | many =>
          let names := ", ".intercalate (many.map (·.name))
          g.fail s!"ambiguous option: {s} could match {names}"
  | _ => .ok (.plain s)

def slots (g : Grammar) : List String → Except Stop (List Slot)
  | [] => .ok []
  | "--" :: rest => .ok (.dashes :: rest.map .plain)
  | s :: rest => do return (← classify g s) :: (← slots g rest)

/-- What arguments say: the plain argument and what belongs to it, the values of
flags, latest first, and what nobody asked for. -/
structure Parsed where
  plain : Option (List String) := none
  values : List (String × String) := []
  extras : List String := []

/-- Whether every underscore stands between digits. -/
def grouped (before : Option Char) : List Char → Bool
  | [] => true
  | '_' :: rest =>
    (before.map Char.isDigit).getD false && (rest.head?.map Char.isDigit).getD false &&
      grouped (some '_') rest
  | c :: rest => grouped (some c) rest

/-- The plain spelling of a number: digits of any script, which may be grouped by
underscores, become those of ASCII. None if the text is no number. -/
def plainReal? (s : String) : Option String :=
  let cs := (Text.trimChars s.toList).map fun c => match Text.digitValue? c with
    | some d => Char.ofNat (48 + d)
    | none => c
  let plain := cs.filter (· != '_')
  let word := Text.lower (String.ofList (Score.readSign plain).2)
  if grouped none cs && (Setting.isNumeral plain || ["inf", "infinity", "nan"].contains word) then
    some (String.ofList plain)
  else none

def real? {α : Type} [Scalar α] (s : String) : Option α := (plainReal? s).bind Setting.parseReal?

/-- Carries out a flag with its value. -/
def Parsed.set (g : Grammar) (p : Parsed) (f : Flag) (value : String) : Except Stop Parsed :=
  match f.arity with
  | .help => .error (.help g)
  | .number =>
    if (plainReal? value).isSome then .ok { p with values := (f.key, value) :: p.values }
    else g.failFlag f s!"invalid float value: {Text.quoted value}"
  | .switch | .text => .ok { p with values := (f.key, value) :: p.values }

/-- Carries out switches that share a dash, then a last flag. -/
def Parsed.setAll (g : Grammar) (p : Parsed) (fs : List (Flag × String)) : Except Stop Parsed :=
  fs.foldlM (fun p (f, v) => p.set g f v) p

/-- What the letters after a dash come to: the flags they name with their values,
the letters left over, and whether the last flag still needs a value. -/
structure Cluster where
  flags : List (Flag × String)
  left : Option String := none
  pending : Option Flag := none

/-- Reads a flag with what is attached to it; further switches may follow a switch
of one letter. The number of letters bounds the depth. -/
def cluster (g : Grammar) (done : List (Flag × String)) :
    (depth : Nat) → Found → Except Stop Cluster
  | 0, _ => .ok ⟨done, none, none⟩
  | depth + 1, found =>
    let f := found.flag
    match found.attached with
    | none => .ok (if f.takesValue then ⟨done, none, some f⟩ else ⟨done ++ [(f, "")], none, none⟩)
    | some v =>
      if f.takesValue then .ok ⟨done ++ [(f, v)], none, none⟩
      else if found.name.startsWith "--" || v.isEmpty || found.equals || v.startsWith "-" then
        g.failFlag f s!"ignored explicit argument {Text.quoted v}"
      else
        let name := String.ofList ('-' :: v.toList.take 1)
        let done := done ++ [(f, "")]
        match g.flag? name with
        | none => .ok ⟨done, some ("-" ++ v), none⟩
        | some next =>
          match v.toList.drop 1 with
          | [] => cluster g done depth ⟨next, name, none, false⟩
          | '=' :: rest => cluster g done depth ⟨next, name, some (String.ofList rest), true⟩
          | rest => cluster g done depth ⟨next, name, some (String.ofList rest), false⟩

def walk (g : Grammar) (p : Parsed) : List Slot → Except Stop Parsed
  | [] => .ok p
  | .plain s :: rest =>
    if p.plain.isSome then walk g { p with extras := p.extras ++ [s] } rest
    else if g.greedy then .ok { p with plain := some (s :: rest.map Slot.text) }
    else
      match rest with
      | .dashes :: rest => walk g { p with plain := some [s] } rest
      | rest => walk g { p with plain := some [s] } rest
  | .dashes :: rest =>
    match p.plain, rest with
    | none, .plain s :: rest =>
      if g.greedy then .ok { p with plain := some ("--" :: s :: rest.map Slot.text) }
      else walk g { p with plain := some [s] } rest
    | _, rest => walk g { p with extras := p.extras ++ ["--"] } rest
  | .flag s none :: rest => walk g { p with extras := p.extras ++ [s] } rest
  | .flag s (some found) :: rest =>
    match cluster g [] (s.length + 1) found with
    | .error e => .error e
    | .ok c =>
      match c.pending, rest with
      | none, rest =>
        match p.setAll g c.flags with
        | .error e => .error e
        | .ok p => walk g { p with extras := p.extras ++ c.left.toList } rest
      | some f, .plain v :: rest =>
        match p.setAll g (c.flags ++ [(f, v)]) with
        | .error e => .error e
        | .ok p => walk g p rest
      | some f, _ => g.failFlag f "expected one argument"

/-- Reads arguments by a grammar, whose plain argument must be there. -/
def Grammar.parse (g : Grammar) (arguments : List String) : Except Stop (List String × Parsed) := do
  let p ← walk g {} (← slots g arguments)
  match p.plain with
  | some plain => return (plain, p)
  | none => g.fail s!"the following arguments are required: {g.plain}"

end Partita.CommandLine
