import Partita.Text.Blank

/-! Command lines: a verb and its arguments, separated by white space. -/
namespace Partita.Score

/-- What starts a comment line. -/
def commentMark : List Char := ['/', '/']

/-- Whether trimmed characters hold no command. -/
def insignificant (cs : List Char) : Bool := cs.isEmpty || commentMark.isPrefixOf cs

def isBlankOrComment (line : String) : Bool := insignificant (Text.trimChars line.toList)

structure Command where
  verb : String
  args : List String
  line : String
  deriving DecidableEq, Repr, Inhabited

def verbs : List String :=
  ["tone", "tones", "wait", "waitsec", "waitforfinish", "volume", "pan", "bpm", "tempo", "reverb",
   "delay", "filter", "distortion", "envelope", "autopan", "autovolume", "sample", "play", "loop",
   "end", "begin"]

namespace Command

def known (c : Command) : Bool := verbs.contains c.verb

def arg? (c : Command) (i : Nat) : Option String := c.args[i]?

/-- The command on a line, none on an empty line or a comment. -/
def parse? (line : String) : Option Command :=
  let trimmed := Text.trim line
  if isBlankOrComment trimmed then none
  else match Text.words trimmed with
    | [] => none
    | verb :: args => some { verb, args, line := trimmed }

end Command

end Partita.Score
