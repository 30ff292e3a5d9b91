import Partita.Score.Command

/-! The effects a script can name, and the lines that close a loop. -/
namespace Partita.Score

/-- The effects a `begin` or `end` line can name. -/
inductive EffectKind where
  | filter
  | distortion
  | reverb
  | delay
  | envelope
  | pan
  | autopan
  | autovolume
  | volume
  deriving DecidableEq, Repr

namespace EffectKind

def all : List EffectKind :=
  [filter, distortion, reverb, delay, envelope, pan, autopan, autovolume, volume]

def name : EffectKind → String
  | filter => "filter"
  | distortion => "distortion"
  | reverb => "reverb"
  | delay => "delay"
  | envelope => "envelope"
  | pan => "pan"
  | autopan => "autopan"
  | autovolume => "autovolume"
  | volume => "volume"

def ofName? (name : String) : Option EffectKind := all.find? (·.name == name)

end EffectKind

def isEffectName (token : Option String) : Bool := (token.bind EffectKind.ofName?).isSome

/-- Whether a command closes a loop: an `end` that names no effect. -/
def Command.isLoopEnd (c : Command) : Bool := c.verb == "end" && !isEffectName c.args.head?

end Partita.Score
