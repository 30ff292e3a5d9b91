import Partita.Playback
import Partita.Voice.Settings

/-! What a performance asks of the sound engine, and the journal it keeps of
that together with its log records. -/
namespace Partita

/-- How a voice is routed to the output. -/
inductive Mode where
  | full
  | direct
  | raw
  deriving DecidableEq, Repr

namespace Mode

/-- The routes in the order in which they are tried. -/
def all : List Mode := [full, direct, raw]

def name : Mode → String
  | full => "full"
  | direct => "direct"
  | raw => "raw"

def ofName? (name : String) : Option Mode := all.find? (·.name == name)

end Mode

inductive Call (α : Type) where
  | setGain (db : α)
  | setPan (position : α)
  | setFilter (s : Filter α)
  | setDistortion (amount : α)
  | setEnvelope (s : Envelope α)
  | setReverb (s : Reverb α)
  | setDelay (s : Echo α)
  | setAutopan (s : AutoPan α)
  | startLfo (rate low high at_ : α)
  | stopLfo (index : Nat)
  | trigger (frequencies : List α) (duration at_ : α)
  | releaseAll
  | silence

def Call.name {α : Type} : Call α → String
  | setGain _ => "set_gain"
  | setPan _ => "set_pan"
  | setFilter _ => "set_filter"
  | setDistortion _ => "set_distortion"
  | setEnvelope _ => "set_envelope"
  | setReverb _ => "set_reverb"
  | setDelay _ => "set_delay"
  | setAutopan _ => "set_autopan"
  | startLfo .. => "start_gain_lfo"
  | stopLfo _ => "lfo_stop"
  | trigger .. => "trigger"
  | releaseAll => "release_all"
  | silence => "silence"

inductive Event (α : Type) where
  | log (record : Record)
  | call (voice : String) (call : Call α)
  | createVoice (name : String) (mode : Mode)
  | playSample (name : String) (gain at_ : α)
  | stopSamples
  /-- A playback device was asked to do something. -/
  | device (call : DeviceCall α)

end Partita
