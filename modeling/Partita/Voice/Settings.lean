import Partita.Scalar
import Partita.Score.Effect

/-! The parameters of an instrument: one record per effect, with the values an
instrument starts with, and the snapshots a `begin` line takes of them. -/
namespace Partita

open Score (EffectKind)

variable {α : Type} [Scalar α]

structure Filter (α : Type) where
  kind : String
  frequency : α
  q : α

structure Reverb (α : Type) where
  wet : α
  dry : α
  decay : α
  predelay : α

structure Delay (α : Type) where
  time : α
  feedback : α
  pingpong : Int
  width : α
  wet : α

structure Envelope (α : Type) where
  attack : α
  decay : α
  sustain : α
  release : α

structure AutoPan (α : Type) where
  rate : α
  depth : α

/-- A volume swing between two linear gains. -/
structure AutoVolume (α : Type) where
  min : α
  max : α
  rate : α

instance : Inhabited (Filter α) := ⟨⟨"lowpass", 20000, 1⟩⟩
instance : Inhabited (Reverb α) := ⟨⟨0, 1, 1.5, 0.01⟩⟩
instance : Inhabited (Delay α) := ⟨⟨0, 0, 0, 0.5, 0⟩⟩
instance : Inhabited (Envelope α) := ⟨⟨0.01, 0.1, 0.5, 0.1⟩⟩
instance : Inhabited (AutoPan α) := ⟨⟨0, 0⟩⟩
instance : Inhabited (AutoVolume α) := ⟨⟨0, 0, 0⟩⟩

namespace Delay

def maxFeedback : α := 0.9

def maxWet : α := 0.8

/-- A delay whose feedback and wet level are held below their ceilings, so that
the echoes die away. -/
def capped (time feedback : α) (pingpong : Int) (width wet : α) : Delay α :=
  ⟨time, Scalar.min feedback maxFeedback, pingpong, width, Scalar.min wet maxWet⟩

end Delay

/-- A delay as a voice holds it. -/
structure Echo (α : Type) where
  time : α
  feedback : α
  pingpong : Bool
  width : α
  wet : α

def Delay.echo (s : Delay α) : Echo α := ⟨s.time, s.feedback, s.pingpong != 0, s.width, s.wet⟩

/-- Whether the swing moves the volume at all. -/
def AutoVolume.active (s : AutoVolume α) : Bool := (0 : α) < s.rate && s.min < s.max

/-- The saved value of one effect. -/
inductive Snapshot (α : Type) where
  | filter (s : Filter α)
  | distortion (amount : α)
  | reverb (s : Reverb α)
  | delay (s : Delay α)
  | envelope (s : Envelope α)
  | pan (position : α)
  | autopan (s : AutoPan α)
  | autovolume (s : AutoVolume α)
  | volume (level : α)

def Snapshot.kind : Snapshot α → EffectKind
  | filter _ => .filter
  | distortion _ => .distortion
  | reverb _ => .reverb
  | delay _ => .delay
  | envelope _ => .envelope
  | pan _ => .pan
  | autopan _ => .autopan
  | autovolume _ => .autovolume
  | volume _ => .volume

/-- The volume an instrument starts with, out of 100. -/
def defaultVolume : α := 80

/-- The volume that replaces the default one ahead of a replay. -/
def boostedVolume : α := 85

/-- All parameters of an instrument, the snapshots taken of them, last one
first, and the oscillator that swings its volume. -/
structure Parameters (α : Type) where
  volume : α
  pan : α
  filter : Filter α
  distortion : α
  reverb : Reverb α
  delay : Delay α
  envelope : Envelope α
  autopan : AutoPan α
  autovolume : AutoVolume α
  stack : List (Snapshot α)
  lfo : Option Nat

namespace Parameters

def initial : Parameters α where
  volume := defaultVolume
  pan := 0
  filter := default
  distortion := 0
  reverb := default
  delay := default
  envelope := default
  autopan := default
  autovolume := default
  stack := []
  lfo := none

def snapshot (p : Parameters α) : EffectKind → Snapshot α
  | .filter => .filter p.filter
  | .distortion => .distortion p.distortion
  | .reverb => .reverb p.reverb
  | .delay => .delay p.delay
  | .envelope => .envelope p.envelope
  | .pan => .pan p.pan
  | .autopan => .autopan p.autopan
  | .autovolume => .autovolume p.autovolume
  | .volume => .volume p.volume

end Parameters

end Partita
