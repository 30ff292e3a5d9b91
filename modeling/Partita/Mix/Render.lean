import Partita.Log
import Partita.Mix.Buffer
import Partita.Mix.Note
import Partita.Mix.Plan
import Partita.Signal.Dynamics
import Partita.Signal.Overlay

/-! The mix of a performance: notes and samples on the buses of their routes,
and the master bus with compressor and limiter. -/
namespace Partita

open Signal

variable {α : Type} [Acoustic α]

namespace Mix

structure Buses (α : Type) where
  full : Stereo α
  direct : Stereo α
  raw : Stereo α

def silentBus (frames : Nat) : Stereo α := ⟨Array.replicate frames 0, Array.replicate frames 0⟩

@[specialize]
def overlayStereo (bus sound : Stereo α) (start rate : Int) : Except Fault (Stereo α) := do
  let ⟨l, r⟩ := bus
  let l ← overlay l sound.left start rate
  let r ← overlay r sound.right start rate
  return ⟨l, r⟩

/-- Adds a sound to the bus of a route. -/
@[specialize]
def Buses.add (b : Buses α) (mode : Mode) (sound : Stereo α) (start rate : Int) :
    Except Fault (Buses α) := do
  let ⟨full, direct, raw⟩ := b
  match mode with
  | .full => return ⟨← overlayStereo full sound start rate, direct, raw⟩
  | .direct => return ⟨full, ← overlayStereo direct sound start rate, raw⟩
  | .raw => return ⟨full, direct, ← overlayStereo raw sound start rate⟩

/-- The frame an instant falls on. -/
def frameAt (at_ : α) (rate : Int) : Except Fault Int := Scalar.toNearest (at_ * Scalar.ofInt rate)

/-- Adds notes to the bus of their voice, and counts those that are heard. -/
@[specialize]
def addNotes (e : Engine α) (horizon : α) (rate : Int) (rooms : Rooms α) (mode : Mode)
    (state : Buses α × Nat) (notes : List (Note α)) : Except Fault (Buses α × Nat) :=
  notes.foldlM (fun (buses, count) note => do
    match ← renderNote horizon rate rooms (note.lfo.bind (e.lfos[·]?)) note with
    | none => return (buses, count)
    | some sound =>
      return (← buses.add mode sound (← frameAt note.at_ rate) rate, count + 1)) state

def namedVoices (e : Engine α) : List (Voice α) := e.names.filterMap fun (_, id) => e.voices[id]?

/-- Adds the samples that were played to the full bus. -/
@[specialize]
def addSamples (e : Engine α) (rate : Int) (buses : Buses α) : Except Fault (Buses α) :=
  e.cues.toList.foldlM (fun buses cue => do
    if cue.gain == Scalar.negInf then return buses
    match e.samples.lookup cue.name with
    | none => throw (.missingSample cue.name)
    | some sample =>
      let gain := dbToGain cue.gain
      buses.add .full (sample.map (·.map (· * gain))) (← frameAt cue.at_ rate) rate) buses

structure Rendered (α : Type) where
  buffer : Buffer α
  telemetry : Telemetry α
  log : Record

/-- One side of the mix: the limited signal, the direct bus at master volume and
the raw bus, within full scale. -/
@[specialize]
def mixSide (limited direct raw : Array α) (master : α) : Array α :=
  let low : α := -1
  let high : α := 1
  limited.mapIdx fun i x =>
    Scalar.clamp low high (x + direct.getD i 0 * master + raw.getD i 0)

/-- Renders what the voices and samples of an engine were asked to play. -/
@[specialize]
def render (m : MixPlan α) (e : Engine α) : Except Fault (Rendered α) := do
  let frames ← sampleCount α (← m.frames) 16
  let voices := namedVoices e
  let rooms := Rooms.ofPatches (voices.flatMap fun v => v.notes.toList.map (·.patch)) m.rate
  let empty : Buses α := ⟨silentBus frames, silentBus frames, silentBus frames⟩
  let (buses, count) ← voices.foldlM
    (fun state v => addNotes e m.duration m.rate rooms v.mode state v.notes.toList) (empty, 0)
  let buses ← addSamples e m.rate buses
  let master := m.masterVolume
  let comp := m.compressor.effective
  let compressed ← compress (buses.full.channels.map (·.map (· * master))) frames
    comp.threshold comp.ratio comp.attack comp.release m.rate 256
  let lim := m.limiter.effective
  let limited ← limit compressed.channels frames lim.threshold lim.release m.rate 64
  let left := mixSide (limited.channels.getD 0 #[]) buses.direct.left buses.raw.left master
  let right := mixSide (limited.channels.getD 1 #[]) buses.direct.right buses.raw.right master
  let two : α := 2
  let audio := if m.channels == 1 then
      Audio.mono (Array.zipWith (fun l r => Scalar.toSingle ((l + r) / two)) left right)
    else Audio.ofStereo ⟨left.map Scalar.toSingle, right.map Scalar.toSingle⟩
  let seconds ← Score.quotient (Scalar.ofNat frames : α) (Scalar.ofInt m.rate)
  return {
    buffer := ⟨audio, m.rate⟩
    telemetry :=
      ⟨Scalar.abs compressed.last, Scalar.abs limited.last, Scalar.abs compressed.largest,
        Scalar.abs limited.largest⟩
    log := ⟨.info, "offline",
      s!"Rendered {count} notes and {e.cues.size} samples into {Scalar.fixed 1 seconds}s of audio"⟩ }

end Mix

end Partita
