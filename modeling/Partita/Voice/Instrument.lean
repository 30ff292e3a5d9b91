import Partita.Voice.Engine
import Partita.Voice.Gain

/-! Instruments. A block name denotes one instrument: its parameters and the
voice they are sent to. Every operation changes the parameters first and then
makes the calls that bring the voice in line with them. -/
namespace Partita

open Score (EffectKind)

variable {α : Type} [Scalar α]

structure Instrument (α : Type) where
  name : String
  voice : Nat
  params : Parameters α

/-- An instrument together with the engine that holds its voice and the journal
of the performance. -/
structure Desk (α : Type) where
  instrument : Instrument α
  engine : Engine α
  journal : Array (Event α)

/-- Operations on an instrument. What was done before a call is refused stays
done. -/
abbrev DeskM (α : Type) := ExceptT Fault (StateM (Desk α))

namespace Desk

def note (event : Event α) : DeskM α Unit := modify fun d => { d with journal := d.journal.push event }

def log (severity : Severity) (text : String) : DeskM α Unit :=
  note (.log ⟨severity, "state", text⟩)

def current : DeskM α (Parameters α) := return (← get).instrument.params

def change (f : Parameters α → Parameters α) : DeskM α Unit :=
  modify fun d => { d with instrument.params := f d.instrument.params }

/-- The fault with which the engine refuses a call on the voice, if it does. -/
def refusal? (d : Desk α) (call : Call α) : Option Fault := d.engine.refusal? d.instrument.name call.name

/-- Makes a call on the voice, unless the engine refuses it. -/
def send (call : Call α) : DeskM α Unit := do
  let d ← get
  match d.refusal? call with
  | some f => throw f
  | none =>
    if d.engine.recorder then
      let shown := match call with
        | .stopLfo i => .stopLfo ((d.engine.lfos[i]?.map (·.ordinal)).getD i)
        | call => call
      note (.call d.instrument.name shown)
    else
      match call with
      | .releaseAll =>
        let count := (d.engine.voices[d.instrument.voice]?.map (·.notes.size)).getD 0
        note (.log ⟨.debug, "offline", s!"{d.instrument.name}: released {count} notes"⟩)
      | _ => pure ()
    modify fun d => { d with engine := d.engine.apply d.instrument.voice call }

end Desk

namespace Instrument

open Desk

def applyGain : DeskM α Unit := do send (.setGain (← current).gain)

def applyFilter : DeskM α Unit := do send (.setFilter (← current).filter)

def applyEnvelope : DeskM α Unit := do send (.setEnvelope (← current).envelope)

def applyReverb : DeskM α Unit := do send (.setReverb (← current).reverb)

def applyDelay : DeskM α Unit := do send (.setDelay (← current).delay.echo)

def sync : DeskM α Unit := do
  send (.setPan (← current).pan)
  applyFilter
  send (.setDistortion (← current).distortion)
  applyEnvelope
  applyReverb
  applyDelay
  send (.setAutopan (← current).autopan)
  applyGain

def setVolume (volume : α) : DeskM α Unit := do
  change ({ · with volume })
  let p ← current
  let name := (← get).instrument.name
  unless p.compensation == 0 do
    log .debug s!"{name}: volume {Scalar.text volume} with {Scalar.fixed 1 p.compensation}dB compensation"
  send (.setGain p.gain)

def setPan (pan : α) : DeskM α Unit := do
  change ({ · with pan })
  send (.setPan pan)

def setFilter (s : Filter α) : DeskM α Unit := do
  change ({ · with filter := s })
  applyFilter
  let name := (← get).instrument.name
  log .debug s!"{name}: {s.kind} filter at {Scalar.text s.frequency}Hz, Q={Scalar.text s.q}"

def setDistortion (amount : α) : DeskM α Unit := do
  change ({ · with distortion := amount })
  send (.setDistortion amount)

def setEnvelope (s : Envelope α) : DeskM α Unit := do
  change ({ · with envelope := s })
  applyEnvelope

def setReverb (s : Reverb α) : DeskM α Unit := do
  change ({ · with reverb := s })
  applyReverb
  applyGain

def setDelay (s : Delay α) : DeskM α Unit := do
  change ({ · with delay := s })
  applyDelay
  applyGain
  let p ← current
  let name := (← get).instrument.name
  unless p.compensation == 0 do
    log .info s!"{name}: applied {Scalar.fixed 1 p.compensation}dB compensation for effects"
  if 0.7 < s.feedback then
    log .info s!"{name}: high delay feedback ({Scalar.text s.feedback}), volume compensated"

def setAutopan (s : AutoPan α) : DeskM α Unit := do
  change ({ · with autopan := s })
  send (.setAutopan s)

/-- Stops the oscillator that swings the volume, if there is one. -/
def dropLfo : DeskM α Unit := do
  match (← current).lfo with
  | some i =>
    send (.stopLfo i)
    change ({ · with lfo := none })
  | none => pure ()

/-- Starts, replaces or removes the swing of the volume. -/
def setAutovolume (s : AutoVolume α) (at_ : α) : DeskM α Unit := do
  dropLfo
  if s.active then
    let id := (← get).engine.lfos.size
    send (.startLfo s.rate (linearToDb s.min) (linearToDb s.max) at_)
    change ({ · with lfo := some id })
  else applyGain
  change ({ · with autovolume := s })

/-- Takes a snapshot of an effect. -/
def begin (effect : String) : DeskM α Unit := do
  match EffectKind.ofName? effect with
  | some kind => change fun p => { p with stack := p.snapshot kind :: p.stack }
  | none => throw (.unknownEffect effect)

/-- Gives an effect a saved value. -/
def restore (at_ : α) : Snapshot α → DeskM α Unit
  | .filter s => setFilter s
  | .distortion amount => setDistortion amount
  | .reverb s => setReverb s
  | .delay s => setDelay s
  | .envelope s => setEnvelope s
  | .pan position => setPan position
  | .autopan s => setAutopan s
  | .autovolume s => setAutovolume s at_
  | .volume level => setVolume level

/-- Takes the latest snapshot off the stack, and restores it if it is one of
the effect named. -/
def finish (effect : String) (at_ : α) : DeskM α Unit := do
  match (← current).stack with
  | [] => pure ()
  | saved :: rest =>
    change ({ · with stack := rest })
    if saved.kind.name == effect then restore at_ saved
    else
      let name := (← get).instrument.name
      log .debug s!"{name}: 'end {effect}' does not match 'begin {saved.kind.name}'"

def trigger (frequencies : List α) (duration at_ : α) : DeskM α Unit :=
  send (.trigger frequencies duration at_)

/-- Raises the default volume and sends all parameters with the gain of a
replay. -/
def normalize : DeskM α Unit := do
  if (← current).volume == defaultVolume then change ({ · with volume := boostedVolume })
  sync
  let p ← current
  send (.setGain (volumeToDb p.volume + p.normalization))

def release : DeskM α Unit := do
  dropLfo
  send .releaseAll

def silence : DeskM α Unit := do
  dropLfo
  send .silence

end Instrument

end Partita
