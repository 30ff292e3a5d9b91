import Partita.Fault
import Partita.Signal.Audio
import Partita.Voice.Call

/-! The sound engine: voices that follow the calls made on them and keep the
notes they were asked to play, and the samples. A recording engine enters every
call in the journal and can be told to refuse some of them; an offline one is
rendered once the performance is over. -/
namespace Partita

variable {α : Type} [Scalar α]

/-- The parameters of a voice. A note keeps those of the moment it was
triggered. -/
structure Patch (α : Type) where
  gain : α
  pan : α
  filter : Filter α
  distortion : α
  envelope : Envelope α
  reverb : Reverb α
  delay : Echo α
  autopan : AutoPan α

def Patch.initial : Patch α where
  gain := 0
  pan := 0
  filter := default
  distortion := 0
  envelope := default
  reverb := default
  delay := (default : Delay α).echo
  autopan := default

/-- An oscillator that swings the gain of a voice between two levels. -/
structure Lfo (α : Type) where
  /-- How many oscillators its voice had before it. -/
  ordinal : Nat
  rate : α
  low : α
  high : α
  start : α
  running : Bool

/-- Notes played together, with the oscillator running at that moment. -/
structure Note (α : Type) where
  frequencies : List α
  duration : α
  at_ : α
  patch : Patch α
  lfo : Option Nat

/-- The number of notes a voice plays together. -/
def maxPolyphony : Nat := 6

structure Voice (α : Type) where
  name : String
  mode : Mode
  patch : Patch α
  /-- The oscillator it started last, and how many it has started. -/
  lfo : Option Nat
  lfoCount : Nat
  notes : Array (Note α)

namespace Voice

def initial (name : String) (mode : Mode) : Voice α := ⟨name, mode, Patch.initial, none, 0, #[]⟩

/-- Sets a parameter, or drops the notes and goes silent. -/
def apply (v : Voice α) : Call α → Voice α
  | .setGain db => { v with patch.gain := db }
  | .setPan position => { v with patch.pan := position }
  | .setFilter s => { v with patch.filter := s }
  | .setDistortion amount => { v with patch.distortion := amount }
  | .setEnvelope s => { v with patch.envelope := s }
  | .setReverb s => { v with patch.reverb := s }
  | .setDelay s => { v with patch.delay := s }
  | .setAutopan s => { v with patch.autopan := s }
  | .silence =>
    { v with
      patch.gain := Scalar.negInf
      patch.reverb.wet := 0
      patch.delay.wet := 0
      notes := #[] }
  | .startLfo .. | .stopLfo _ | .trigger .. | .releaseAll => v

end Voice

structure SampleCue (α : Type) where
  name : String
  gain : α
  at_ : α

/-- A call that an engine refuses: on the voice or the sample of a name, or on all of them. -/
structure Engine.Refusal where
  call : String
  name : Option String := none
  /-- Whether the engine is not set up for the call, so that no run goes on after it. -/
  setup : Bool := false
  deriving DecidableEq, Repr

namespace Engine.Refusal

/-- The name of a call stands for its refusal on all voices. -/
instance : Coe String Refusal := ⟨fun call => { call }⟩

instance : Coe (List String) (List Refusal) := ⟨List.map fun call => { call }⟩

def concerns (r : Refusal) (name call : String) : Bool := r.call == call && r.name.all (· == name)

def fault (r : Refusal) : Fault := if r.setup then .callUnsupported r.call else .callFailed r.call

end Engine.Refusal

structure Engine (α : Type) where
  /-- Whether calls are entered in the journal. -/
  recorder : Bool := false
  /-- Routes that cannot be built, by block; the entry `*` is for all others. -/
  failing : List (String × List String) := []
  /-- Calls that are refused. -/
  refused : List Engine.Refusal := []
  voices : Array (Voice α) := #[]
  /-- The voice that goes by a name, in the order of the names. -/
  names : List (String × Nat) := []
  lfos : Array (Lfo α) := #[]
  samples : List (String × Stereo α) := []
  cues : Array (SampleCue α) := #[]
  /-- Whether the mix has been rendered. -/
  closed : Bool := false

/-- Replaces the value of a key, or adds it at the end. -/
def assign {β : Type} (key : String) (value : β) : List (String × β) → List (String × β)
  | [] => [(key, value)]
  | (k, v) :: rest => if k == key then (key, value) :: rest else (k, v) :: assign key value rest

namespace Engine

/-- Whether a route cannot be built for a block. -/
def fails (e : Engine α) (block : String) (mode : Mode) : Bool :=
  match e.failing.lookup block <|> e.failing.lookup "*" with
  | some modes => modes.contains mode.name
  | none => false

/-- The fault with which a call on a voice or a sample is refused, if it is. -/
def refusal? (e : Engine α) (name call : String) : Option Fault :=
  (e.refused.find? (·.concerns name call)).map (·.fault)

def createVoice (e : Engine α) (name : String) (mode : Mode) : Except Fault (Nat × Engine α) :=
  if e.closed then .error .mixClosed
  else if e.fails name mode then .error (.routeUnavailable mode.name)
  else
    let id := e.voices.size
    .ok (id, { e with
      voices := e.voices.push (Voice.initial name mode), names := assign name id e.names })

/-- A sample as it is stored: one channel goes to both sides. -/
def sampleOfAudio (name : String) (a : Audio α) : Except Fault (Stereo α) :=
  match a.shape, a.columns.toList with
  | [_], [c] => .ok ⟨c, c⟩
  | [_, 1], [c] => .ok ⟨c, c⟩
  | [_, 2], [l, r] => .ok ⟨l, r⟩
  | _, _ => .error (.sampleShape name)

/-- Stores a sample, in place of one of the same name. -/
def addSample (e : Engine α) (name : String) (audio : Audio α) : Except Fault (Engine α) := do
  return { e with samples := assign name (← sampleOfAudio name audio) e.samples }

def hasSample (e : Engine α) (name : String) : Bool := (e.samples.lookup name).isSome

/-- Plays a sample that the engine has. -/
def playSample (e : Engine α) (name : String) (gain at_ : α) : Except Fault (Engine α) :=
  if e.hasSample name then .ok { e with cues := e.cues.push ⟨name, gain, at_⟩ }
  else .error (.missingSample name)

/-- Forgets the samples that were to be played. -/
def stopSamples (e : Engine α) : Engine α := { e with cues := #[] }

def runningLfo? (e : Engine α) (v : Voice α) : Option Nat :=
  v.lfo.filter fun i => (e.lfos[i]?.map (·.running)).getD false

def stopLfo (e : Engine α) (index : Nat) : Engine α :=
  { e with lfos := e.lfos.modify index fun l => { l with running := false } }

/-- Carries out a call on a voice. A note without a pitch or a length is not
kept. -/
def apply (e : Engine α) (id : Nat) (call : Call α) : Engine α :=
  match call with
  | .startLfo rate low high at_ =>
    match e.voices[id]? with
    | none => e
    | some v =>
      { e with
        lfos := e.lfos.push ⟨v.lfoCount, rate, low, high, at_, true⟩
        voices := e.voices.modify id fun v =>
          { v with lfo := some e.lfos.size, lfoCount := v.lfoCount + 1 } }
  | .stopLfo index => e.stopLfo index
  | .trigger frequencies duration at_ =>
    if frequencies.isEmpty || duration ≤ 0 then e
    else match e.voices[id]? with
      | none => e
      | some v =>
        let note := ⟨frequencies.take maxPolyphony, duration, at_, v.patch, e.runningLfo? v⟩
        { e with voices := e.voices.modify id fun v => { v with notes := v.notes.push note } }
  | .silence =>
    let e := match e.voices[id]?.bind (·.lfo) with
      | some i => e.stopLfo i
      | none => e
    { e with voices := e.voices.modify id (·.apply .silence) }
  | call => { e with voices := e.voices.modify id (·.apply call) }

end Engine

end Partita
