import Partita.Mix.Render

/-! A mix in the making: what it is made for, and the engine that is asked to
play. It is rendered once, and asked for no voice after that. -/
namespace Partita

variable {α : Type} [Acoustic α]

structure Mixdown (α : Type) where
  plan : MixPlan α
  engine : Engine α

namespace Mixdown

def ofPlan (plan : MixPlan α) : Mixdown α := ⟨plan, {}⟩

/-- The empty mix of a length that a configuration asks for. -/
def ofConfig (duration : α) (c : Config α) : Except Fault (Mixdown α) :=
  (MixPlan.ofConfig duration c).map ofPlan

def createVoice (m : Mixdown α) (name mode : String) : Except Fault (Nat × Mixdown α) := do
  if m.engine.closed then throw .mixClosed
  match Mode.ofName? mode with
  | none => throw (.unknownRoute mode)
  | some mode =>
    let (id, engine) ← m.engine.createVoice name mode
    return (id, { m with engine })

/-- The voice that goes by a name, and its number. -/
def voice? (m : Mixdown α) (name : String) : Option (Nat × Voice α) :=
  (m.engine.names.lookup name).bind fun i => m.engine.voices[i]?.map (i, ·)

/-- Stores a sample, which is at the rate of the mix already. -/
def addSample (m : Mixdown α) (name : String) (audio : Audio α) : Except Fault (Mixdown α) := do
  return { m with engine := ← m.engine.addSample name audio }

/-- The sound of a single note of a voice. -/
@[specialize]
def renderNote (m : Mixdown α) (note : Note α) : Except Fault (Option (Stereo α)) :=
  Mix.renderNote m.plan.duration m.plan.rate [] (note.lfo.bind (m.engine.lfos[·]?)) note

/-- Renders the mix. Once tried, it is not rendered again. -/
@[specialize]
def render (m : Mixdown α) : Except Fault (Mix.Rendered α) × Mixdown α :=
  if m.engine.closed then (.error .renderedTwice, m)
  else (Mix.render m.plan m.engine, { m with engine.closed := true })

end Mixdown

end Partita
