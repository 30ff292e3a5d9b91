import Partita.Config
import Partita.Fault

/-! What a mix is made for, and what its dynamics did. -/
namespace Partita

variable {α : Type} [Scalar α]

structure MixPlan (α : Type) where
  duration : α
  rate : Int
  channels : Int
  masterVolume : α
  compressor : Compressor α
  limiter : Limiter α

/-- How much the dynamics took away at the end, and at most, in decibels. -/
structure Telemetry (α : Type) where
  compressor : α
  limiter : α
  peakCompressor : α
  peakLimiter : α

instance : Inhabited (Telemetry α) := ⟨⟨0, 0, 0, 0⟩⟩

namespace MixPlan

/-- A plan; the length must be positive. -/
def make (duration : α) (rate channels : Int) (masterVolume : α) (compressor : Compressor α)
    (limiter : Limiter α) : Except Fault (MixPlan α) :=
  if duration ≤ 0 then .error (.mixLength (Scalar.text duration))
  else .ok ⟨duration, rate, channels, masterVolume, compressor, limiter⟩

def ofConfig (duration : α) (c : Config α) : Except Fault (MixPlan α) :=
  make duration c.renderRate c.channels c.masterVolume c.compressor c.limiter

def frames (m : MixPlan α) : Except Fault Int := Scalar.toCeil (m.duration * Scalar.ofInt m.rate)

end MixPlan

end Partita
