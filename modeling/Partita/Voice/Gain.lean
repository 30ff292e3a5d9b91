import Partita.Voice.Settings

/-! Levels in decibels. Strong echoes and reverberation raise the level of an
instrument, so its gain is trimmed by a compensation that depends on them. -/
namespace Partita

variable {α : Type} [Scalar α]

/-- The least linear gain that is told apart from silence. -/
def minLinear : α := 1e-5

def linearToDb (linear : α) : α := 20 * Scalar.log10 (Scalar.max minLinear linear)

def volumeToDb (volume : α) : α := linearToDb (volume / 100)

namespace Parameters

/-- The trim that goes with the reverberation. -/
def reverbCompensation (p : Parameters α) (trim : α) : α :=
  if 0.2 < p.reverb.wet then trim + -1.5 * p.reverb.wet else trim

/-- The trim that applies whenever volume, delay or reverberation change. -/
def compensation (p : Parameters α) : α :=
  p.reverbCompensation <|
    if (0 : α) < p.delay.time ∧ 0.3 < p.delay.wet then
      0 + -3 * (p.delay.wet * 0.7) * (p.delay.feedback * 0.8)
    else 0

/-- The trim that applies ahead of a replay. -/
def normalization (p : Parameters α) : α :=
  p.reverbCompensation <|
    if 0.2 < p.delay.wet then 0 + -2 * p.delay.wet * p.delay.feedback else 0

/-- The gain that goes with the parameters. -/
def gain (p : Parameters α) : α := volumeToDb p.volume + p.compensation

end Parameters

end Partita
