import Partita.Scalar

/-! What a session is configured with. -/
namespace Partita

variable {α : Type} [Scalar α]

structure Compressor (α : Type) where
  threshold : α
  ratio : α
  attack : α
  release : α
  enabled : Bool

structure Limiter (α : Type) where
  threshold : α
  release : α
  enabled : Bool

instance : Inhabited (Compressor α) := ⟨⟨-24, 4, 0.003, 0.25, true⟩⟩
instance : Inhabited (Limiter α) := ⟨⟨-1, 0.1, true⟩⟩

/-- A disabled compressor does not reduce anything. -/
def Compressor.effective (s : Compressor α) : Compressor α :=
  if s.enabled then s else { s with ratio := 1, threshold := -100 }

/-- A disabled limiter has a threshold far above full scale. -/
def Limiter.effective (s : Limiter α) : Limiter α :=
  if s.enabled then s else { s with threshold := 20 }

structure Config (α : Type) where
  bpm : α
  renderRate : Int
  playbackRate : Int
  channels : Int
  /-- How long a `waitforfinish` waits at most. -/
  finishTimeout : α
  /-- How long it then lets tails ring out. -/
  finishGrace : α
  masterVolume : α
  realtimeRender : Bool
  compressor : Compressor α
  limiter : Limiter α

instance : Inhabited (Config α) where
  default :=
    { bpm := 120
      renderRate := 48000
      playbackRate := 44100
      channels := 2
      finishTimeout := 10
      finishGrace := 0.5
      masterVolume := 0.7
      realtimeRender := false
      compressor := default
      limiter := default }

end Partita
